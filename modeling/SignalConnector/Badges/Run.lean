/-
# Runs of the operations that touch a badge

One type for all operations that write `unread_count` or `unread_mentions`, or
the rows these are kept in, and the one case analysis on what each of them
does to the badges: `moves_apply`. An operation that fails rolls back.
-/
import SignalConnector.Badges.Refine

namespace SignalConnector

open Table

inductive BadgeOp
  | upsertAccount (signalAccount : String) (linkedAt : Option ℕ) (proxyGroup id : String)
  | setAccountAci (accountId : String) (aci : Option String)
  | ensureConversation (accountId : String) (kind : ConversationKind) (peerKey title : String)
  | advanceReadWatermarkTo (accountId conversationId : String) (sentAt : ℕ)
  | advanceReadWatermarkLatest (accountId conversationId : String)
  | insertMessage (message : MessageRecord) (clientRequestId preview : Option String)
      (incrementUnread : Bool) (storedAt : ℕ)
  | insertHistoryBatch (rows : List HistoryImportInsert) (storedAt : ℕ)
  | clearConversationUnread (accountId conversationId : String)
  | pruneHistory (nowMs maxMessages : ℕ)
  | sweepExpiredMessages (nowMs cap : ℕ)
  | deleteMessagesBySentAt (accountId conversationId : String) (sentAt : List ℕ)
  | deleteConversation (accountId conversationId : String) (boundAt : Option ℕ) (dropRow : Bool)
  | normalizeMemoIdentity (accountId : String)
  | mergePeerIdentity (accountId aci numberPeerKey : String) (now : ℕ)

namespace Store

/-- The shell and the canonical row of the account's notes, when both are there. -/
def memoPair (s : Store) (accountId : String) : Option (ConversationRow × ConversationRow) :=
  (s.accounts.find? accountId).bind fun account =>
    (s.memoShell account).bind fun (aci, shell) =>
      (s.conversationByPeer account.id .direct aci).map fun canonical => (shell, canonical)

/-- The shell and the canonical row of a peer, when both are there. -/
def peerRows (s : Store) (accountId aci numberPeerKey : String) : Option (ConversationRow × ConversationRow) :=
  if aci = numberPeerKey then none
  else (s.accounts.find? accountId).bind fun account => s.peerPair account aci numberPeerKey

end Store

namespace BadgeOp

variable (sha256 : String → String)

def apply (s : Store) : BadgeOp → Store
  | .upsertAccount signalAccount linkedAt proxyGroup id =>
    s.after (s.upsertAccountFromSignalWithId signalAccount linkedAt proxyGroup id)
  | .setAccountAci accountId aci => s.setAccountAci accountId aci
  | .ensureConversation accountId kind peerKey title =>
    s.after (s.ensureConversation sha256 accountId kind peerKey title)
  | .advanceReadWatermarkTo accountId conversationId sentAt =>
    s.after ((s.advanceReadWatermarkTo accountId conversationId sentAt).map fun s => ((), s))
  | .advanceReadWatermarkLatest accountId conversationId =>
    s.advanceReadWatermarkLatest accountId conversationId
  | .insertMessage message clientRequestId preview incrementUnread storedAt =>
    s.after (s.insertMessage message clientRequestId preview incrementUnread storedAt)
  | .insertHistoryBatch rows storedAt => s.after (s.insertHistoryBatch rows storedAt)
  | .clearConversationUnread accountId conversationId =>
    s.after (s.clearConversationUnread accountId conversationId)
  | .pruneHistory nowMs maxMessages => (s.pruneHistory nowMs maxMessages).2
  | .sweepExpiredMessages nowMs cap => (s.sweepExpiredMessages nowMs cap).2
  | .deleteMessagesBySentAt accountId conversationId sentAt =>
    s.after (s.deleteMessagesBySentAt accountId conversationId sentAt)
  | .deleteConversation accountId conversationId boundAt dropRow =>
    s.after (s.deleteConversation accountId conversationId boundAt dropRow)
  | .normalizeMemoIdentity accountId => s.after (s.normalizeMemoIdentity sha256 accountId)
  | .mergePeerIdentity accountId aci numberPeerKey now =>
    s.after (s.mergePeerIdentity sha256 accountId aci numberPeerKey now)

/-- The rows an operation deletes and the conversations it then repairs. -/
def repair (s : Store) : BadgeOp → Option ((MessageRow → Bool) × List String)
  | .pruneHistory nowMs maxMessages =>
    let gone := s.prunedRows nowMs maxMessages
    some (Store.named gone, Store.touchedConversations gone)
  | .sweepExpiredMessages nowMs cap =>
    let burning := s.burningRows (asI64 nowMs) cap
    let gone := s.lapsedRows (asI64 nowMs) (cap - burning.length)
    some (Store.named gone, Store.touchedConversations (burning ++ gone))
  | .deleteConversation accountId conversationId boundAt false =>
    if s.conversations.rows.any fun c => c.id = conversationId ∧ c.accountId = accountId then
      some (Store.clearedBy accountId conversationId boundAt, [conversationId])
    else none
  | _ => none

/-- The pair of conversations an operation folds, and the counts it leaves on the canonical one. -/
def pair (s : Store) : BadgeOp → Option ((ConversationRow × ConversationRow) × ℕ × ℕ)
  | .normalizeMemoIdentity accountId =>
    (s.memoPair accountId).map fun (shell, canonical) => ((shell, canonical),
      max canonical.unreadCount shell.unreadCount, max canonical.unreadMentions shell.unreadMentions)
  | .mergePeerIdentity accountId aci numberPeerKey _ =>
    (s.peerRows accountId aci numberPeerKey).map fun (shell, canonical) => ((shell, canonical),
      (s.unionUnread shell canonical).length, (s.unionUnread shell canonical).countP MessageRow.mentionsSelf)
  | _ => none

/-- What the operations do to the badges. -/
inductive Moves (s : Store) : BadgeOp → Counters → Prop
  | stay {op : BadgeOp} (hpair : op.pair s = none)
      (hrepair : ∀ gone touched, op.repair s = some (gone, touched) → touched = []) : Moves s op s.counters
  | openAccount {signalAccount proxyGroup id : String} {linkedAt : Option ℕ}
      (hfree : s.accounts.find? id = none) :
      Moves s (.upsertAccount signalAccount linkedAt proxyGroup id) (s.counters.openAccount id)
  | openConversation {accountId peerKey title id : String} {kind : ConversationKind}
      (hhome : (s.accounts.find? accountId).isSome) :
      Moves s (.ensureConversation accountId kind peerKey title) (s.counters.openConversation id accountId)
  | land {message : MessageRecord} {clientRequestId preview : Option String} {incrementUnread : Bool}
      {storedAt : ℕ} (hthere : (s.conversations.find? message.conversationId).isSome) :
      Moves s (.insertMessage message clientRequestId preview incrementUnread storedAt)
        (s.counters.land message.accountId message.conversationId (if incrementUnread then 1 else 0)
          (if incrementUnread && message.mentionsSelf then 1 else 0))
  | read {c : ConversationRow} (hc : c ∈ s.conversations.rows) :
      Moves s (.clearConversationUnread c.accountId c.id) (s.counters.read c.accountId c.id c.unreadCount)
  | repair {op : BadgeOp} {gone : MessageRow → Bool} {touched : List String} (hpair : op.pair s = none)
      (hrepair : op.repair s = some (gone, touched)) :
      Moves s op (s.counters.clamp (s.heldAfter gone touched)).recount
  | drop {accountId conversationId : String} {boundAt : Option ℕ} :
      Moves s (.deleteConversation accountId conversationId boundAt true)
        (s.counters.drop accountId conversationId).recount
  | foldNew {accountId id : String} {shell : ConversationRow} (hpair : s.memoPair accountId = none)
      (hhome : (s.accounts.find? accountId).isSome) (hshell : shell ∈ s.conversations.rows)
      (haccount : shell.accountId = accountId) (hfree : s.conversations.find? id = none) :
      Moves s (.normalizeMemoIdentity accountId) ((s.counters.openConversation id accountId).fold shell.id id
        shell.unreadCount shell.unreadMentions)
  | fold {op : BadgeOp} {shell canonical : ConversationRow} {unread mentions : ℕ}
      (hpair : op.pair s = some ((shell, canonical), unread, mentions))
      (hshell : shell ∈ s.conversations.rows) (hcanonical : canonical ∈ s.conversations.rows)
      (hne : shell.id ≠ canonical.id) (haccount : shell.accountId = canonical.accountId)
      (hrepair : op.repair s = none) :
      Moves s op (s.counters.fold shell.id canonical.id unread mentions)

variable {sha256} {s : Store}

theorem Moves.quiet {op : BadgeOp} {c : Counters} (hc : c = s.counters) (hpair : op.pair s = none)
    (hrepair : op.repair s = none) : Moves s op c :=
  hc ▸ .stay hpair fun _ _ h => by rw [hrepair] at h; cases h

theorem memoShell_spec {account : AccountRow} {aci : String} {shell : ConversationRow}
    (h : s.memoShell account = some (aci, shell)) :
    aci ≠ account.signalAccount ∧ shell ∈ s.conversations.rows ∧ shell.accountId = account.id ∧
      shell.peerKey = account.signalAccount := by
  obtain ⟨aci', haci, hshell⟩ := Option.bind_eq_some_iff.mp h
  obtain ⟨shell', hshell, heq⟩ := Option.map_eq_some_iff.mp hshell
  cases heq
  obtain ⟨-, hne⟩ := Option.filter_eq_some_iff.mp haci
  exact ⟨of_decide_eq_true hne, Store.conversationByPeer_spec hshell⟩

theorem moves_normalizeMemoIdentity (s : Store) (accountId : String) :
    Moves s (.normalizeMemoIdentity accountId) (s.after (s.normalizeMemoIdentity sha256 accountId)).counters := by
  unfold Store.normalizeMemoIdentity
  cases hfind : s.accounts.find? accountId with
  | none => exact .quiet rfl (by simp [pair, Store.memoPair, hfind]) rfl
  | some account =>
    obtain rfl : account.id = accountId := key_of_find? hfind
    dsimp only
    cases hmemo : s.memoShell account with
    | none => exact .quiet rfl (by simp [pair, Store.memoPair, hfind, hmemo]) rfl
    | some found =>
      obtain ⟨aci, shell⟩ := found
      obtain ⟨haci, hshell, haccount, hkey⟩ := memoShell_spec hmemo
      dsimp only
      unfold Store.ensureCanonical
      cases hcanonical : s.conversationByPeer account.id .direct aci with
      | some canonical =>
        obtain ⟨hmem, haccount', hkey'⟩ := Store.conversationByPeer_spec hcanonical
        have hpair : pair s (.normalizeMemoIdentity account.id) = some ((shell, canonical),
            max canonical.unreadCount shell.unreadCount,
            max canonical.unreadMentions shell.unreadMentions) := by
          simp [pair, Store.memoPair, hfind, hmemo, hcanonical]
        have hne : shell.id ≠ canonical.id := fun hid => haci (by
          rw [← hkey, ← hkey', s.conversations.row_unique hshell hmem hid])
        change Moves s _ (s.foldMemo shell canonical).counters
        rw [Store.counters_foldMemo hmem]
        exact .fold hpair hshell hmem hne (haccount.trans haccount'.symm) rfl
      | none =>
        have hnone : s.memoPair account.id = none := by simp [Store.memoPair, hfind, hmemo, hcanonical]
        have hquiet : pair s (.normalizeMemoIdentity account.id) = none := by simp [pair, hnone]
        dsimp only
        set row := ConversationRow.ofPeer (stableHashId sha256 [account.id, "direct", aci]) account.id .direct aci
          shell.title
        cases hinsert : s.insertConversation row with
        | error => exact .quiet rfl hquiet rfl
        | ok =>
          obtain ⟨hfree, hhome, rfl⟩ := Store.insertConversation_ok hinsert
          have hmem : row ∈ (s.conversations.insertOrIgnore row).rows := by
            rw [rows_insertOrIgnore_of_free hfree]
            simp
          change Moves s _ (Store.foldMemo { s with conversations := s.conversations.insertOrIgnore row } shell
            row).counters
          rw [Store.counters_foldMemo hmem]
          have hopen : Store.counters { s with conversations := s.conversations.insertOrIgnore row } =
              s.counters.openConversation row.id account.id :=
            congrArg₂ Counters.mk (view_insertOrIgnore _ _) rfl
          rw [hopen]
          have hunread : max row.unreadCount shell.unreadCount = shell.unreadCount := Nat.zero_max _
          have hmentions : max row.unreadMentions shell.unreadMentions = shell.unreadMentions := Nat.zero_max _
          rw [hunread, hmentions]
          exact .foldNew hnone (by simp [hfind]) hshell haccount hfree

theorem moves_mergePeerIdentity (s : Store) (accountId aci numberPeerKey : String) (now : ℕ) :
    Moves s (.mergePeerIdentity accountId aci numberPeerKey now)
      (s.after (s.mergePeerIdentity sha256 accountId aci numberPeerKey now)).counters := by
  unfold Store.mergePeerIdentity
  split
  · next hsame => exact .quiet rfl (by simp [pair, Store.peerRows, hsame]) rfl
  next hdiffer =>
  cases hfind : s.accounts.find? accountId with
  | none => exact .quiet rfl (by simp [pair, Store.peerRows, hfind]) rfl
  | some account =>
    dsimp only
    cases hpeer : s.peerPair account aci numberPeerKey with
    | none => exact .quiet rfl (by simp [pair, Store.peerRows, hfind, hpeer]) rfl
    | some found =>
      obtain ⟨shell, canonical⟩ := found
      obtain ⟨hshell, hcanonical, hne, haccount⟩ := Store.peerPair_spec hpeer
      have hpair : pair s (.mergePeerIdentity accountId aci numberPeerKey now) = some ((shell, canonical),
          (s.unionUnread shell canonical).length,
          (s.unionUnread shell canonical).countP MessageRow.mentionsSelf) := by
        simp [pair, Store.peerRows, hdiffer, hfind, hpeer]
      dsimp only
      set folded := s.foldPeer shell canonical (s.noticeOf sha256 accountId shell canonical now) with hfolded
      have hcounters : folded.counters = _ := Store.counters_foldPeer hcanonical hne _
      have hstays : (folded.counters.badges.find? canonical.id).isSome := by
        have hmem : (folded.counters.badges.find? canonical.id) = some ⟨canonical.id, canonical.accountId,
            (s.unionUnread shell canonical).length,
            (s.unionUnread shell canonical).countP MessageRow.mentionsSelf⟩ := by
          rw [hcounters, Table.find?_eq_some]
          refine ⟨mem_delete.mpr ⟨List.mem_map.mpr ⟨canonical.badge, Store.badge_mem hcanonical, ?_⟩, ?_⟩,
            rfl⟩
          · simp [ConversationRow.badge]
          · simpa using hne.symm
        simp [hmem]
      have hsome : (folded.conversations.find? canonical.id).isSome := by
        rwa [Store.find?_badges, Option.isSome_map] at hstays
      obtain ⟨summary, hsummary⟩ := Option.isSome_iff_exists.mp hsome
      rw [hsummary]
      change Moves s _ folded.counters
      rw [hcounters]
      exact .fold hpair hshell hcanonical hne haccount rfl

theorem moves_deleteConversation (s : Store) (accountId conversationId : String) (boundAt : Option ℕ)
    (dropRow : Bool) : Moves s (.deleteConversation accountId conversationId boundAt dropRow)
      (s.after (s.deleteConversation accountId conversationId boundAt dropRow)).counters := by
  by_cases hthere : s.conversations.rows.any fun c => c.id = conversationId ∧ c.accountId = accountId
  swap
  · have hrepair : repair s (.deleteConversation accountId conversationId boundAt dropRow) = none := by
      cases dropRow
      · exact if_neg hthere
      · rfl
    unfold Store.deleteConversation
    rw [if_neg hthere]
    exact .quiet rfl rfl hrepair
  cases h : s.deleteConversation accountId conversationId boundAt dropRow with
  | error =>
    cases dropRow with
    | true => exact .quiet rfl rfl rfl
    | false =>
      unfold Store.deleteConversation at h
      rw [if_pos hthere] at h
      cases h
  | ok =>
    rcases Store.counters_deleteConversation hthere h with ⟨rfl, hrepair⟩ | ⟨rfl, hdrop⟩
    · exact hrepair ▸ .repair rfl (if_pos hthere)
    · exact hdrop ▸ .drop

/-- **Every operation moves the badges in one of these ways.** -/
theorem moves_apply (s : Store) (op : BadgeOp) : Moves s op (op.apply sha256 s).counters := by
  cases op with
  | upsertAccount signalAccount linkedAt proxyGroup id =>
    simp only [apply]
    cases h : s.upsertAccountFromSignalWithId signalAccount linkedAt proxyGroup id with
    | error => exact .quiet rfl rfl rfl
    | ok =>
      rcases Store.counters_upsertAccount h with hstay | ⟨hfree, hopen⟩
      · exact .quiet hstay rfl rfl
      · exact hopen ▸ .openAccount hfree
  | setAccountAci accountId aci => exact .quiet (s.counters_setAccountAci accountId aci) rfl rfl
  | ensureConversation accountId kind peerKey title =>
    simp only [apply]
    cases h : s.ensureConversation sha256 accountId kind peerKey title with
    | error => exact .quiet rfl rfl rfl
    | ok =>
      rcases Store.counters_ensureConversation h with hstay | ⟨hhome, hopen⟩
      · exact .quiet hstay rfl rfl
      · exact hopen ▸ .openConversation hhome
  | advanceReadWatermarkTo accountId conversationId sentAt =>
    simp only [apply, Store.advanceReadWatermarkTo]
    split
    · exact .quiet (s.counters_raiseWatermark accountId conversationId sentAt) rfl rfl
    · exact .quiet rfl rfl rfl
  | advanceReadWatermarkLatest accountId conversationId =>
    simp only [apply, Store.advanceReadWatermarkLatest]
    split
    · exact .quiet (s.counters_raiseWatermark accountId conversationId _) rfl rfl
    · exact .quiet rfl rfl rfl
  | insertMessage message clientRequestId preview incrementUnread storedAt =>
    simp only [apply]
    cases h : s.insertMessage message clientRequestId preview incrementUnread storedAt with
    | error => exact .quiet rfl rfl rfl
    | ok =>
      rcases Store.counters_insertMessage h with hstay | ⟨hthere, hland⟩
      · exact .quiet hstay rfl rfl
      · exact hland ▸ .land hthere
  | insertHistoryBatch rows storedAt =>
    simp only [apply]
    cases h : s.insertHistoryBatch rows storedAt with
    | error => exact .quiet rfl rfl rfl
    | ok => exact .quiet (Store.counters_insertHistoryBatch h) rfl rfl
  | clearConversationUnread accountId conversationId =>
    simp only [apply]
    cases h : s.clearConversationUnread accountId conversationId with
    | error => exact .quiet rfl rfl rfl
    | ok =>
      rcases Store.counters_clearConversationUnread h with hstay | ⟨c, hc, rfl, rfl, hread⟩
      · exact .quiet (congrArg Store.counters hstay) rfl rfl
      · exact hread ▸ .read hc
  | pruneHistory nowMs maxMessages =>
    rcases s.counters_pruneHistory nowMs maxMessages with ⟨hnone, hstay⟩ | hrepair
    · simp only [apply, hstay]
      refine .stay rfl fun gone touched h => ?_
      cases h
      exact hnone
    · exact hrepair ▸ .repair rfl rfl
  | sweepExpiredMessages nowMs cap =>
    exact s.counters_sweepExpiredMessages nowMs cap ▸ .repair rfl rfl
  | deleteMessagesBySentAt =>
    simp only [apply, Store.deleteMessagesBySentAt]
    split <;> exact .quiet rfl rfl rfl
  | deleteConversation accountId conversationId boundAt dropRow =>
    exact moves_deleteConversation s accountId conversationId boundAt dropRow
  | normalizeMemoIdentity accountId => exact moves_normalizeMemoIdentity s accountId
  | mergePeerIdentity accountId aci numberPeerKey now =>
    exact moves_mergePeerIdentity s accountId aci numberPeerKey now

end BadgeOp

end SignalConnector
