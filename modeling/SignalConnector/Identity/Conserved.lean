/-
# What the fold of a peer conserves

`merge_peer_identity` folds the conversation of a number into the one of its
ACI. It loses no message and no reaction that the canonical conversation does
not hold, and a second call folds only a shell under the other spelling of the
number. Four of its promises hold under a condition. The badge is recounted
from the read watermark, so that rows that never were unread may come up; the
timers are combined by `MIN`, for which a timer that is off is the smallest;
the account's own number is recognised in one spelling only; and the ledger has
one entry for each number, not for each fold.
-/
import SignalConnector.Badges.Refine
import SignalConnector.Store.PeerMerge

namespace SignalConnector

open List Store Table

/-- The number in the spelling given and the other one. -/
def phoneSpellings (number : String) : List String := number :: (alternatePhoneSpelling number).toList

/-- A timer that is switched on. -/
def timerOn (timer : Option ℤ) : Option ℤ := timer.filter (· ≠ 0)

namespace Store

/-- `UNIQUE(account_id, kind, peer_key)`. -/
def PeersUnique (s : Store) : Prop :=
  ∀ c ∈ s.conversations.rows, ∀ c' ∈ s.conversations.rows,
    c.accountId = c'.accountId → c.kind = c'.kind → c.peerKey = c'.peerKey → c.id = c'.id
  deriving Decidable

/-- The canonical conversation holds the message already. -/
def Holds (s : Store) (canonicalId : String) (m : MessageRow) : Prop :=
  ∃ other ∈ s.messages.rows, other.conversationId = canonicalId ∧ other.accountId = m.accountId ∧
    other.direction = m.direction ∧ other.sentAt = m.sentAt ∧ other.senderId = m.senderId

/-- The canonical conversation holds the reaction already. -/
def HoldsEvent (s : Store) (canonicalId : String) (e : MessageEventRow) : Prop :=
  ∃ other ∈ s.messageEvents.rows, other.conversationId = canonicalId ∧ other.accountId = e.accountId ∧
    other.targetTimestamp = e.targetTimestamp ∧ other.actorId = e.actorId

end Store

section Fold

variable (sha256 : String → String) (snapshotJson : ShellSnapshot → String)

/-- The call folds `shell` into `canonical` and leaves `db'`. -/
structure Folds (db : Database) (accountId aci numberPeerKey : String) (now : ℕ) (account : AccountRow)
    (shell canonical : ConversationRow) (db' : Database) : Prop where
  found : db.store.accounts.find? accountId = some account
  pair : db.store.peerPair account aci numberPeerKey = some (shell, canonical)
  folded : ∃ outcome, db.mergePeerIdentity sha256 snapshotJson accountId aci numberPeerKey now =
    .ok (some outcome, db')

/-- Everything the fold promises to conserve. -/
structure Conserved (db : Database) (accountId aci numberPeerKey : String) (account : AccountRow)
    (shell canonical : ConversationRow) (db' : Database) : Prop where
  messages : ∀ m ∈ db.store.messages.rows, m.conversationId = shell.id ∨ m.conversationId = canonical.id →
    { m with conversationId := canonical.id } ∈ db'.store.messages.rows ∨
      (m.conversationId = shell.id ∧ db.store.Holds canonical.id m)
  reactions : ∀ e ∈ db.store.messageEvents.rows, e.conversationId = shell.id ∨ e.conversationId = canonical.id →
    { e with conversationId := canonical.id } ∈ db'.store.messageEvents.rows ∨
      (e.conversationId = shell.id ∧ db.store.HoldsEvent canonical.id e)
  unread : ∀ c ∈ db'.store.conversations.rows, c.id = canonical.id →
    c.unreadCount ≤ shell.unreadCount + canonical.unreadCount
  timer : ∀ c ∈ db'.store.conversations.rows, c.id = canonical.id →
    timerOn c.expireTimerSeconds =
      combine min (timerOn canonical.expireTimerSeconds) (timerOn shell.expireTimerSeconds)
  own : ∀ c ∈ db.store.conversations.rows, c.accountId = accountId → c.kind = .direct →
    c.peerKey ∈ phoneSpellings account.signalAccount → ∃ c' ∈ db'.store.conversations.rows, c'.id = c.id
  ledger : ∃ (row : IdentityMergeRow) (noticeMinted : Bool), row.accountId = accountId ∧
    row.rollback = snapshotJson (db.store.shellSnapshot shell canonical aci noticeMinted) ∧
    db'.conversationIdentityMerges.rows.Perm (row :: db.conversationIdentityMerges.rows)
  again : ∀ now' outcome db'', db'.mergePeerIdentity sha256 snapshotJson accountId aci numberPeerKey now' =
      .ok (some outcome, db'') →
    ∃ c ∈ db.store.conversations.rows, c.accountId = accountId ∧ c.kind = .direct ∧
      c.peerKey ≠ shell.peerKey ∧ c.peerKey ∈ phoneSpellings numberPeerKey

/-- The rows past the canonical watermark are no more than the two badges said, no timer off meets one on, the shell
is not the account's own number, and no fold of it is on file. -/
structure FoldSafe (db : Database) (accountId numberPeerKey : String) (account : AccountRow)
    (shell canonical : ConversationRow) : Prop where
  unread : (db.store.unionUnread shell canonical).length ≤ shell.unreadCount + canonical.unreadCount
  timer : ∀ t ∈ canonical.expireTimerSeconds, ∀ t' ∈ shell.expireTimerSeconds,
    ¬(t = 0 ∧ 0 < t') ∧ ¬(0 < t ∧ t' = 0)
  own : shell.peerKey ∉ phoneSpellings account.signalAccount
  ledger : ∀ row ∈ db.conversationIdentityMerges.rows, row.key ≠ (accountId, numberPeerKey)

variable {sha256 snapshotJson} {db db' : Database} {accountId aci numberPeerKey : String} {now : ℕ}
  {account : AccountRow} {shell canonical : ConversationRow}

/-! ### The rows of the fold -/

namespace Store

variable {s : Store}

variable {canonicalId : String} (notice : Option MessageRow) {c : ConversationRow}

theorem not_unmatched {m : MessageRow} (h : ¬s.unmatched canonicalId m = true) : s.Holds canonicalId m := by
  simp only [unmatched, Bool.not_eq_true, Bool.not_eq_false', any_eq_true, Bool.and_eq_true,
    decide_eq_true_eq, MessageRow.sameIdentity] at h
  exact h

theorem not_eventUnmatched {e : MessageEventRow}
    (h : ¬s.eventUnmatched canonicalId e = true) : s.HoldsEvent canonicalId e := by
  simp only [eventUnmatched, Bool.not_eq_true, Bool.not_eq_false', any_eq_true, decide_eq_true_eq] at h
  exact h

theorem message_foldPeer (notice : Option MessageRow) (hne : shell.id ≠ canonical.id) {m : MessageRow}
    (hm : m ∈ s.messages.rows) (hin : m.conversationId = shell.id ∨ m.conversationId = canonical.id) :
    { m with conversationId := canonical.id } ∈ (s.foldPeer shell canonical notice).messages.rows ∨
      (m.conversationId = shell.id ∧ s.Holds canonical.id m) := by
  have hkept : ∀ x ∈ (s.moveMessages shell.id canonical.id).messages.rows,
      x ∈ (s.foldPeer shell canonical notice).messages.rows := by
    intro x hx
    cases notice with
    | none => exact hx
    | some => exact mem_insertOrIgnore_of_mem hx
  have hmoved : ∀ x ∈ s.messages.rows.map (fun m => if (m.conversationId = shell.id && s.unmatched canonical.id m) = true
      then { m with conversationId := canonical.id } else m), x.conversationId ≠ shell.id →
        x ∈ (s.moveMessages shell.id canonical.id).messages.rows := fun x hx hother =>
    mem_delete.mpr ⟨hx, decide_eq_false hother⟩
  rcases hin with hshell | hcanonical
  · by_cases hfree : s.unmatched canonical.id m = true
    · refine .inl (hkept _ (hmoved _ (mem_map.mpr ⟨m, hm, ?_⟩) hne.symm))
      rw [if_pos (by simp [hshell, hfree])]
    · exact .inr ⟨hshell, not_unmatched hfree⟩
  · refine .inl (hkept _ (hmoved _ (mem_map.mpr ⟨m, hm, ?_⟩) hne.symm))
    rw [if_neg (by simp [hcanonical, hne.symm]), ← hcanonical]

theorem event_foldPeer (notice : Option MessageRow) (hne : shell.id ≠ canonical.id) {e : MessageEventRow}
    (he : e ∈ s.messageEvents.rows) (hin : e.conversationId = shell.id ∨ e.conversationId = canonical.id) :
    { e with conversationId := canonical.id } ∈ (s.foldPeer shell canonical notice).messageEvents.rows ∨
      (e.conversationId = shell.id ∧ s.HoldsEvent canonical.id e) := by
  have hkept : (s.foldPeer shell canonical notice).messageEvents = (s.moveEvents shell.id canonical.id).messageEvents := by
    cases notice <;> rfl
  rw [hkept]
  have hmoved : ∀ x ∈ s.messageEvents.rows.map (fun e => if (e.conversationId = shell.id &&
      s.eventUnmatched canonical.id e) = true then { e with conversationId := canonical.id } else e),
        x.conversationId ≠ shell.id → x ∈ (s.moveEvents shell.id canonical.id).messageEvents.rows := fun x hx hother =>
    mem_delete.mpr ⟨hx, decide_eq_false hother⟩
  rcases hin with hshell | hcanonical
  · by_cases hfree : s.eventUnmatched canonical.id e = true
    · refine .inl (hmoved _ (mem_map.mpr ⟨e, he, ?_⟩) hne.symm)
      rw [if_pos (by simp [hshell, hfree])]
    · exact .inr ⟨hshell, not_eventUnmatched hfree⟩
  · refine .inl (hmoved _ (mem_map.mpr ⟨e, he, ?_⟩) hne.symm)
    rw [if_neg (by simp [hcanonical, hne.symm]), ← hcanonical]

theorem conversations_foldPeer :
    (s.foldPeer shell canonical notice).conversations.rows = (s.conversations.rows.map fun c =>
      if c.id = canonical.id then
        ((s.moveMessages shell.id canonical.id).moveEvents shell.id canonical.id).peerState shell c
      else c).filter fun c => !decide (c.id = shell.id) := by
  have hrows : ∀ notice, (s.foldPeer shell canonical notice).conversations.rows =
      (s.foldPeer shell canonical none).conversations.rows := fun notice => by cases notice <;> rfl
  rw [hrows]
  unfold foldPeer deleteShell updateConversations
  simp only [rows_delete, rows_update, decide_eq_true_eq]
  rfl

theorem canonical_foldPeer (hcanonical : canonical ∈ s.conversations.rows)
    (hne : shell.id ≠ canonical.id) {c : ConversationRow} (hid : c.id = canonical.id) :
    c ∈ (s.foldPeer shell canonical notice).conversations.rows ↔
      c = ((s.moveMessages shell.id canonical.id).moveEvents shell.id canonical.id).peerState shell canonical := by
  rw [conversations_foldPeer, mem_filter, mem_map]
  constructor
  · rintro ⟨⟨x, hx, rfl⟩, -⟩
    have hx' : x.id = canonical.id := by
      split at hid
      · assumption
      · exact hid
    rw [if_pos hx', s.conversations.row_unique hx hcanonical hx']
  · rintro rfl
    refine ⟨⟨canonical, hcanonical, if_pos rfl⟩, ?_⟩
    rw [hid]
    simpa using hne.symm

theorem exists_conversation_foldPeer (hc : c ∈ s.conversations.rows) :
    (∃ c' ∈ (s.foldPeer shell canonical notice).conversations.rows, c'.id = c.id) ↔ c.id ≠ shell.id := by
  rw [conversations_foldPeer]
  constructor
  · rintro ⟨c', hc', hid⟩
    rw [← hid]
    simpa using (mem_filter.mp hc').2
  · intro hother
    refine ⟨_, mem_filter.mpr ⟨mem_map_of_mem hc, ?_⟩, ?_⟩
    · have hkept : ∀ c' : ConversationRow, c'.id = c.id → (!decide (c'.id = shell.id)) = true := fun c' hid => by
        simpa [hid] using hother
      split
      · exact hkept _ rfl
      · exact hkept _ rfl
    · split <;> rfl

theorem of_mem_conversations_foldPeer (hc : c ∈ (s.foldPeer shell canonical notice).conversations.rows) :
    ∃ c₀ ∈ s.conversations.rows, c₀.id ≠ shell.id ∧ c₀.accountId = c.accountId ∧ c₀.kind = c.kind ∧
      c₀.peerKey = c.peerKey := by
  rw [conversations_foldPeer] at hc
  obtain ⟨hmem, hother⟩ := mem_filter.mp hc
  obtain ⟨c₀, hc₀, rfl⟩ := mem_map.mp hmem
  refine ⟨c₀, hc₀, ?_, ?_⟩
  · have hid : (if c₀.id = canonical.id then
        ((s.moveMessages shell.id canonical.id).moveEvents shell.id canonical.id).peerState shell c₀
      else c₀).id = c₀.id := by split <;> rfl
    rw [hid] at hother
    simpa using hother
  · split <;> exact ⟨rfl, rfl, rfl⟩

end Store

/-! ### The timers -/

/-- `MIN` is the smaller timer that is on, unless one that is off meets one that is on. -/
theorem timerOn_combine_min (a b : Option ℤ) : timerOn (combine min a b) = combine min (timerOn a) (timerOn b) ↔
      ∀ t ∈ a, ∀ t' ∈ b, ¬(t = 0 ∧ 0 < t') ∧ ¬(0 < t ∧ t' = 0) := by
  have hoff : timerOn (some 0) = none := rfl
  have hon : ∀ t : ℤ, t ≠ 0 → timerOn (some t) = some t := fun t ht => by simp [timerOn, ht]
  cases a with
  | none => exact iff_of_true rfl nofun
  | some t =>
    cases b with
    | none =>
      refine iff_of_true ?_ nofun
      change timerOn (some t) = combine min (timerOn (some t)) none
      cases timerOn (some t) <;> rfl
    | some t' =>
      simp only [Option.mem_some_iff, forall_eq']
      change timerOn (some (min t t')) = _ ↔ _
      by_cases ht : t = 0
      · subst ht
        by_cases ht' : t' = 0
        · subst ht'
          exact iff_of_true rfl (by omega)
        · rw [hoff, hon t' ht']
          by_cases hpos : 0 < t'
          · rw [min_eq_left hpos.le, hoff]
            exact iff_of_false nofun fun h => h.1 ⟨rfl, hpos⟩
          · rw [min_eq_right (by omega), hon t' ht']
            exact iff_of_true rfl (by omega)
      · by_cases ht' : t' = 0
        · subst ht'
          rw [hoff, hon t ht]
          by_cases hpos : 0 < t
          · rw [min_eq_right hpos.le, hoff]
            exact iff_of_false nofun fun h => h.2 ⟨hpos, rfl⟩
          · rw [min_eq_left (by omega), hon t ht]
            exact iff_of_true rfl (by omega)
        · rw [hon t ht, hon t' ht', hon _ (by omega)]
          exact iff_of_true rfl (by omega)

/-! ### The ledger -/

theorem rows_fileSnapshot (db : Database) (row : IdentityMergeRow) : (db.fileSnapshot row).rows =
    (db.conversationIdentityMerges.rows.filter fun r => !decide (r.key = row.key)) ++ [row] := by
  have hfree : (db.conversationIdentityMerges.delete fun r => r.key = row.key).find? row.key = none :=
    Table.find?_eq_none.mpr fun r hr => of_decide_eq_false (mem_delete.mp hr).2
  exact rows_insertOrIgnore_of_free hfree

theorem perm_fileSnapshot {row : IdentityMergeRow}
    (hfree : ∀ r ∈ db.conversationIdentityMerges.rows, r.key ≠ row.key) :
    (db.fileSnapshot row).rows.Perm (row :: db.conversationIdentityMerges.rows) := by
  have hall : (db.conversationIdentityMerges.rows.filter fun r => !decide (r.key = row.key)) =
      db.conversationIdentityMerges.rows := filter_eq_self.mpr fun r hr => by simpa using hfree r hr
  rw [rows_fileSnapshot, hall]
  exact perm_append_singleton row _

/-- A taken key loses its entry: the ledger does not grow. -/
theorem free_of_perm_fileSnapshot {row row' : IdentityMergeRow}
    (hperm : (db.fileSnapshot row).rows.Perm (row' :: db.conversationIdentityMerges.rows)) :
    ∀ r ∈ db.conversationIdentityMerges.rows, r.key ≠ row.key := by
  intro r hr hkey
  have hlength := hperm.length_eq
  rw [rows_fileSnapshot, length_append, length_singleton, length_cons,
    Nat.add_right_cancel_iff] at hlength
  have hall := length_filter_eq_length_iff.mp hlength r hr
  simp [hkey] at hall

/-! ### The call -/

namespace Folds

variable (h : Folds sha256 snapshotJson db accountId aci numberPeerKey now account shell canonical db')
include h

theorem spec : db'.store = db.store.foldPeer shell canonical (db.store.noticeOf sha256 accountId shell canonical now) ∧
    ∃ row : IdentityMergeRow, row.key = (accountId, numberPeerKey) ∧
      row.rollback = snapshotJson (db.store.shellSnapshot shell canonical aci
        (db.store.noticeOf sha256 accountId shell canonical now).isSome) ∧
      db'.conversationIdentityMerges = db.fileSnapshot row := by
  obtain ⟨outcome, hfolded⟩ := h.folded
  unfold Database.mergePeerIdentity at hfolded
  split at hfolded
  · cases hfolded
  rw [h.found] at hfolded
  dsimp only at hfolded
  rw [h.pair] at hfolded
  unfold Database.foldPeer at hfolded
  iterate 3 obtain ⟨_, -, hfolded⟩ := exists_of_bind_ok hfolded
  dsimp only at hfolded
  split at hfolded
  · cases hfolded
    exact ⟨rfl, _, rfl, rfl, rfl⟩
  · cases hfolded

/-- A second call that folds has found another spelling of the shell. -/
theorem again (hpeers : db.store.PeersUnique) {now' : ℕ} {outcome : PeerIdentityMergeOutcome} {db'' : Database}
    (hagain : db'.mergePeerIdentity sha256 snapshotJson accountId aci numberPeerKey now' = .ok (some outcome, db'')) :
    ∃ c ∈ db.store.conversations.rows, c.accountId = accountId ∧ c.kind = .direct ∧ c.peerKey ≠ shell.peerKey ∧
      c.peerKey ∈ phoneSpellings numberPeerKey := by
  obtain ⟨hstore, -⟩ := h.spec
  have hid : account.id = accountId := key_of_find? h.found
  obtain ⟨hshell, -, -, -⟩ := peerPair_spec h.pair
  obtain ⟨hshellAccount, hshellKind, -⟩ := peerPair_shell h.pair
  unfold Database.mergePeerIdentity at hagain
  split at hagain
  · cases hagain
  split at hagain
  · cases hagain
  next account' haccount' =>
  split at hagain
  · cases hagain
  next shell' canonical' hpair' =>
  obtain ⟨hshell', -, -, -⟩ := peerPair_spec hpair'
  obtain ⟨haccount, hkind, hspelling⟩ := peerPair_shell hpair'
  rw [hstore] at hshell'
  obtain ⟨c, hc, hother, hsame, hsameKind, hsameKey⟩ := Store.of_mem_conversations_foldPeer _ hshell'
  have haccountId : c.accountId = accountId := by
    rw [hsame, haccount, key_of_find? haccount']
  refine ⟨c, hc, haccountId, hsameKind.trans hkind, fun hkey => hother ?_, ?_⟩
  · exact hpeers c hc shell hshell (haccountId.trans (hid.symm.trans hshellAccount.symm))
      (hsameKind.trans (hkind.trans hshellKind.symm)) hkey
  · rw [hsameKey, phoneSpellings, mem_cons, Option.mem_toList]
    exact hspelling

end Folds

/-- **A fold conserves what it promises iff** it is safe. -/
theorem peer_fold_conserves_iff (hpeers : db.store.PeersUnique)
    (h : Folds sha256 snapshotJson db accountId aci numberPeerKey now account shell canonical db') :
    Conserved sha256 snapshotJson db accountId aci numberPeerKey account shell canonical db' ↔
      FoldSafe db accountId numberPeerKey account shell canonical := by
  obtain ⟨hstore, row, hkey, hrollback, hledger⟩ := h.spec
  obtain ⟨hshell, hcanonical, hne, -⟩ := peerPair_spec h.pair
  obtain ⟨hshellAccount, hshellKind, -⟩ := peerPair_shell h.pair
  have hid : account.id = accountId := key_of_find? h.found
  set notice := db.store.noticeOf sha256 accountId shell canonical now with hnotice
  set state := ((db.store.moveMessages shell.id canonical.id).moveEvents shell.id canonical.id).peerState shell
    canonical with hstate
  -- the canonical row of the new store
  have hrow : ∀ P : ConversationRow → Prop,
      (∀ c ∈ db'.store.conversations.rows, c.id = canonical.id → P c) ↔ P state := by
    intro P
    rw [hstore]
    have hself := (Store.canonical_foldPeer (c := state) notice hcanonical hne rfl).mpr rfl
    exact ⟨fun hall => hall state hself rfl,
      fun hP c hc hcid => (Store.canonical_foldPeer notice hcanonical hne hcid).mp hc ▸ hP⟩
  have hunread : state.unreadCount = (db.store.unionUnread shell canonical).length := by
    have hmoved := congrArg List.length (unreadRows_moved (s := db.store) hne (c := canonical) rfl rfl rfl)
    rw [length_map, length_map] at hmoved
    exact hmoved
  have hown : (∀ c ∈ db.store.conversations.rows, c.accountId = accountId → c.kind = .direct →
      c.peerKey ∈ phoneSpellings account.signalAccount → ∃ c' ∈ db'.store.conversations.rows, c'.id = c.id) ↔
        shell.peerKey ∉ phoneSpellings account.signalAccount := by
    rw [hstore]
    constructor
    · intro hall hmem
      exact (Store.exists_conversation_foldPeer notice hshell).mp
        (hall shell hshell (hshellAccount.trans hid) hshellKind hmem) rfl
    · intro hnot c hc _ _ hmem
      refine (Store.exists_conversation_foldPeer notice hc).mpr fun hsame => hnot ?_
      rwa [← db.store.conversations.row_unique hc hshell hsame]
  have hfile : (∃ (row' : IdentityMergeRow) (noticeMinted : Bool), row'.accountId = accountId ∧
      row'.rollback = snapshotJson (db.store.shellSnapshot shell canonical aci noticeMinted) ∧
      db'.conversationIdentityMerges.rows.Perm (row' :: db.conversationIdentityMerges.rows)) ↔
        ∀ r ∈ db.conversationIdentityMerges.rows, r.key ≠ (accountId, numberPeerKey) := by
    rw [hledger, ← hkey]
    exact ⟨fun ⟨_, _, _, _, hperm⟩ => free_of_perm_fileSnapshot hperm,
      fun hfree => ⟨row, _, (Prod.mk.inj hkey).1, hrollback, perm_fileSnapshot hfree⟩⟩
  constructor
  · intro hconserved
    exact ⟨hunread ▸ (hrow _).mp hconserved.unread, (timerOn_combine_min _ _).mp ((hrow _).mp hconserved.timer),
      hown.mp hconserved.own, hfile.mp hconserved.ledger⟩
  · intro hsafe
    refine ⟨fun m hm hin => ?_, fun e he hin => ?_, (hrow _).mpr (hunread ▸ hsafe.unread),
      (hrow _).mpr ((timerOn_combine_min _ _).mpr hsafe.timer), hown.mpr hsafe.own, hfile.mpr hsafe.ledger,
      fun now' outcome db'' hagain => h.again hpeers hagain⟩
    · rw [hstore]
      exact message_foldPeer notice hne hm hin
    · rw [hstore]
      exact event_foldPeer notice hne he hin

end Fold

/-! ### Two folds -/

/-- An account with a conversation under an ACI and one under a number, which holds a message from before the link.
-/
def twoConversations (number : String) (shellTimer canonicalTimer : Option ℤ) (shellUnread : ℕ)
    (ledger : Table IdentityMergeRow.key) : Database :=
  let shell : ConversationRow := { ConversationRow.ofPeer "shell" "a" .direct number "Bo" with
    expireTimerSeconds := shellTimer
    unreadCount := shellUnread }
  let canonical : ConversationRow := { ConversationRow.ofPeer "canonical" "a" .direct "aci" "Bo" with
    expireTimerSeconds := canonicalTimer }
  { Database.empty with
    store := { Store.empty with
      accounts := Table.empty.insertOrIgnore (AccountRow.ofAddress "a" "+1" "+1" "group")
      conversations := (Table.empty.insertOrIgnore shell).insertOrIgnore canonical
      messages := Table.empty.insertOrIgnore (MessageRow.ofText "m" "a" "shell" .incoming "+2" 500 "hi" .delivered) }
    conversationIdentityMerges := ledger }

/-- An unread message, a timer on one side, and a number that is a peer's. -/
theorem peer_fold_conserves_unread_shell :
    ∃ account shell canonical db', Folds id (fun _ => "") (twoConversations "+2" (some 60) none 1 .empty)
        "a" "aci" "+2" 1000 account shell canonical db' ∧
      Conserved id (fun _ => "") (twoConversations "+2" (some 60) none 1 .empty) "a" "aci" "+2" account shell
        canonical db' := by
  have hfolds : ∃ db', Folds id (fun _ => "")
      (twoConversations "+2" (some 60) none 1 .empty) "a" "aci" "+2" 1000 _ _ _ db' := ⟨_, rfl, rfl, _, rfl⟩
  obtain ⟨db', h⟩ := hfolds
  refine ⟨_, _, _, db', h, (peer_fold_conserves_iff (by decide) h).mpr ⟨?_, ?_, ?_, ?_⟩⟩
  · decide +kernel
  · rintro _ ⟨⟩
  · decide +kernel
  · nofun

/-- The account's own number in its other spelling: an old message turns unread, the timer is off, and the
conversation and the snapshot on file are gone. -/
theorem own_number_fold_conserves_nothing : ∃ account shell canonical db', Folds id (fun _ => "new")
        (twoConversations "+1" (some 60) (some 0) 0 (Table.empty.insertOrIgnore ⟨"a", "1", "aci", "old", 1⟩))
        "a" "aci" "1" 1000 account shell canonical db' ∧
      account.signalAccount = "+1" ∧ shell.peerKey = "+1" ∧ shell.unreadCount + canonical.unreadCount = 0 ∧
      (db'.store.conversations.rows.map fun c => (c.peerKey, c.unreadCount, c.expireTimerSeconds)) =
        [("aci", 1, some 0)] ∧ db'.conversationIdentityMerges.rows.map IdentityMergeRow.rollback = ["new"] ∧
      ¬ Conserved id (fun _ => "new")
        (twoConversations "+1" (some 60) (some 0) 0 (Table.empty.insertOrIgnore ⟨"a", "1", "aci", "old", 1⟩))
        "a" "aci" "1" account shell canonical db' := by
  refine ⟨_, _, _, _, ⟨rfl, rfl, _, rfl⟩, rfl, rfl, rfl, by decide, by decide, fun h => ?_⟩
  exact absurd (h.unread _ mem_cons_self rfl) (by decide)

end SignalConnector
