/-
# The store's operations as moves of the badges

`Store.counters` keeps of a store only its badges. Every operation is, seen
through it, one of the abstract moves: most leave the badges alone, a landed
message raises two numbers, a read takes them back, the deletes clamp the
conversations they touched and recount the accounts, and the two identity
folds merge a pair of conversations and recount nothing.
-/
import SignalConnector.Badges.Counters
import SignalConnector.Store.History
import SignalConnector.Store.IdentityFold
import SignalConnector.Store.Retention

namespace SignalConnector

open List Table

def ConversationRow.badge (c : ConversationRow) : Badge := ⟨c.id, c.accountId, c.unreadCount, c.unreadMentions⟩

theorem ConversationRow.badge_id (c : ConversationRow) : c.badge.id = c.id := rfl

def AccountRow.total (a : AccountRow) : Total := ⟨a.id, a.unreadCount⟩

namespace Store

variable {s s' : Store} {sha256 : String → String}

def counters (s : Store) : Counters where
  badges := s.conversations.view ConversationRow.badge ConversationRow.badge_id
  totals := s.accounts.view AccountRow.total fun _ => rfl

theorem counters_eq_of_rows {c : Counters}
    (hbadges : s.conversations.rows.map ConversationRow.badge = c.badges.rows)
    (htotals : s.accounts.rows.map AccountRow.total = c.totals.rows) : s.counters = c :=
  congrArg₂ Counters.mk (eq_of_rows hbadges) (eq_of_rows htotals)

variable {accountId : String} {row shell canonical c : ConversationRow}

theorem badge_mem (hc : c ∈ s.conversations.rows) : c.badge ∈ s.counters.badges.rows :=
  mem_map_of_mem hc

theorem find?_badges (s : Store) (id : String) :
    s.counters.badges.find? id = (s.conversations.find? id).map ConversationRow.badge :=
  find?_view (h := ConversationRow.badge_id) s.conversations id

theorem counters_updateConversations {p : ConversationRow → Bool} {f : ConversationRow → ConversationRow}
    {hf : ∀ c, (f c).id = c.id} (h : ∀ c ∈ s.conversations.rows, p c → (f c).badge = c.badge) :
    (s.updateConversations p f hf).counters = s.counters :=
  counters_eq_of_rows (view_rows_same h) rfl

/-! ### Accounts and conversations -/

theorem counters_upsertAccount {signalAccount proxyGroup id : String} {linkedAt : Option ℕ} {a : AccountRow}
    (h : s.upsertAccountFromSignalWithId signalAccount linkedAt proxyGroup id = .ok (a, s')) :
    s'.counters = s.counters ∨ (s.accounts.find? id = none ∧ s'.counters = s.counters.openAccount id) := by
  unfold upsertAccountFromSignalWithId at h
  dsimp only at h
  split at h
  · cases h
    exact .inl (counters_eq_of_rows rfl (view_rows_same fun _ _ _ => rfl))
  · split at h
    · cases h
    · next hfree =>
      cases h
      exact .inr ⟨by simpa using hfree, congrArg₂ Counters.mk rfl (view_insertOrIgnore _ _)⟩

theorem counters_setAccountAci (s : Store) (accountId : String) (aci : Option String) :
    (s.setAccountAci accountId aci).counters = s.counters := by
  unfold setAccountAci
  split
  · rfl
  · exact counters_eq_of_rows rfl (view_rows_same fun _ _ _ => rfl)

theorem counters_setConversationTitle (s : Store) (conversationId title : String) :
    (s.setConversationTitle conversationId title).counters = s.counters := by
  unfold setConversationTitle
  dsimp only
  split
  · rfl
  · exact counters_updateConversations fun _ _ _ => rfl

theorem counters_raiseWatermark (s : Store) (accountId conversationId : String) (sentAt : ℤ) :
    (s.raiseWatermark accountId conversationId sentAt).counters = s.counters :=
  counters_updateConversations fun _ _ _ => rfl

theorem insertConversation_ok (h : s.insertConversation row = .ok s') :
    s.conversations.find? row.id = none ∧ (s.accounts.find? row.accountId).isSome ∧
      s' = { s with conversations := s.conversations.insertOrIgnore row } := by
  unfold insertConversation at h
  split at h
  · cases h
  · next hfree =>
    simp only [not_or, Bool.not_eq_true, Option.isSome_eq_false_iff, Option.isNone_iff_eq_none] at hfree
    cases h
    exact ⟨hfree.1, by simpa [Option.isSome_iff_ne_none] using hfree.2.2, rfl⟩

theorem counters_ensureConversation {peerKey title : String} {kind : ConversationKind}
    {row : ConversationRow} (h : s.ensureConversation sha256 accountId kind peerKey title = .ok (row, s')) :
    s'.counters = s.counters ∨
      ((s.accounts.find? accountId).isSome ∧ s'.counters = s.counters.openConversation row.id accountId) := by
  unfold ensureConversation at h
  dsimp only at h
  split at h
  · split at h
    · cases h
      exact .inl (counters_setConversationTitle _ _ _)
    · cases h
      exact .inl rfl
  · obtain ⟨t, ht, hrow⟩ := exists_of_map_ok h
    obtain ⟨-, hhome, rfl⟩ := insertConversation_ok ht
    cases hrow
    exact .inr ⟨hhome, congrArg₂ Counters.mk (view_insertOrIgnore _ _) rfl⟩

/-! ### Landing and reading -/

theorem counters_mergeAttachmentFacesIn (s : Store) (accountId messageId : String)
    (incoming : List NormalizedAttachment) :
    (s.mergeAttachmentFacesIn accountId messageId incoming).2.counters = s.counters := by
  unfold mergeAttachmentFacesIn
  split
  · rfl
  split
  · rfl
  split
  · dsimp only
    split <;> rfl
  · rfl

theorem counters_insertMessage {message : MessageRecord} {clientRequestId preview : Option String}
    {incrementUnread landed : Bool} {storedAt : ℕ}
    (h : s.insertMessage message clientRequestId preview incrementUnread storedAt = .ok (landed, s')) :
    s'.counters = s.counters ∨ ((s.conversations.find? message.conversationId).isSome ∧
      s'.counters = s.counters.land message.accountId message.conversationId
        (if incrementUnread then 1 else 0) (if incrementUnread && message.mentionsSelf then 1 else 0)) := by
  unfold insertMessage at h
  dsimp only at h
  split at h
  · cases h
    exact .inl (counters_mergeAttachmentFacesIn _ _ _ _)
  · split at h
    · next hthere =>
      cases h
      exact .inr ⟨hthere.2, counters_eq_of_rows (view_rows_update (fun _ _ => rfl) fun _ _ _ => rfl)
        (view_rows_update (fun _ _ => rfl) fun _ _ _ => rfl)⟩
    · cases h

theorem counters_clearConversationUnread {conversationId : String} {n : ℕ}
    (h : s.clearConversationUnread accountId conversationId = .ok (n, s')) :
    s' = s ∨ ∃ c ∈ s.conversations.rows, c.id = conversationId ∧ c.accountId = accountId ∧
      s'.counters = s.counters.read accountId conversationId c.unreadCount := by
  unfold clearConversationUnread at h
  dsimp only at h
  split at h
  · cases h
    exact .inl rfl
  next hprev =>
  split at h
  · cases h
  cases h
  cases hfind : s.conversations.rows.find? fun c => decide (c.id = conversationId ∧ c.accountId = accountId) with
  | none => exact absurd (by rw [hfind]; rfl) hprev
  | some c =>
    have hnamed := find?_some hfind
    rw [decide_eq_true_eq] at hnamed
    obtain ⟨hid, haccount⟩ := hnamed
    refine .inr ⟨c, mem_of_find?_eq_some hfind, hid, haccount, ?_⟩
    exact counters_eq_of_rows (view_rows_update (fun _ _ => rfl) fun _ _ _ => rfl)
      (view_rows_update (fun _ _ => rfl) fun _ _ _ => rfl)

/-! ### Deletes -/

theorem counters_recountAccounts (s : Store) : s.recountAccounts.counters = s.counters.recount := by
  refine counters_eq_of_rows rfl (view_rows_update (fun _ _ => rfl) fun a _ _ => ?_)
  change Total.mk a.id _ = Total.mk a.id _
  congr 1
  exact (tally_view Badge.accountId Badge.unread ConversationRow.badge s.conversations.rows a.id).symm

/-- The incoming rows of a conversation that a delete leaves. -/
def incomingKept (s : Store) (gone : MessageRow → Bool) (conversationId : String) : ℕ :=
  s.messages.rows.countP fun m =>
    decide (m.conversationId = conversationId ∧ m.direction = .incoming) && !gone m

/-- What the touched conversations still hold after a delete. -/
def heldAfter (s : Store) (gone : MessageRow → Bool) (touched : List String) (id : String) : Option ℕ :=
  if touched.contains id then some (s.incomingKept gone id) else none

theorem incomingCount_deleteMessages (s : Store) (gone : MessageRow → Bool) (conversationId : String) :
    (s.deleteMessages gone).incomingCount conversationId = s.incomingKept gone conversationId :=
  countP_filter

theorem counters_repair {t : Store} {gone : MessageRow → Bool}
    (hcount : ∀ id, t.incomingCount id = s.incomingKept gone id) (touched : List String) :
    (touched.foldl repairSummary t).recountAccounts.counters =
      (t.counters.clamp (s.heldAfter gone touched)).recount := by
  rw [counters_recountAccounts]
  rw [foldl_repairSummary]
  refine congrArg Counters.recount (counters_eq_of_rows ?_ rfl)
  refine view_rows_update (fun c _ => ?_) fun c _ hc => ?_
  · unfold heldAfter ConversationRow.badge
    dsimp only
    split
    · next h => exact h
    · next h => simpa using h
  · unfold heldAfter ConversationRow.badge repairedRow
    dsimp only
    rw [if_pos hc, hcount]
    rfl

theorem counters_pruneHistory (s : Store) (nowMs maxMessages : ℕ) :
    let gone := s.prunedRows nowMs maxMessages
    (touchedConversations gone = [] ∧ (s.pruneHistory nowMs maxMessages).2 = s) ∨
      (s.pruneHistory nowMs maxMessages).2.counters =
        (s.counters.clamp (s.heldAfter (named gone) (touchedConversations gone))).recount := by
  dsimp only
  unfold pruneHistory
  dsimp only
  split
  · next hnone => exact .inl ⟨List.isEmpty_iff.mp hnone, rfl⟩
  · exact .inr (counters_repair (incomingCount_deleteMessages s _) _)

theorem counters_sweepExpiredMessages (s : Store) (nowMs cap : ℕ) :
    let burning := s.burningRows (asI64 nowMs) cap
    let gone := s.lapsedRows (asI64 nowMs) (cap - burning.length)
    (s.sweepExpiredMessages nowMs cap).2.counters =
      (s.counters.clamp (s.heldAfter (named gone) (touchedConversations (burning ++ gone)))).recount := by
  dsimp only
  unfold sweepExpiredMessages
  dsimp only
  rw [lapsedRows_burnt]
  refine counters_repair (fun id => ?_) _
  unfold deleteRows
  rw [incomingCount_deleteMessages]
  unfold incomingKept
  rw [rows_updateMessages, countP_map]
  refine countP_congr fun m _ => ?_
  simp only [Function.comp_apply]
  split <;> rfl

theorem counters_deleteConversation {conversationId : String} {boundAt : Option ℕ} {dropRow : Bool}
    {r : Option ℕ} (hthere : s.conversations.rows.any fun c => c.id = conversationId ∧ c.accountId = accountId)
    (h : s.deleteConversation accountId conversationId boundAt dropRow = .ok (r, s')) :
    (dropRow = false ∧ s'.counters = (s.counters.clamp
        (s.heldAfter (clearedBy accountId conversationId boundAt) [conversationId])).recount) ∨
      (dropRow = true ∧ s'.counters = (s.counters.drop accountId conversationId).recount) := by
  unfold deleteConversation at h
  rw [if_pos hthere] at h
  dsimp only at h
  split at h
  · next hdrop =>
    obtain ⟨t, ht, heq⟩ := exists_of_map_ok h
    cases heq
    unfold dropConversation at ht
    dsimp only at ht
    split at ht
    · cases ht
    cases ht
    refine .inr ⟨hdrop, ?_⟩
    rw [counters_recountAccounts]
    exact congrArg Counters.recount (counters_eq_of_rows (view_rows_delete fun _ _ => rfl) rfl)
  · next hdrop =>
    cases h
    exact .inl ⟨Bool.eq_false_iff.mpr hdrop,
      counters_repair (incomingCount_deleteMessages s _) [conversationId]⟩

/-! ### Imports -/

theorem counters_importRow {storedAt : ℕ} {acc acc' : HistoryBatchOutcome × Store} {row : HistoryImportInsert}
    (h : importRow storedAt acc row = .ok acc') : acc'.2.counters = acc.2.counters := by
  unfold importRow at h
  dsimp only at h
  split at h
  · cases h
    unfold refillAttachments
    dsimp only
    split <;> rfl
  · split at h
    · cases h
      rfl
    · split at h
      · cases h
        exact counters_updateConversations fun _ _ _ => rfl
      · cases h

theorem counters_insertHistoryBatch {rows : List HistoryImportInsert} {storedAt : ℕ}
    {outcome : HistoryBatchOutcome} (h : s.insertHistoryBatch rows storedAt = .ok (outcome, s')) :
    s'.counters = s.counters := by
  unfold insertHistoryBatch at h
  split at h
  · cases h
    rfl
  · obtain ⟨acc, hacc, h⟩ := exists_of_bind_ok h
    have hkeep := foldlM_preserves (fun acc => acc.2.counters = s.counters)
      (fun acc row acc' hs hstep => (counters_importRow hstep).trans hs) _ _ _ rfl hacc
    cases h
    rw [← hkeep]
    exact counters_eq_of_rows rfl (view_rows_same fun _ _ _ => rfl)

/-! ### Identity folds -/

theorem counters_fold (s : Store) (shellId canonicalId : String) {f : ConversationRow → ConversationRow}
    (hf : ∀ c, (f c).id = c.id) {unread mentions : ℕ} (hbadge : ∀ c ∈ s.conversations.rows, c.id = canonicalId →
      (f c).badge = ⟨c.id, c.accountId, unread, mentions⟩) :
    ((s.updateConversations (fun c => c.id = canonicalId) f hf).deleteShell shellId).counters =
      s.counters.fold shellId canonicalId unread mentions := by
  have hdelete : ∀ rows : List ConversationRow,
      (rows.filter fun c => !decide (c.id = shellId)).map ConversationRow.badge =
        (rows.map ConversationRow.badge).filter fun b => !decide (b.id = shellId) :=
    fun rows => view_rows_delete fun _ _ => rfl
  refine counters_eq_of_rows ((hdelete _).trans ?_) rfl
  exact congrArg (List.filter _) (view_rows_update (fun _ _ => rfl) fun c hc hid =>
    hbadge c hc (of_decide_eq_true hid))

theorem counters_foldMemo (hcanonical : canonical ∈ s.conversations.rows) :
    (s.foldMemo shell canonical).counters = s.counters.fold shell.id canonical.id
      (max canonical.unreadCount shell.unreadCount) (max canonical.unreadMentions shell.unreadMentions) := by
  have hfold : ∀ t : Store, t.counters = s.counters →
      (((t.moveMessages shell.id canonical.id).moveEvents shell.id canonical.id).updateConversations
        (fun c => c.id = canonical.id) (memoState shell) (id_memoState shell) |>.deleteShell shell.id).counters =
      s.counters.fold shell.id canonical.id (max canonical.unreadCount shell.unreadCount)
        (max canonical.unreadMentions shell.unreadMentions) := by
    intro t ht
    rw [← ht]
    refine counters_fold ((t.moveMessages shell.id canonical.id).moveEvents shell.id canonical.id) shell.id
      canonical.id _ fun c hc hid => ?_
    have hmem : c.badge ∈ t.counters.badges.rows := badge_mem (s := t) hc
    rw [ht] at hmem
    have hsame : c.badge = canonical.badge := s.counters.badges.row_unique hmem (badge_mem hcanonical) hid
    obtain ⟨-, -, hunread, hmentions⟩ := Badge.mk.inj hsame
    simp [ConversationRow.badge, memoState, hunread, hmentions]
  unfold foldMemo
  dsimp only
  split
  · exact hfold _ (counters_eq_of_rows (view_rows_same fun _ _ _ => rfl) rfl)
  · exact hfold s rfl

/-- The unread rows of both past the canonical watermark: the canonical one's, and the shell's it does not hold yet. -/
def unionUnread (s : Store) (shell canonical : ConversationRow) : List MessageRow :=
  s.messages.rows.filter fun m =>
    (m.conversationId = canonical.id || (m.conversationId = shell.id && s.unmatched canonical.id m)) &&
      decide (m.accountId = canonical.accountId ∧ m.direction = .incoming ∧
        canonical.readWatermarkMs.getD 0 < m.sentAt)

theorem unreadRows_moved (hne : shell.id ≠ canonical.id)
    (hid : c.id = canonical.id) (haccount : c.accountId = canonical.accountId)
    (hmark : c.readWatermarkMs = canonical.readWatermarkMs) :
    ((s.moveMessages shell.id canonical.id).unreadRows c).map MessageRow.mentionsSelf =
      (s.unionUnread shell canonical).map MessageRow.mentionsSelf := by
  set move : MessageRow → MessageRow := fun m =>
    if m.conversationId = shell.id && s.unmatched canonical.id m then { m with conversationId := canonical.id }
    else m with hmove
  have hrows : (s.moveMessages shell.id canonical.id).messages.rows =
      (s.messages.rows.map move).filter fun m => !decide (m.conversationId = shell.id) := rfl
  unfold unreadRows unionUnread
  rw [hrows, filter_filter, filter_map, map_map, hid, haccount, hmark]
  refine (congrArg (List.map _) (filter_congr fun m _ => ?_)).trans (map_congr_left fun m _ => ?_)
  · simp only [Function.comp_apply, hmove]
    by_cases hmoves : (decide (m.conversationId = shell.id) && s.unmatched canonical.id m) = true
    · simp [hmoves, hne.symm]
    · simp only [hmoves, if_false, Bool.false_eq_true]
      by_cases hshell : m.conversationId = shell.id
      · simp [hshell, hne]
      · simp [hshell]
  · simp only [Function.comp_apply, hmove]
    split <;> rfl

theorem counters_foldPeer (hcanonical : canonical ∈ s.conversations.rows)
    (hne : shell.id ≠ canonical.id) (notice : Option MessageRow) :
    (s.foldPeer shell canonical notice).counters = s.counters.fold shell.id canonical.id
      (s.unionUnread shell canonical).length ((s.unionUnread shell canonical).countP MessageRow.mentionsSelf) := by
  have hcounters : (s.foldPeer shell canonical notice).counters =
      (s.foldPeer shell canonical none).counters := by
    cases notice <;> rfl
  rw [hcounters]
  refine counters_fold _ shell.id canonical.id _ fun c hc hid => ?_
  cases s.conversations.row_unique hc hcanonical hid
  have hmoved := unreadRows_moved (s := s) hne (c := canonical) rfl rfl rfl
  have hlength := congrArg List.length hmoved
  have hcount := congrArg (List.countP id) hmoved
  rw [length_map, length_map] at hlength
  rw [countP_map, countP_map] at hcount
  exact congrArg₂ (Badge.mk canonical.id canonical.accountId) hlength hcount

end Store

end SignalConnector
