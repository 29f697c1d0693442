/-
# What the writers do to one row

Each operation of the store that can write a message row, seen from one row:
when it leaves the row and its prior bodies alone (`Store.Untouched`), and,
for those that do not look at the status before they write, what the row shows
once they have written.
-/
import SignalConnector.Erasure.Faces
import SignalConnector.Lib.Run
import SignalConnector.Receipts.Ladder
import SignalConnector.Store.Edits
import SignalConnector.Store.History

namespace SignalConnector

open List Table

/-- A list of attachments that a merge writes: it is not empty and every descriptor has an id. -/
def Fills (incoming : List NormalizedAttachment) : Prop :=
  incoming ≠ [] ∧ ∀ a ∈ incoming, a.info.id ≠ ""
  deriving Decidable

theorem fills_iff {incoming : List NormalizedAttachment} :
    Fills incoming ↔ ¬(incoming.isEmpty = true ∨ incoming.any (fun a => a.info.id = "") = true) := by
  simp [Fills]

namespace Store

variable {s s₁ s' : Store} {id : String} {storedAt : ℕ}

/-- The row of this id is as it was, and no prior body was filed for it. -/
def Untouched (id : String) (s s' : Store) : Prop :=
  s'.messages.find? id = s.messages.find? id ∧
    ∀ e ∈ s'.messageEdits.rows, e.messageId = id → e ∈ s.messageEdits.rows

theorem Untouched.refl (id : String) (s : Store) : Untouched id s s := ⟨rfl, fun _ he _ => he⟩

theorem Untouched.trans (h : Untouched id s s₁) (h' : Untouched id s₁ s') : Untouched id s s' :=
  ⟨h'.1.trans h.1, fun e he hid => h.2 e (h'.2 e he hid) hid⟩

/-- Writes to other tables do not touch the row. -/
theorem Untouched.of_tables (hmessages : s'.messages = s.messages) (hedits : s'.messageEdits = s.messageEdits) :
    Untouched id s s' :=
  ⟨by rw [hmessages], fun e he _ => hedits ▸ he⟩

variable {p : MessageRow → Bool} {message : MessageRecord} {accountId : String} {storedAt : ℕ}
  {row : HistoryImportInsert}

/-- An `UPDATE` that passes over the row does not touch it. -/
theorem untouched_updateMessages {f : MessageRow → MessageRow}
    {hf : ∀ m, (f m).id = m.id} (h : ∀ x, s.messages.find? id = some x → p x = false) :
    Untouched id s (s.updateMessages p f hf) := by
  refine ⟨(find?_updateMessages s p f hf id).trans ?_, fun e he _ => he⟩
  cases hfind : s.messages.find? id with
  | none => rfl
  | some x => simp [h x hfind]

theorem untouched_insertOrIgnore {row : MessageRow} (hrow : row.id ≠ id) :
    Untouched id s { s with messages := s.messages.insertOrIgnore row } := by
  refine ⟨?_, fun e he _ => he⟩
  rw [find?_insertOrIgnore, if_neg hrow]

/-! ### Attachment merges -/

variable {index : ℕ} {messageId : String} {incoming : List NormalizedAttachment} {x : MessageRow}

theorem untouched_mergeAttachmentFacesIn
    (h : ∀ x, s.messages.find? id = some x → ¬(accountId = x.accountId ∧ messageId = id ∧ Fills incoming)) :
    Untouched id s (s.mergeAttachmentFacesIn accountId messageId incoming).2 := by
  unfold mergeAttachmentFacesIn
  split
  · exact .refl id s
  next hfills =>
  split
  · exact .refl id s
  split
  swap
  · exact .refl id s
  dsimp only
  split
  swap
  · exact .refl id s
  refine untouched_updateMessages fun x hx => decide_eq_false ?_
  rintro ⟨hacc, hid⟩
  exact h x hx ⟨hacc.symm, hid.symm.trans (key_of_find? hx), fills_iff.mpr hfills⟩

theorem fillDescriptor_ne_nil (index : ℕ) (candidate : AttachmentInfo) (acc : List AttachmentInfo × Bool) :
    (fillDescriptor index candidate acc).1 ≠ [] := by
  unfold fillDescriptor
  split
  · simp
  next hlength =>
    have hne : acc.1 ≠ [] := fun h => hlength (by simp [h])
    split
    · simpa [set_eq_nil_iff] using hne
    · exact hne

theorem fillDescriptor_changed {candidate : AttachmentInfo} {acc : List AttachmentInfo × Bool}
    (h : acc.1 = [] ∨ acc.2 = true) : (fillDescriptor index candidate acc).2 = true := by
  unfold fillDescriptor
  split
  · rfl
  next hlength =>
    split
    · rfl
    · exact h.resolve_left fun hnil => hlength (by simp [hnil])

theorem fillFace_changed {locator : Option AttachmentLocator} {acc : List AttachmentLocator × Bool}
    (h : acc.2 = true) : (fillFace index locator acc).2 = true := by
  unfold fillFace
  split
  · exact h
  dsimp only
  split
  all_goals
    split
    · rfl
    · first | rfl | exact h

/-- A merge with anything to merge ends with descriptors and a change. -/
theorem merge_shows (l : List (NormalizedAttachment × ℕ)) (hl : l ≠ [])
    (acc : List AttachmentInfo × List AttachmentLocator × Bool) (h : acc.1 = [] ∨ acc.2.2 = true) :
    (l.foldl mergeSlot acc).1 ≠ [] ∧ (l.foldl mergeSlot acc).2.2 = true := by
  induction l generalizing acc with
  | nil => exact absurd rfl hl
  | cons entry l ih =>
    have hchanged : (mergeSlot acc entry).2.2 = true := fillFace_changed (fillDescriptor_changed h)
    rw [foldl_cons]
    cases l with
    | nil => exact ⟨fillDescriptor_ne_nil _ _ _, hchanged⟩
    | cons => exact ih (by simp) _ (.inr hchanged)

theorem attachments_mergeAttachmentFacesIn (hx : s.messages.find? id = some x) (hacc : x.accountId = accountId)
    (hattachments : x.attachments = none) (hlive : x.liveAttachmentLocators = none) (h : Fills incoming) :
    ∃ y, (s.mergeAttachmentFacesIn accountId id incoming).2.messages.find? id = some y ∧
      (messageRecordFromRow y).attachments ≠ [] := by
  have hid := key_of_find? hx
  have hrow : s.messages.rows.find? (fun m => m.accountId = accountId ∧ m.id = id) = some x :=
    find?_rows_of_key hx (decide_eq_true ⟨hacc, hid⟩) fun m hm => (of_decide_eq_true hm).2
  obtain ⟨hne, hchanged⟩ := merge_shows incoming.zipIdx (by simpa using h.1) ([], [], false) (.inl rfl)
  unfold mergeAttachmentFacesIn
  rw [if_neg (fills_iff.mp h), hrow]
  simp only [hattachments, hlive, listCell]
  rw [if_pos hchanged]
  refine ⟨_, (find?_updateMessages s _ _ _ id).trans (by rw [hx]; rfl), ?_⟩
  simp [hacc, hid, messageRecordFromRow, toListCell, hne, JsonCell.ok]

/-! ### Inserts -/

/-- A row that is there is not inserted again; at most its attachments are merged. -/
theorem untouched_insertMessage {clientRequestId preview : Option String}
    {incrementUnread landed : Bool}
    (h : s.insertMessage message clientRequestId preview incrementUnread storedAt = .ok (landed, s'))
    (hthere : (s.messages.find? id).isSome) (hspare : ∀ x, s.messages.find? id = some x →
      ¬(message.accountId = x.accountId ∧ message.id = id ∧ Fills message.attachments)) : Untouched id s s' := by
  unfold insertMessage at h
  dsimp only at h
  split at h
  · cases h
    exact untouched_mergeAttachmentFacesIn hspare
  next hfree =>
  split at h
  · cases h
    refine (untouched_insertOrIgnore fun hid => hfree ?_).trans (.of_tables rfl rfl)
    exact Bool.or_eq_true_iff.mpr (.inl (hid ▸ hthere))
  · cases h

theorem insertMessage_duplicate {clientRequestId preview : Option String}
    {incrementUnread : Bool} (hthere : (s.messages.find? message.id).isSome) :
    s.insertMessage message clientRequestId preview incrementUnread storedAt =
      .ok (false, (s.mergeAttachmentFacesIn message.accountId message.id message.attachments).2) := by
  have hignored : s.insertIgnored (.ofRecord message clientRequestId storedAt) = true :=
    Bool.or_eq_true_iff.mpr (.inl hthere)
  unfold insertMessage
  rw [if_pos hignored]

/-! ### History batches -/

/-- The archive's copy of the row brings attachments. -/
def Refills (id : String) (s : Store) (row : HistoryImportInsert) : Prop :=
  row.record.attachments ≠ [] ∧ (s.historyTwin row).map MessageRow.id = some id
  deriving Decidable

/-- The store after a row of a batch that goes through. -/
def importStep (storedAt : ℕ) (s : Store) (row : HistoryImportInsert) : Store :=
  match s.historyTwin row with
  | some existing => s.refillAttachments existing row
  | none =>
    let fresh := MessageRow.ofHistory row storedAt
    if s.insertIgnored fresh then s
    else advanceEnding { s with messages := s.messages.insertOrIgnore fresh } row

theorem importRow_ok {acc acc' : HistoryBatchOutcome × Store} {row : HistoryImportInsert}
    (h : importRow storedAt acc row = .ok acc') : acc'.2 = importStep storedAt acc.2 row := by
  obtain ⟨outcome, s⟩ := acc
  unfold importRow at h
  unfold importStep
  cases htwin : s.historyTwin row with
  | some =>
    simp only [htwin] at h ⊢
    cases h
    rfl
  | none =>
    simp only [htwin] at h ⊢
    split at h
    · next hignored =>
      cases h
      rw [if_pos hignored]
    next hignored =>
    split at h
    · cases h
      rw [if_neg hignored]
    · cases h

theorem insertHistoryBatch_ok {rows : List HistoryImportInsert} {outcome : HistoryBatchOutcome}
    (h : s.insertHistoryBatch rows storedAt = .ok (outcome, s')) :
    Untouched id (rows.foldl (importStep storedAt) s) s' := by
  unfold insertHistoryBatch at h
  split at h
  · cases h
    exact .refl id _
  next first rest =>
    obtain ⟨⟨outcome', s₁⟩, hfold, h⟩ := exists_of_bind_ok h
    cases h
    have hrows : s₁ = _ := foldlM_project Prod.snd (importStep storedAt) (fun _ _ _ hstep => importRow_ok hstep)
      _ _ _ hfold
    rw [hrows]
    exact .of_tables rfl rfl

theorem historyTwin_eq_some {existing : MessageRow}
    (h : s.historyTwin row = some existing) : existing ∈ s.messages.rows := by
  have hmem := mem_of_head? h
  rw [mem_insertionSort] at hmem
  exact (mem_filter.mp hmem).1

theorem untouched_importStep
    (hthere : (s.messages.find? id).isSome) (h : ¬Refills id s row) : Untouched id s (importStep storedAt s row) := by
  unfold importStep
  split
  · next existing htwin =>
    unfold refillAttachments
    split
    · next hdue =>
      refine untouched_updateMessages fun x hx => decide_eq_false fun heq => h ⟨?_, ?_⟩
      · simpa using (Bool.and_eq_true_iff.mp hdue).1
      · rw [htwin, Option.map_some, ← heq, key_of_find? hx]
    · exact .refl id s
  · dsimp only
    split
    · exact .refl id s
    next hfree =>
      refine (untouched_insertOrIgnore fun hid => hfree ?_).trans (.of_tables rfl rfl)
      exact Bool.or_eq_true_iff.mpr (.inl (hid ▸ hthere))

theorem find?_importStep_of_refills (hx : s.messages.find? id = some x) (h : Refills id s row) :
    (importStep storedAt s row).messages.find? id = some (if attachmentsJsonIsEmpty x.attachments then
        { x with
          attachments := some (.parsed (row.record.attachments.map NormalizedAttachment.info))
          attachmentLocators := toListCell row.locators }
      else x) := by
  obtain ⟨hne, htwin⟩ := h
  obtain ⟨existing, htwin, hid⟩ := Option.map_eq_some_iff.mp htwin
  obtain ⟨hxmem, hxid⟩ := Table.find?_eq_some.mp hx
  obtain rfl : existing = x := s.messages.row_unique (historyTwin_eq_some htwin) hxmem (hid.trans hxid.symm)
  have hsome : row.record.attachments.isEmpty = false := by simpa using hne
  unfold importStep refillAttachments
  simp only [htwin, hsome, Bool.not_false, Bool.true_and]
  split
  · refine (find?_updateMessages s _ _ _ id).trans ?_
    rw [hx]
    simp
  · exact hx

theorem attachmentsJsonIsEmpty_of_shown (h : (messageRecordFromRow x).attachments ≠ []) :
    attachmentsJsonIsEmpty x.attachments = false := by
  unfold attachmentsJsonIsEmpty
  cases hcell : x.attachments with
  | none => simp [messageRecordFromRow, hcell] at h
  | some cell =>
    cases cell with
    | malformed => rfl
    | parsed => simpa [messageRecordFromRow, hcell, JsonCell.ok] using h

/-- Descriptors that are there stay. -/
theorem attachments_importStep (s : Store) (row : HistoryImportInsert)
    (h : ∃ x, s.messages.find? id = some x ∧ (messageRecordFromRow x).attachments ≠ []) :
    ∃ x, (importStep storedAt s row).messages.find? id = some x ∧ (messageRecordFromRow x).attachments ≠ [] := by
  obtain ⟨x, hx, hshown⟩ := h
  refine ⟨x, ?_, hshown⟩
  by_cases hrefill : Refills id s row
  · rw [find?_importStep_of_refills hx hrefill, attachmentsJsonIsEmpty_of_shown hshown]
    rfl
  · exact (untouched_importStep (by simp [hx]) hrefill).1.trans hx

/-- A batch without a refill of the row does not touch it. -/
theorem untouched_importSteps :
    ∀ (rows : List HistoryImportInsert) (s : Store), (s.messages.find? id).isSome →
      Along (importStep storedAt) (fun s row => ¬Refills id s row) s rows →
      Untouched id s (rows.foldl (importStep storedAt) s)
  | [], s, _, _ => .refl id s
  | row :: rows, s, hthere, h => by
    have hstep : Untouched id s (importStep storedAt s row) := untouched_importStep hthere h.1
    exact hstep.trans (untouched_importSteps rows _ (hstep.1 ▸ hthere) h.2)

/-- A batch with a refill of a row without descriptors shows attachments on it. -/
theorem attachments_importSteps :
    ∀ (rows : List HistoryImportInsert) (s : Store) (x : MessageRow), s.messages.find? id = some x →
      x.attachments = none → ¬Along (importStep storedAt) (fun s row => ¬Refills id s row) s rows →
      ∃ y, (rows.foldl (importStep storedAt) s).messages.find? id = some y ∧
        (messageRecordFromRow y).attachments ≠ []
  | [], _, _, _, _, h => absurd trivial h
  | row :: rows, s, x, hx, hnone, h => by
    by_cases hrefill : Refills id s row
    · refine foldl_invariant _ attachments_importStep rows _
        ⟨_, find?_importStep_of_refills hx hrefill, ?_⟩
      simpa [hnone, attachmentsJsonIsEmpty, messageRecordFromRow, JsonCell.ok] using hrefill.1
    · have hstep : Untouched id s (importStep storedAt s row) :=
        untouched_importStep (by simp [hx]) hrefill
      exact attachments_importSteps rows _ x (hstep.1.trans hx) hnone fun hrest => h ⟨hrefill, hrest⟩

/-! ### Edits, votes and erasures -/

theorem untouched_snapshotOf {prior : Option MessageRow} {now : ℕ}
    (h : s.snapshotOf accountId prior now = .ok s') (hprior : ∀ row, prior = some row → row.id ≠ id) :
    Untouched id s s' := by
  unfold snapshotOf at h
  split at h
  · cases h
    exact .refl id s
  next row =>
    obtain ⟨hmessages, hedits⟩ := snapshotPriorBody_spec h
    refine ⟨by rw [hmessages], fun e he hid => (hedits e he).resolve_right fun hrow => ?_⟩
    exact hprior row rfl (hrow.symm.trans hid)

/-- A prior row that a live row's edit reads is not a row the edit passes over. -/
theorem firstRow_id_ne {row : MessageRow}
    (h : ∀ x, s.messages.find? id = some x → p x = false) (hrow : s.firstRow p = some row) : row.id ≠ id := by
  intro hid
  obtain ⟨hmem, hp⟩ := firstRow_eq_some hrow
  rw [h row (Table.find?_eq_some.mpr ⟨hmem, hid⟩)] at hp
  cases hp

variable {accountId conversationId senderId legacySenderId newText : String} {targetSentAt newTextBytes now : ℕ}

variable {messageId : String} {sentAt : ℕ} {status : MessageStatus} {record : Option MessageRecord} {x : MessageRow}

theorem untouched_applyInboundEdit
    (h : s.applyInboundEdit accountId conversationId targetSentAt senderId legacySenderId newText newTextBytes
      now = .ok (record, s'))
    (hdead : ∀ x, s.messages.find? id = some x → x.isLive = false) : Untouched id s s' := by
  unfold applyInboundEdit at h
  dsimp only at h
  split at h
  swap
  · cases h
    exact .refl id s
  obtain ⟨s₁, hsnapshot, h⟩ := exists_of_bind_ok h
  cases h
  refine (untouched_updateMessages fun x hx => ?_).trans (untouched_snapshotOf hsnapshot fun row hrow =>
    firstRow_id_ne (fun x hx => ?_) hrow)
  all_goals simp [hdead x hx]

/-- The mirror of another device's edit passes over a row that is not live. -/
theorem untouched_applyOutgoingEditBySignal
    (h : s.applyOutgoingEditBySignal accountId conversationId targetSentAt newText newTextBytes now =
      .ok (record, s')) (hdead : ∀ x, s.messages.find? id = some x → x.isLive = false) : Untouched id s s' := by
  obtain ⟨s₁, hsnapshot, h⟩ := exists_of_bind_ok h
  cases h
  refine (untouched_updateMessages fun x hx => ?_).trans (untouched_snapshotOf hsnapshot fun row hrow =>
    firstRow_id_ne (fun x hx => ?_) hrow)
  all_goals simp [hdead x hx]

theorem find?_snapshotOf {prior : Option MessageRow}
    (h : s.snapshotOf accountId prior now = .ok s') : s'.messages = s.messages := by
  unfold snapshotOf at h
  split at h
  · cases h
    rfl
  · exact (snapshotPriorBody_spec h).1

/-- The host's own edit writes one row. -/
theorem untouched_applyOutgoingEdit
    (h : s.applyOutgoingEdit messageId accountId newText newTextBytes now = .ok (record, s'))
    (hother : ∀ x, s.messages.find? id = some x →
      ¬(messageId = id ∧ accountId = x.accountId ∧ x.direction = .outgoing)) : Untouched id s s' := by
  obtain ⟨s₁, hsnapshot, h⟩ := exists_of_bind_ok h
  cases h
  have hpass : ∀ x, s.messages.find? id = some x →
      decide (x.id = messageId ∧ x.accountId = accountId ∧ x.direction = .outgoing) = false :=
    fun x hx => decide_eq_false fun ⟨hid, hacc, hdir⟩ =>
      hother x hx ⟨hid.symm.trans (key_of_find? hx), hacc.symm, hdir⟩
  refine (untouched_updateMessages hpass).trans (untouched_snapshotOf hsnapshot fun row hrow hid => ?_)
  have hdue := find?_some hrow
  rw [hpass row (Table.find?_eq_some.mpr ⟨mem_of_find?_eq_some hrow, hid⟩)] at hdue
  cases hdue

/-- The host's own edit puts its text on the row, whatever the status. -/
theorem body_applyOutgoingEdit (h : s.applyOutgoingEdit id accountId newText newTextBytes now = .ok (record, s'))
    (hx : s.messages.find? id = some x) (hacc : x.accountId = accountId) (hdir : x.direction = .outgoing) :
    ∃ y, s'.messages.find? id = some y ∧ y.body = some newText := by
  obtain ⟨s₁, hsnapshot, h⟩ := exists_of_bind_ok h
  cases h
  rw [find?_snapshotOf hsnapshot]
  refine ⟨x.edited newText newTextBytes now, (find?_updateMessages s _ _ _ id).trans ?_, rfl⟩
  rw [hx]
  simp [key_of_find? hx, hacc, hdir]

/-- A vote passes over a row that is not live. -/
theorem untouched_foldPollRow {mutate : NormalizedPoll → Option NormalizedPoll}
    (hdead : ∀ x, s.messages.find? id = some x → x.isLive = false) : Untouched id s
      (s.foldPollRow accountId conversationId targetSentAt senderId legacySenderId mutate).2 := by
  unfold foldPollRow
  dsimp only
  split
  swap
  · exact .refl id s
  next row hrow =>
  split
  · exact .refl id s
  split
  · exact .refl id s
  refine untouched_updateMessages fun x hx => decide_eq_false fun hid => ?_
  have hmem : row ∈ [row] := mem_singleton_self row
  rw [← hrow, mem_filter] at hmem
  obtain rfl : x = row := s.messages.row_unique (Table.find?_eq_some.mp hx).1 hmem.1 hid
  simp [hdead x hx] at hmem

/-- An erasure passes over a row that is not live. -/
theorem untouched_markRemoteDeleted {authorSenderId : String}
    (hdead : ∀ x, s.messages.find? id = some x → x.isLive = false) :
    Untouched id s (s.markRemoteDeleted accountId conversationId targetSentAt authorSenderId).2 := by
  obtain ⟨hfind, hedits⟩ := s.markRemoteDeleted_spec accountId conversationId targetSentAt authorSenderId id
  refine ⟨hfind.trans ?_, fun e he _ => hedits ▸ he⟩
  cases hx : s.messages.find? id with
  | none => rfl
  | some x => simp [hdead x hx]

/-! ### Settling -/

theorem untouched_updateMessageStatus {sentAt : Option ℕ}
    (h : ∀ x, s.messages.find? id = some x → ¬(messageId = id ∧ x.status ≠ status)) :
    Untouched id s (s.updateMessageStatus messageId status sentAt).2 :=
  untouched_updateMessages fun x hx => decide_eq_false fun ⟨hid, hne⟩ =>
    h x hx ⟨hid.symm.trans (key_of_find? hx), hne⟩

theorem status_updateMessageStatus (sentAt : Option ℕ)
    (hx : s.messages.find? id = some x) (hne : x.status ≠ status) :
    ∃ y, (s.updateMessageStatus id status sentAt).2.messages.find? id = some y ∧ y.status = status := by
  refine ⟨_, (find?_updateMessages s _ _ _ id).trans (by rw [hx]; rfl), ?_⟩
  simp [key_of_find? hx, hne]

/-- Dropping a mirror leaves a row that is still there alone. -/
theorem untouched_dropMirror {duplicates : List String}
    (hkept : ((s.dropMirror duplicates).messages.find? id).isSome) : Untouched id s (s.dropMirror duplicates) := by
  unfold dropMirror at hkept ⊢
  split
  swap
  · exact .refl id s
  refine ⟨?_, fun e he _ => (mem_delete.mp he).1⟩
  obtain ⟨x, hx⟩ := Option.isSome_iff_exists.mp hkept
  have hfind := hx
  rw [show (s.deleteMessages _).messages.find? id = _ from find?_delete _ _ _,
    Option.filter_eq_some_iff] at hfind
  exact hx.trans hfind.1.symm

/-- The mirror of a send is another row. -/
theorem find?_dropMirror_self :
    (s.dropMirror (s.duplicateIds id accountId conversationId sentAt)).messages.find? id = s.messages.find? id := by
  unfold dropMirror
  split
  swap
  · rfl
  next mirror hmirror =>
    obtain ⟨m, -, rfl, -, -, -, hother, -⟩ := exists_mirror hmirror
    refine (find?_delete _ _ _).trans ?_
    cases hx : s.messages.find? id with
    | none => rfl
    | some x =>
      have hne : x.id ≠ m.id := fun h => hother (h.symm.trans (key_of_find? hx))
      simp [Option.filter, hne]

/-- Settling another row leaves this one alone, unless it was its mirror. -/
theorem untouched_completeOutgoingSend {outcomes : Option MessageSendOutcomes}
    (hother : ∀ x, s.messages.find? id = some x →
      ¬(messageId = id ∧ accountId = x.accountId ∧ conversationId = x.conversationId))
    (hkept : ((s.completeOutgoingSend messageId accountId conversationId sentAt outcomes).2.messages.find?
      id).isSome) :
    Untouched id s (s.completeOutgoingSend messageId accountId conversationId sentAt outcomes).2 := by
  unfold completeOutgoingSend at hkept ⊢
  dsimp only at hkept ⊢
  split
  · exact .refl id s
  next previous hprevious =>
    rw [hprevious] at hkept
    set single := s.dropMirror (s.duplicateIds messageId accountId conversationId sentAt)
    have hsettled : ((single.updateMessages
        (fun m => m.id = messageId ∧ m.accountId = accountId ∧ m.conversationId = conversationId)
        (sentRow sentAt outcomes) (id_sentRow sentAt outcomes)).messages.find? id).isSome := hkept
    rw [find?_updateMessages, Option.isSome_map] at hsettled
    have hdrop : Untouched id s single := untouched_dropMirror hsettled
    have hwrite : Untouched id single (single.updateMessages
        (fun m => m.id = messageId ∧ m.accountId = accountId ∧ m.conversationId = conversationId)
        (sentRow sentAt outcomes) (id_sentRow sentAt outcomes)) := by
      refine untouched_updateMessages fun x hx => decide_eq_false ?_
      rintro ⟨hid, hacc, hconv⟩
      exact hother x (hdrop.1 ▸ hx) ⟨hid.symm.trans (key_of_find? hx), hacc.symm, hconv.symm⟩
    exact hdrop.trans (hwrite.trans (.of_tables rfl rfl))

/-- Settling a row makes it `sent`, whatever it was. -/
theorem status_completeOutgoingSend (sentAt : ℕ) (outcomes : Option MessageSendOutcomes)
    (hx : s.messages.find? id = some x) (hacc : x.accountId = accountId)
    (hconv : x.conversationId = conversationId) :
    ∃ y, (s.completeOutgoingSend id accountId conversationId sentAt outcomes).2.messages.find? id = some y ∧
      y.status = .sent := by
  have hid := key_of_find? hx
  have hrow : s.messages.rows.find? (fun m => m.id = id ∧ m.accountId = accountId ∧
      m.conversationId = conversationId) = some x :=
    find?_rows_of_key hx (decide_eq_true ⟨hid, hacc, hconv⟩) fun m hm => (of_decide_eq_true hm).1
  unfold completeOutgoingSend
  dsimp only
  rw [hrow]
  refine ⟨sentRow sentAt outcomes x,
    (find?_updateMessages _ _ _ (id_sentRow sentAt outcomes) id).trans ?_, rfl⟩
  rw [find?_dropMirror_self, hx]
  simp [hid, hacc, hconv]

/-! ### Receipts -/

/-- A receipt for another row at the key of `m` moves the rung of every row there. -/
def Spills (s : Store) (r : PeerReceipt) (m : MessageRow) : Prop :=
  r.recipient ≠ "" ∧ m.accountId = r.accountId ∧ m.sentAt ∈ r.reached ∧
    r.moved (s.rowsAt r m.conversationId m.sentAt) = true
  deriving Decidable

/-- A receipt changes only ladder columns of a row; the status is its rung if it spills onto the row. -/
theorem find?_applyPeerReceipt {r : PeerReceipt} {outcome : PeerReceiptOutcome} {x : MessageRow}
    (h : s.applyPeerReceipt r = .ok (outcome, s')) (hx : s.messages.find? id = some x) :
    s'.messageEdits = s.messageEdits ∧ ∃ y, s'.messages.find? id = some y ∧ MessageRow.SameFace x y ∧
      y.status = if s.Spills r x then r.tier else x.status := by
  obtain ⟨hmem, hid⟩ := Table.find?_eq_some.mp hx
  rcases applyPeerReceipt_spec h with ⟨hrec, rfl⟩ | ⟨hrec, hframe, g, hg, hrows, hsettled⟩
  · refine ⟨rfl, x, hx, .refl x, ?_⟩
    rw [if_neg fun hspill : s'.Spills r x => hspill.1 hrec]
  · have hedits : s'.messageEdits = s.messageEdits := by
      unfold ReceiptFrame at hframe
      rw [hframe]
    refine ⟨hedits, g x, Table.find?_eq_some.mpr ⟨?_, (hg x).id.trans hid⟩, hg x, ?_⟩
    · rw [hrows]
      exact mem_map_of_mem hmem
    · have hx' := hsettled x hmem
      by_cases hreached : x.accountId = r.accountId ∧ x.sentAt ∈ r.reached
      · obtain ⟨hacc, hlisted⟩ := hreached
        rw [(hx'.ladder hacc hlisted).1]
        simp [PeerReceipt.settle, Spills, hrec, hacc, hlisted]
      · rw [hx'.fresh hreached, if_neg fun hspill : s.Spills r x => hreached ⟨hspill.2.1, hspill.2.2.1⟩]

end Store

end SignalConnector
