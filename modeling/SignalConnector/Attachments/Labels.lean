/-
# Attachments that carry their place

Every list a writer is handed for a row is index-aligned with the attachments
of the sender's message. So an entry of a column stands for an attachment of
the message, and which one it is can be told from where it came from: it is
labelled with its index in the list that supplied it. The labels ride along
and decide nothing (`AttachmentSlots.Mirrors`: without them the columns are the row's), so
a `Tracked` store is a store together with the labels of one row's columns and
the attachments that were removed from it.
-/
import SignalConnector.Badges.Run
import SignalConnector.Erasure.Writers
import SignalConnector.Store.Attachments

namespace SignalConnector

open List Table

/-! ### Labelled columns -/

/-- The attachment columns of a row; each entry carries the index of its attachment in the message. -/
structure AttachmentSlots where
  descriptors : List (AttachmentInfo × ℕ)
  live : List (AttachmentLocator × ℕ)
  imported : List (AttachmentLocator × ℕ)
  deriving DecidableEq

namespace AttachmentSlots

/-- The attachments of the message that the row holds, slot by slot. -/
def places (slots : AttachmentSlots) : List ℕ := slots.descriptors.map Prod.snd

/-- Without their labels the columns are the row's. -/
structure Mirrors (row : MessageRow) (slots : AttachmentSlots) : Prop where
  descriptors : row.attachments = toListCell (slots.descriptors.map Prod.fst)
  live : row.liveAttachmentLocators = toListCell (slots.live.map Prod.fst)
  imported : row.attachmentLocators = toListCell (slots.imported.map Prod.fst)

variable (attachments : List NormalizedAttachment)

/-- What a list of attachments says of the descriptors, and of their locators. -/
def labelled : List (AttachmentInfo × ℕ) :=
  (attachments.map NormalizedAttachment.info).zipIdx

def labelledFaces (faces : List (Option AttachmentLocator)) : List (Option (AttachmentLocator × ℕ)) :=
  faces.zipIdx.map fun face => face.1.map (·, face.2)

/-- A live row lands. -/
def landed : AttachmentSlots where
  descriptors := labelled attachments
  live := (attachments.map fun a => a.locator.getD AttachmentLocator.default).zipIdx
  imported := []

/-- The archive's copy lands, or repairs a row without descriptors. -/
def archived (locators : List AttachmentLocator) (live : List (AttachmentLocator × ℕ)) : AttachmentSlots where
  descriptors := labelled attachments
  live := live
  imported := locators.zipIdx

/-- The live faces, filled by position. -/
def poured (faces : List (Option AttachmentLocator)) (live : List (AttachmentLocator × ℕ)) :
    List (AttachmentLocator × ℕ) :=
  pourFrom (AttachmentLocator.empty ∘ Prod.fst) (AttachmentLocator.default, 0) 0 (labelledFaces faces) live

/-- Whole attachments are merged. -/
def replayed (incoming : List NormalizedAttachment) (slots : AttachmentSlots) : AttachmentSlots :=
  if Fills incoming then
    { slots with
      descriptors := fillFrom (AttachmentInfo.unaddressed ∘ Prod.fst) 0 (labelled incoming) slots.descriptors
      live := poured (incoming.map NormalizedAttachment.locator) slots.live }
  else slots

/-- Locators are merged into a live column that is there. -/
def echoed (faces : List (Option AttachmentLocator)) (slots : AttachmentSlots) : AttachmentSlots :=
  if slots.live = [] then slots else { slots with live := poured faces slots.live }

/-- An index leaves the columns. -/
def removed (index : ℕ) (slots : AttachmentSlots) : AttachmentSlots :=
  if index < slots.descriptors.length then
    ⟨slots.descriptors.eraseIdx index, slots.live.eraseIdx index, slots.imported.eraseIdx index⟩
  else slots

end AttachmentSlots

/-! ### What a call does to the row -/

/-- The writers of a row's attachment columns. A batch of the history import is its rows one at a time. -/
inductive AttachmentOp
  | insertMessage (message : MessageRecord) (clientRequestId preview : Option String) (incrementUnread : Bool)
      (storedAt : ℕ)
  | mergeLiveAttachmentFaces (accountId messageId : String) (incoming : List NormalizedAttachment)
  | mergeLiveAttachmentLocators (accountId messageId : String) (newFaces : List (Option AttachmentLocator))
  | insertHistoryRow (row : HistoryImportInsert) (storedAt : ℕ)
  | removeMessageAttachmentAt (accountId messageId : String) (index : ℕ)
  deriving DecidableEq

inductive AttachmentEvent
  | landed (attachments : List NormalizedAttachment)
  | archived (attachments : List NormalizedAttachment) (locators : List AttachmentLocator)
  | replayed (incoming : List NormalizedAttachment)
  | echoed (faces : List (Option AttachmentLocator))
  | removed (index : ℕ)
  deriving DecidableEq

namespace AttachmentSlots

/-- The labelled columns after an event; a row that is not there only lands. -/
def after : Option AttachmentSlots → AttachmentEvent → Option AttachmentSlots
  | none, .landed attachments => some (landed attachments)
  | none, .archived attachments locators => some (archived attachments locators [])
  | none, _ => none
  | some slots, .landed _ => some slots
  | some slots, .archived attachments locators =>
    some (if attachments ≠ [] ∧ slots.descriptors = [] then archived attachments locators slots.live else slots)
  | some slots, .replayed incoming => some (slots.replayed incoming)
  | some slots, .echoed faces => some (slots.echoed faces)
  | some slots, .removed index => some (slots.removed index)

/-- The attachments removed from the row so far, after an event. -/
def goneAfter (gone : List ℕ) (slots : Option AttachmentSlots) : AttachmentEvent → List ℕ
  | .removed index => gone ++ (slots.bind fun slots => slots.places[index]?).toList
  | _ => gone

end AttachmentSlots

namespace Store

/-- A call that fails has written nothing. -/
def attachmentStep (s : Store) : AttachmentOp → Store
  | .insertMessage message clientRequestId preview incrementUnread storedAt =>
    s.after (s.insertMessage message clientRequestId preview incrementUnread storedAt)
  | .mergeLiveAttachmentFaces accountId messageId incoming =>
    (s.mergeLiveAttachmentFaces accountId messageId incoming).2
  | .mergeLiveAttachmentLocators accountId messageId newFaces =>
    s.after (s.mergeLiveAttachmentLocators accountId messageId newFaces)
  | .insertHistoryRow row storedAt => s.after (s.insertHistoryBatch [row] storedAt)
  | .removeMessageAttachmentAt accountId messageId index =>
    s.after (s.removeMessageAttachmentAt accountId messageId index)

/-- The two ids name the row `id`. -/
def Names (s : Store) (id accountId messageId : String) : Prop :=
  messageId = id ∧ (s.messages.find? id).any fun m => m.accountId = accountId
  deriving Decidable

/-- What a call brings to the row `id`, if anything. -/
def attachmentEvent (id : String) (s : Store) (op : AttachmentOp) : Option AttachmentEvent :=
  let lands := (s.messages.find? id).isNone && ((s.attachmentStep op).messages.find? id).isSome
  match op with
  | .insertMessage message .. =>
    if lands then some (.landed message.attachments)
    else if s.Names id message.accountId message.id then some (.replayed message.attachments)
    else none
  | .mergeLiveAttachmentFaces accountId messageId incoming =>
    if s.Names id accountId messageId then some (.replayed incoming) else none
  | .mergeLiveAttachmentLocators accountId messageId newFaces =>
    if s.Names id accountId messageId then some (.echoed newFaces) else none
  | .insertHistoryRow row _ =>
    if lands ∨ (s.historyTwin row).map MessageRow.id = some id then
      some (.archived row.record.attachments row.locators)
    else none
  | .removeMessageAttachmentAt accountId messageId index =>
    if s.Names id accountId messageId then some (.removed index) else none

end Store

/-! ### The labels decide nothing -/

theorem listCell_toListCell {α : Type} (list : List α) : listCell (toListCell list) = some list := by
  unfold toListCell
  split
  · next h => simp [listCell, List.isEmpty_iff.mp h]
  · rfl

theorem toListCell_of_ne_nil {α : Type} {list : List α} (h : list ≠ []) : toListCell list = some (.parsed list) := by
  simp [toListCell, h]

theorem attachmentsJsonIsEmpty_toListCell (list : List AttachmentInfo) :
    attachmentsJsonIsEmpty (toListCell list) = list.isEmpty := by
  cases list <;> rfl

namespace AttachmentSlots

variable {row : MessageRow} {slots : AttachmentSlots}

theorem map_fst_labelled (attachments : List NormalizedAttachment) :
    (labelled attachments).map Prod.fst = attachments.map NormalizedAttachment.info := by
  simp [labelled]

theorem map_fst_labelledFaces (faces : List (Option AttachmentLocator)) :
    (labelledFaces faces).map (Option.map Prod.fst) = faces := by
  unfold labelledFaces
  rw [map_map]
  calc _ = faces.zipIdx.map Prod.fst := map_congr_left fun face _ => by
          obtain ⟨_ | _, _⟩ := face <;> rfl
    _ = faces := by simp

theorem map_fst_poured (faces : List (Option AttachmentLocator)) (live : List (AttachmentLocator × ℕ)) :
    (poured faces live).map Prod.fst = pourFrom AttachmentLocator.empty .default 0 faces (live.map Prod.fst) := by
  rw [poured, map_pourFrom, map_fst_labelledFaces]

theorem mirrors_landed (message : MessageRecord) (clientRequestId : Option String) (storedAt : ℕ) :
    Mirrors (.ofRecord message clientRequestId storedAt) (landed message.attachments) :=
  ⟨by simp [landed, map_fst_labelled, MessageRow.ofRecord], by simp [landed, MessageRow.ofRecord], rfl⟩

theorem mirrors_archived (row : HistoryImportInsert) (storedAt : ℕ) :
    Mirrors (.ofHistory row storedAt) (archived row.record.attachments row.locators []) :=
  ⟨by simp [archived, map_fst_labelled, MessageRow.ofHistory, MessageRow.ofRecord], rfl,
    by simp [archived, MessageRow.ofHistory]⟩

/-- Both columns of a merge, as the model writes them. -/
theorem mirrors_replayed (h : Mirrors row slots) {incoming : List NormalizedAttachment} (hfills : Fills incoming) :
    Mirrors { row with
        attachments := toListCell (incoming.zipIdx.foldl mergeSlot
          (slots.descriptors.map Prod.fst, slots.live.map Prod.fst, false)).1
        liveAttachmentLocators := toListCell (incoming.zipIdx.foldl mergeSlot
          (slots.descriptors.map Prod.fst, slots.live.map Prod.fst, false)).2.1 }
      (slots.replayed incoming) := by
  obtain ⟨hdescriptors, hfaces, -⟩ :=
    foldl_mergeSlot incoming 0 (slots.descriptors.map Prod.fst, slots.live.map Prod.fst, false)
  rw [replayed, if_pos hfills]
  refine ⟨?_, ?_, h.imported⟩
  · change toListCell _ = toListCell _
    rw [hdescriptors, map_fillFrom, map_fst_labelled]
  · change toListCell _ = toListCell _
    rw [hfaces, map_fst_poured]

end AttachmentSlots

namespace Store

open AttachmentSlots

variable {s : Store} {id accountId : String} {row : MessageRow} {slots : AttachmentSlots}

theorem rows_find?_named (hrow : s.messages.find? id = some row) (hacc : row.accountId = accountId) :
    s.messages.rows.find? (fun m => m.accountId = accountId ∧ m.id = id) = some row :=
  find?_rows_of_key hrow (decide_eq_true ⟨hacc, key_of_find? hrow⟩) fun _ hm => (of_decide_eq_true hm).2

theorem find?_updateMessages_named (hrow : s.messages.find? id = some row) (hacc : row.accountId = accountId)
    (f : MessageRow → MessageRow) (hf : ∀ m, (f m).id = m.id) :
    (s.updateMessages (fun m => m.accountId = accountId ∧ m.id = id) f hf).messages.find? id = some (f row) := by
  rw [find?_updateMessages, hrow, Option.map_some, if_pos (decide_eq_true ⟨hacc, key_of_find? hrow⟩)]

theorem mirrors_mergeAttachmentFacesIn (hrow : s.messages.find? id = some row) (hacc : row.accountId = accountId)
    (hmirrors : Mirrors row slots) (incoming : List NormalizedAttachment) :
    ∃ row', (s.mergeAttachmentFacesIn accountId id incoming).2.messages.find? id = some row' ∧
      Mirrors row' (slots.replayed incoming) := by
  unfold mergeAttachmentFacesIn
  by_cases hfills : Fills incoming
  · rw [if_neg (fills_iff.mp hfills), rows_find?_named hrow hacc]
    simp only [hmirrors.descriptors, hmirrors.live, listCell_toListCell]
    have hmerged := mirrors_replayed hmirrors hfills
    split
    · exact ⟨_, find?_updateMessages_named hrow hacc _ _, hmerged⟩
    · next hsame =>
      have hsame := (foldl_mergeSlot incoming 0 (slots.descriptors.map Prod.fst, slots.live.map Prod.fst, false)).2.2
        (Bool.eq_false_iff.mpr hsame)
      rw [hsame, ← hmirrors.descriptors, ← hmirrors.live] at hmerged
      exact ⟨row, hrow, hmerged⟩
  · rw [if_pos (not_not.mp fun h => hfills (fills_iff.mpr h)), replayed, if_neg hfills]
    exact ⟨row, hrow, hmirrors⟩

/-- Nothing is poured where no face says anything. -/
theorem poured_of_silent {faces : List (Option AttachmentLocator)}
    (h : faces.all fun face => face.all fun face => face = AttachmentLocator.default)
    (live : List (AttachmentLocator × ℕ)) : poured faces live = live := by
  have hvalues : ∀ value ∈ labelledFaces faces,
      (value.filter fun face => !(AttachmentLocator.empty ∘ Prod.fst) face) = none := by
    intro value hvalue
    obtain ⟨⟨face, index⟩, hface, rfl⟩ := mem_map.mp hvalue
    have hsilent := all_eq_true.mp h face (fst_mem_of_mem_zipIdx hface)
    cases face with
    | none => rfl
    | some face =>
      have : face = .default := by simpa using hsilent
      simp [Option.filter, AttachmentLocator.empty, this]
  unfold poured
  exact pourFrom_of_silent hvalues 0 live

theorem mirrors_mergeLiveAttachmentLocators (hrow : s.messages.find? id = some row) (hacc : row.accountId = accountId)
    (hmirrors : Mirrors row slots) (newFaces : List (Option AttachmentLocator)) :
    ∃ row', (s.after (s.mergeLiveAttachmentLocators accountId id newFaces)).messages.find? id = some row' ∧
      Mirrors row' (slots.echoed newFaces) := by
  unfold mergeLiveAttachmentLocators rowAt echoed
  split
  · next hsilent =>
    rw [poured_of_silent hsilent]
    exact ⟨row, hrow, by split <;> exact hmirrors⟩
  rw [rows_find?_named hrow hacc, Option.bind_some, hmirrors.live]
  by_cases hnone : slots.live = []
  · rw [if_pos hnone, hnone]
    exact ⟨row, hrow, hmirrors⟩
  rw [if_neg hnone, toListCell_of_ne_nil (by simpa using hnone)]
  dsimp only
  obtain ⟨hfaces, hsame⟩ := foldl_echoFace newFaces 0 (slots.live.map Prod.fst, false)
  split
  · next hchanged =>
    refine ⟨_, find?_updateMessages_named hrow hacc _ _, hmirrors.descriptors, ?_, hmirrors.imported⟩
    rw [map_fst_poured, ← hfaces]
    refine (toListCell_of_ne_nil fun hnil => ?_).symm
    rw [hfaces, ← map_fst_poured, map_eq_nil_iff] at hnil
    exact absurd hnil (pourFrom_ne_nil hnone)
  · next hchanged =>
    have hsame := hsame (Bool.eq_false_iff.mpr hchanged)
    refine ⟨row, hrow, hmirrors.descriptors, ?_, hmirrors.imported⟩
    rw [map_fst_poured, ← hfaces, hsame]
    exact hmirrors.live

theorem stripLocator_toListCell (index : ℕ) (faces : List AttachmentLocator) :
    stripLocator index (toListCell faces) = .ok (toListCell (faces.eraseIdx index)) := by
  by_cases hnil : faces = []
  · subst hnil
    rfl
  · rw [toListCell_of_ne_nil hnil]
    rfl

theorem mirrors_removeMessageAttachmentAt (hrow : s.messages.find? id = some row) (hacc : row.accountId = accountId)
    (hmirrors : Mirrors row slots) (index : ℕ) :
    ∃ row', (s.after (s.removeMessageAttachmentAt accountId id index)).messages.find? id = some row' ∧
      Mirrors row' (slots.removed index) := by
  unfold removeMessageAttachmentAt rowAt removed
  rw [rows_find?_named hrow hacc]
  dsimp only
  rw [hmirrors.descriptors]
  by_cases hin : index < slots.descriptors.length
  · have hne : slots.descriptors.map Prod.fst ≠ [] := fun hnil => by
      rw [map_eq_nil_iff.mp hnil] at hin
      exact Nat.not_lt_zero _ hin
    rw [if_pos hin, toListCell_of_ne_nil hne]
    dsimp only
    rw [getElem?_map, getElem?_eq_getElem hin, Option.map_some]
    dsimp only
    rw [hmirrors.imported, hmirrors.live, stripLocator_toListCell, stripLocator_toListCell]
    exact ⟨_, find?_updateMessages_named hrow hacc _ _, congrArg toListCell (eraseIdx_map ..),
      congrArg toListCell (eraseIdx_map ..), congrArg toListCell (eraseIdx_map ..)⟩
  · rw [if_neg hin]
    refine ⟨row, ?_, hmirrors⟩
    by_cases hne : slots.descriptors.map Prod.fst = []
    · rw [hne]
      exact hrow
    · rw [toListCell_of_ne_nil hne]
      dsimp only
      rw [getElem?_eq_none (by simpa using Nat.le_of_not_lt hin)]
      exact hrow

theorem messages_insertHistoryRow (row : HistoryImportInsert) (storedAt : ℕ) :
    (s.after (s.insertHistoryBatch [row] storedAt)).messages = s.messages ∨
      (s.after (s.insertHistoryBatch [row] storedAt)).messages = (importStep storedAt s row).messages := by
  cases h : s.insertHistoryBatch [row] storedAt with
  | error => exact .inl rfl
  | ok =>
    refine .inr ?_
    unfold insertHistoryBatch at h
    obtain ⟨⟨outcome, s₁⟩, hfold, h⟩ := exists_of_bind_ok h
    cases h
    have hrows : s₁ = _ := foldlM_project Prod.snd (importStep storedAt) (fun _ _ _ hstep => importRow_ok hstep)
      _ _ _ hfold
    rw [hrows]
    rfl

theorem messages_insertHistoryRow_of_twin {row : HistoryImportInsert} {existing : MessageRow}
    (h : s.historyTwin row = some existing) (storedAt : ℕ) :
    (s.after (s.insertHistoryBatch [row] storedAt)).messages = (importStep storedAt s row).messages := by
  have hrow : importRow storedAt (⟨0, 0⟩, s) row = .ok (⟨0, 1⟩, s.refillAttachments existing row) := by
    unfold importRow
    simp only [h]
  unfold insertHistoryBatch importStep
  simp only [foldlM_cons, foldlM_nil, hrow, h]
  rfl

/-! ### Calls that do not name the row -/

theorem not_names_of_absent (habsent : s.messages.find? id = none) {messageId : String} :
    ¬s.Names id accountId messageId := by
  rintro ⟨-, hnamed⟩
  rw [habsent] at hnamed
  cases hnamed

variable {messageId : String}

theorem find?_updateMessages_other (h : ¬s.Names id accountId messageId)
    (f : MessageRow → MessageRow) (hf : ∀ m, (f m).id = m.id) :
    (s.updateMessages (fun m => m.accountId = accountId ∧ m.id = messageId) f hf).messages.find? id =
      s.messages.find? id := by
  rw [find?_updateMessages]
  cases hrow : s.messages.find? id with
  | none => rfl
  | some =>
    rw [Option.map_some, if_neg]
    intro hnamed
    obtain ⟨hacc, hid⟩ := of_decide_eq_true hnamed
    exact h ⟨hid.symm.trans (key_of_find? hrow), by rw [hrow]; exact decide_eq_true hacc⟩

theorem find?_mergeAttachmentFacesIn_other (h : ¬s.Names id accountId messageId)
    (incoming : List NormalizedAttachment) :
    (s.mergeAttachmentFacesIn accountId messageId incoming).2.messages.find? id = s.messages.find? id := by
  refine (untouched_mergeAttachmentFacesIn fun x hx hnamed => h ⟨hnamed.2.1, ?_⟩).1
  rw [hx]
  exact decide_eq_true hnamed.1.symm

theorem find?_mergeLiveAttachmentLocators_other (h : ¬s.Names id accountId messageId)
    (newFaces : List (Option AttachmentLocator)) :
    (s.after (s.mergeLiveAttachmentLocators accountId messageId newFaces)).messages.find? id =
      s.messages.find? id := by
  unfold mergeLiveAttachmentLocators
  split
  · rfl
  split
  · rfl
  · rfl
  dsimp only
  split
  · exact find?_updateMessages_other h _ _
  · rfl

theorem find?_removeMessageAttachmentAt_other (h : ¬s.Names id accountId messageId) (index : ℕ) :
    (s.after (s.removeMessageAttachmentAt accountId messageId index)).messages.find? id = s.messages.find? id := by
  unfold removeMessageAttachmentAt
  split
  · rfl
  next row _ =>
  split
  · rfl
  · rfl
  split
  · rfl
  cases himported : stripLocator index row.attachmentLocators with
  | error => rfl
  | ok =>
    cases hlive : stripLocator index row.liveAttachmentLocators with
    | error => rfl
    | ok => exact find?_updateMessages_other h _ _

/-- A row that is not there lands as it was handed in, or not at all. -/
theorem find?_insertMessage_absent (habsent : s.messages.find? id = none) (message : MessageRecord)
    (clientRequestId preview : Option String) (incrementUnread : Bool) (storedAt : ℕ) :
    (s.after (s.insertMessage message clientRequestId preview incrementUnread storedAt)).messages.find? id = none ∨
      (s.after (s.insertMessage message clientRequestId preview incrementUnread storedAt)).messages.find? id =
        some (.ofRecord message clientRequestId storedAt) := by
  unfold insertMessage
  dsimp only
  split
  · exact .inl ((find?_mergeAttachmentFacesIn_other (not_names_of_absent habsent) _).trans habsent)
  split
  · exact find?_insertOrIgnore_absent habsent _
  · exact .inl habsent

theorem find?_insertHistoryRow_absent (habsent : s.messages.find? id = none) (row : HistoryImportInsert)
    (storedAt : ℕ) : (s.after (s.insertHistoryBatch [row] storedAt)).messages.find? id = none ∨
      (s.after (s.insertHistoryBatch [row] storedAt)).messages.find? id = some (.ofHistory row storedAt) := by
  rcases messages_insertHistoryRow (s := s) row storedAt with h | h
  · exact .inl (by rw [h]; exact habsent)
  rw [h]
  unfold importStep
  split
  · refine .inl ?_
    unfold refillAttachments
    split
    · rw [find?_updateMessages, habsent]
      rfl
    · exact habsent
  · dsimp only
    split
    · exact .inl habsent
    · exact find?_insertOrIgnore_absent habsent _

/-! ### One call -/

/-- A call leaves an absent row absent, or lands it. -/
theorem mirrors_attachmentStep_absent (habsent : s.messages.find? id = none) (op : AttachmentOp) :
    Option.Rel Mirrors ((s.attachmentStep op).messages.find? id)
      ((s.attachmentEvent id op).elim none (AttachmentSlots.after none)) := by
  cases op with
  | insertMessage message clientRequestId preview incrementUnread storedAt =>
    have hnot : ¬s.Names id message.accountId message.id := not_names_of_absent habsent
    rcases find?_insertMessage_absent habsent message clientRequestId preview incrementUnread storedAt with h | h
    · simp only [attachmentStep, attachmentEvent, habsent, h, if_neg hnot]
      exact .none
    · simp only [attachmentStep, attachmentEvent, habsent, h]
      exact .some (mirrors_landed message clientRequestId storedAt)
  | mergeLiveAttachmentFaces accountId messageId incoming =>
    have hnot : ¬s.Names id accountId messageId := not_names_of_absent habsent
    have h := find?_mergeAttachmentFacesIn_other hnot incoming
    simp only [attachmentStep, attachmentEvent, mergeLiveAttachmentFaces, h, habsent, if_neg hnot]
    exact .none
  | mergeLiveAttachmentLocators accountId messageId newFaces =>
    have hnot : ¬s.Names id accountId messageId := not_names_of_absent habsent
    have h := find?_mergeLiveAttachmentLocators_other hnot newFaces
    simp only [attachmentStep, attachmentEvent, h, habsent, if_neg hnot]
    exact .none
  | insertHistoryRow row storedAt =>
    have htwin : (s.historyTwin row).map MessageRow.id ≠ some id := by
      intro htwin
      obtain ⟨existing, hexisting, hid⟩ := Option.map_eq_some_iff.mp htwin
      exact Table.find?_eq_none.mp habsent _ (historyTwin_eq_some hexisting) hid
    rcases find?_insertHistoryRow_absent habsent row storedAt with h | h
    · simp only [attachmentStep, attachmentEvent, habsent, h]
      rw [if_neg (by simpa using htwin)]
      exact .none
    · simp only [attachmentStep, attachmentEvent, habsent, h]
      exact .some (mirrors_archived row storedAt)
  | removeMessageAttachmentAt accountId messageId index =>
    have hnot : ¬s.Names id accountId messageId := not_names_of_absent habsent
    have h := find?_removeMessageAttachmentAt_other hnot index
    simp only [attachmentStep, attachmentEvent, h, habsent, if_neg hnot]
    exact .none

/-- The archive's copy of a row that is there. -/
theorem mirrors_insertHistoryRow (hrow : s.messages.find? id = some row) (hmirrors : Mirrors row slots)
    (insert : HistoryImportInsert) (storedAt : ℕ) :
    Option.Rel Mirrors ((s.attachmentStep (.insertHistoryRow insert storedAt)).messages.find? id)
      ((s.attachmentEvent id (.insertHistoryRow insert storedAt)).elim (some slots)
        (AttachmentSlots.after (some slots))) := by
  simp only [attachmentStep, attachmentEvent, hrow, Option.isNone_some, Bool.false_and, Bool.false_eq_true, false_or]
  by_cases hrefills : Refills id s insert
  · obtain ⟨hne, htwin⟩ := hrefills
    obtain ⟨existing, hexisting, -⟩ := Option.map_eq_some_iff.mp htwin
    rw [if_pos htwin, messages_insertHistoryRow_of_twin hexisting, find?_importStep_of_refills hrow ⟨hne, htwin⟩,
      hmirrors.descriptors, attachmentsJsonIsEmpty_toListCell]
    simp only [Option.elim_some, AttachmentSlots.after]
    by_cases hnil : slots.descriptors = []
    · rw [if_pos (by simp [hnil]), if_pos ⟨hne, hnil⟩]
      refine .some ⟨?_, hmirrors.live, ?_⟩
      · change some _ = toListCell _
        rw [archived, map_fst_labelled, toListCell_of_ne_nil (by simpa using hne)]
      · simp [archived]
    · rw [if_neg (by simpa using hnil), if_neg fun h => hnil h.2]
      exact .some hmirrors
  · have hsame : (s.after (s.insertHistoryBatch [insert] storedAt)).messages.find? id = some row := by
      rcases messages_insertHistoryRow (s := s) insert storedAt with h | h
      · rw [h, hrow]
      · rw [h, (untouched_importStep (by rw [hrow]; rfl) hrefills).1, hrow]
    rw [hsame]
    split
    · next htwin =>
      have hnil : insert.record.attachments = [] := by_contra fun hne => hrefills ⟨hne, htwin⟩
      simp only [Option.elim_some, AttachmentSlots.after, hnil, ne_eq, not_true, false_and, if_false]
      exact .some hmirrors
    · exact .some hmirrors

/-- **A call does to the row what its event does to the labelled columns.** -/
theorem mirrors_attachmentStep {slots : Option AttachmentSlots}
    (h : Option.Rel Mirrors (s.messages.find? id) slots) (op : AttachmentOp) :
    Option.Rel Mirrors ((s.attachmentStep op).messages.find? id)
      ((s.attachmentEvent id op).elim slots (AttachmentSlots.after slots)) := by
  cases hrow : s.messages.find? id with
  | none =>
    rw [hrow] at h
    cases h
    exact mirrors_attachmentStep_absent hrow op
  | some row =>
    rw [hrow] at h
    obtain ⟨slots, rfl, hmirrors⟩ : ∃ x, slots = some x ∧ Mirrors row x := by
      cases h with
      | some hmirrors => exact ⟨_, rfl, hmirrors⟩
    have hnamed : ∀ {accountId messageId : String}, s.Names id accountId messageId →
        messageId = id ∧ row.accountId = accountId := fun hn => by
      obtain ⟨hid, hacc⟩ := hn
      rw [hrow] at hacc
      exact ⟨hid, of_decide_eq_true hacc⟩
    cases op with
    | insertMessage message clientRequestId preview incrementUnread storedAt =>
      simp only [attachmentStep, attachmentEvent, hrow, Option.isNone_some, Bool.false_and, Bool.false_eq_true,
        if_false]
      by_cases hn : s.Names id message.accountId message.id
      · obtain ⟨rfl, hacc⟩ := hnamed hn
        obtain ⟨row', hrow', hmirrors'⟩ := mirrors_mergeAttachmentFacesIn hrow hacc hmirrors message.attachments
        rw [if_pos hn, insertMessage_duplicate (by rw [hrow]; rfl)]
        simp only [Store.after, hrow']
        exact .some hmirrors'
      · have hsame : (s.after (s.insertMessage message clientRequestId preview incrementUnread
            storedAt)).messages.find? id = some row := by
          cases hresult : s.insertMessage message clientRequestId preview incrementUnread storedAt with
          | error => exact hrow
          | ok =>
            refine (untouched_insertMessage hresult (by rw [hrow]; rfl) fun x hx hspare => hn ⟨hspare.2.1, ?_⟩).1.trans
              hrow
            rw [hx]
            exact decide_eq_true hspare.1.symm
        rw [if_neg hn, hsame]
        exact .some hmirrors
    | mergeLiveAttachmentFaces accountId messageId incoming =>
      simp only [attachmentStep, attachmentEvent, mergeLiveAttachmentFaces]
      by_cases hn : s.Names id accountId messageId
      · obtain ⟨rfl, hacc⟩ := hnamed hn
        obtain ⟨row', hrow', hmirrors'⟩ := mirrors_mergeAttachmentFacesIn hrow hacc hmirrors incoming
        rw [if_pos hn, hrow']
        exact .some hmirrors'
      · rw [if_neg hn, find?_mergeAttachmentFacesIn_other hn, hrow]
        exact .some hmirrors
    | mergeLiveAttachmentLocators accountId messageId newFaces =>
      simp only [attachmentStep, attachmentEvent]
      by_cases hn : s.Names id accountId messageId
      · obtain ⟨rfl, hacc⟩ := hnamed hn
        obtain ⟨row', hrow', hmirrors'⟩ := mirrors_mergeLiveAttachmentLocators hrow hacc hmirrors newFaces
        rw [if_pos hn, hrow']
        exact .some hmirrors'
      · rw [if_neg hn, find?_mergeLiveAttachmentLocators_other hn, hrow]
        exact .some hmirrors
    | insertHistoryRow insert storedAt => exact mirrors_insertHistoryRow hrow hmirrors insert storedAt
    | removeMessageAttachmentAt accountId messageId index =>
      simp only [attachmentStep, attachmentEvent]
      by_cases hn : s.Names id accountId messageId
      · obtain ⟨rfl, hacc⟩ := hnamed hn
        obtain ⟨row', hrow', hmirrors'⟩ := mirrors_removeMessageAttachmentAt hrow hacc hmirrors index
        rw [if_pos hn, hrow']
        exact .some hmirrors'
      · rw [if_neg hn, find?_removeMessageAttachmentAt_other hn, hrow]
        exact .some hmirrors

end Store

/-! ### A store with a labelled row -/

/-- A store, the labelled columns of its row `id` if there is one, and the attachments removed from it so far. -/
structure Tracked (id : String) where
  store : Store
  slots : Option AttachmentSlots
  gone : List ℕ
  mirrors : Option.Rel AttachmentSlots.Mirrors (store.messages.find? id) slots

namespace Tracked

variable {id : String}

/-- A store without the row. -/
def fresh (s : Store) (h : s.messages.find? id = none) : Tracked id :=
  ⟨s, none, [], by rw [h]; exact .none⟩

def step (w : Tracked id) (op : AttachmentOp) : Tracked id where
  store := w.store.attachmentStep op
  slots := (w.store.attachmentEvent id op).elim w.slots (AttachmentSlots.after w.slots)
  gone := (w.store.attachmentEvent id op).elim w.gone (AttachmentSlots.goneAfter w.gone w.slots)
  mirrors := Store.mirrors_attachmentStep w.mirrors op

end Tracked

end SignalConnector
