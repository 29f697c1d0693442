/-
# The attachment columns of a row

A row keeps its attachment descriptors and, index-aligned with them, the
locators its archive copy came with and those its live envelope came with.
`merge_live_attachment_locators` fills empty live locators from an echo or a
backfill answer; `remove_message_attachment_at` takes one index out of all
three columns. Both, and the merge of whole attachments that a duplicate
insert makes, work by position.
-/
import SignalConnector.Lib.Places
import SignalConnector.Store.Messages

namespace SignalConnector

open List

/-! ### Filling by position -/

/-- A descriptor without an id is not addressable on the wire. -/
def AttachmentInfo.unaddressed (descriptor : AttachmentInfo) : Bool := descriptor.id = ""

/-- `face == HistoryAttachmentLocator::default()`. -/
def AttachmentLocator.empty (face : AttachmentLocator) : Bool := face = .default

variable (index : ℕ) (face locator : Option AttachmentLocator) (acc : List AttachmentLocator × Bool)

theorem fillDescriptor_fst (candidate : AttachmentInfo) (acc : List AttachmentInfo × Bool) :
    (fillDescriptor index candidate acc).1 = fillPlace AttachmentInfo.unaddressed index candidate acc.1 := by
  unfold fillDescriptor fillPlace
  have htest : acc.1[index]?.any AttachmentInfo.unaddressed = true ↔
      acc.1[index]?.map AttachmentInfo.id = some "" := by
    simp [Option.any_eq_true, AttachmentInfo.unaddressed]
  split
  · rfl
  · by_cases h : acc.1[index]?.map AttachmentInfo.id = some ""
    · rw [if_pos h, if_pos (htest.mpr h)]
    · rw [if_neg h, if_neg (htest.not.mpr h)]

theorem filter_empty :
    (locator.filter fun face => !face.empty) = locator.filter (· ≠ AttachmentLocator.default) := by
  congr 1
  funext face
  simp [AttachmentLocator.empty]

theorem any_empty_iff : face.any AttachmentLocator.empty = true ↔ face = some .default := by
  simp [Option.any_eq_true, AttachmentLocator.empty]

theorem fillFace_fst :
    (fillFace index locator acc).1 = pourPlace AttachmentLocator.empty .default index locator acc.1 := by
  unfold fillFace pourPlace
  rw [filter_empty]
  cases locator.filter (· ≠ AttachmentLocator.default) with
  | none => rfl
  | some =>
    dsimp only
    by_cases hend : acc.1.length ≤ index
    · simp only [if_pos hend, any_empty_iff]
      split <;> rfl
    · simp only [if_neg hend, any_empty_iff]
      split <;> rfl

/-- A round that leaves the flag down changes nothing. -/
theorem fillDescriptor_unchanged {index : ℕ} {candidate : AttachmentInfo} {acc : List AttachmentInfo × Bool}
    (h : (fillDescriptor index candidate acc).2 = false) : fillDescriptor index candidate acc = acc := by
  unfold fillDescriptor at h ⊢
  split at h
  · cases h
  next hend =>
    rw [if_neg hend]
    split at h
    · cases h
    next hid => rw [if_neg hid]

theorem fillFace_unchanged {index : ℕ} {locator : Option AttachmentLocator} {acc : List AttachmentLocator × Bool}
    (h : (fillFace index locator acc).2 = false) : fillFace index locator acc = acc := by
  unfold fillFace at h ⊢
  cases hface : locator.filter (· ≠ AttachmentLocator.default) with
  | none => rfl
  | some =>
    rw [hface] at h
    dsimp only at h ⊢
    by_cases hend : acc.1.length ≤ index
    · rw [if_pos hend] at h
      split at h <;> cases h
    · rw [if_neg hend] at h ⊢
      split at h
      · cases h
      next hblank => rw [if_neg hblank]

/-- **The merge of whole attachments fills both columns by position**, and reports a change if there is one. -/
theorem foldl_mergeSlot : ∀ (incoming : List NormalizedAttachment) (start : ℕ)
    (acc : List AttachmentInfo × List AttachmentLocator × Bool), ((incoming.zipIdx start).foldl mergeSlot acc).1 =
        fillFrom AttachmentInfo.unaddressed start (incoming.map NormalizedAttachment.info) acc.1 ∧
      ((incoming.zipIdx start).foldl mergeSlot acc).2.1 =
        pourFrom AttachmentLocator.empty .default start (incoming.map NormalizedAttachment.locator) acc.2.1 ∧
      (((incoming.zipIdx start).foldl mergeSlot acc).2.2 = false → (incoming.zipIdx start).foldl mergeSlot acc = acc)
  | [], _, _ => ⟨rfl, rfl, fun _ => rfl⟩
  | candidate :: incoming, start, acc => by
    obtain ⟨hdescriptors, hfaces, hsame⟩ := foldl_mergeSlot incoming (start + 1) (mergeSlot acc (candidate, start))
    simp only [zipIdx_cons, foldl_cons, map_cons, fillFrom, pourFrom]
    refine ⟨?_, ?_, fun h => ?_⟩
    · rw [hdescriptors]
      exact congrArg _ (fillDescriptor_fst _ _ _)
    · rw [hfaces]
      exact congrArg _ (fillFace_fst _ _ _)
    · have hrest := hsame h
      rw [hrest] at h ⊢
      have hface := fillFace_unchanged (show (fillFace start candidate.locator
        (acc.2.1, (fillDescriptor start candidate.info (acc.1, acc.2.2)).2)).2 = false from h)
      have hflag : (fillDescriptor start candidate.info (acc.1, acc.2.2)).2 = false := by
        have := congrArg Prod.snd hface
        exact this.symm.trans h
      have hdescriptor := fillDescriptor_unchanged hflag
      change ((fillDescriptor start candidate.info (acc.1, acc.2.2)).1, fillFace start candidate.locator
        (acc.2.1, (fillDescriptor start candidate.info (acc.1, acc.2.2)).2)) = acc
      rw [hface, hdescriptor]

/-! ### Echoed locators -/

variable (entry : Option AttachmentLocator × ℕ)

/-- One round of `merge_live_attachment_locators`; growing the list is not yet a change. -/
def echoFace : List AttachmentLocator × Bool :=
  match entry.1.filter (· ≠ AttachmentLocator.default) with
  | none => acc
  | some face =>
    let faces :=
      if acc.1.length ≤ entry.2 then
        acc.1 ++ List.replicate (entry.2 + 1 - acc.1.length) AttachmentLocator.default
      else acc.1
    if faces[entry.2]? = some AttachmentLocator.default then (faces.set entry.2 face, true) else (faces, acc.2)

/-- A list that grew has the empty slot the face goes to, so the two merges do the same. -/
theorem echoFace_eq : echoFace acc entry = fillFace entry.2 entry.1 acc := by
  unfold echoFace fillFace
  cases entry.1.filter (· ≠ AttachmentLocator.default) with
  | none => rfl
  | some =>
    dsimp only
    by_cases hend : acc.1.length ≤ entry.2
    · have hslot : (acc.1 ++ List.replicate (entry.2 + 1 - acc.1.length) AttachmentLocator.default)[entry.2]? =
          some .default := by
        rw [getElem?_append_right hend, getElem?_replicate, if_pos (by omega)]
      simp only [if_pos hend]
      rw [if_pos hslot, if_pos hslot]
    · simp only [if_neg hend]

theorem foldl_echoFace : ∀ (newFaces : List (Option AttachmentLocator)) (start : ℕ)
    (acc : List AttachmentLocator × Bool), ((newFaces.zipIdx start).foldl echoFace acc).1 =
        pourFrom AttachmentLocator.empty .default start newFaces acc.1 ∧
      (((newFaces.zipIdx start).foldl echoFace acc).2 = false → (newFaces.zipIdx start).foldl echoFace acc = acc)
  | [], _, _ => ⟨rfl, fun _ => rfl⟩
  | face :: newFaces, start, acc => by
    obtain ⟨hfaces, hsame⟩ := foldl_echoFace newFaces (start + 1) (echoFace acc (face, start))
    simp only [zipIdx_cons, foldl_cons, pourFrom]
    refine ⟨?_, fun h => ?_⟩
    · rw [hfaces, echoFace_eq, fillFace_fst]
    · have hrest := hsame h
      rw [hrest] at h ⊢
      rw [echoFace_eq] at h ⊢
      exact fillFace_unchanged h

namespace Store

variable (s : Store) (accountId messageId : String)

/-- The row these two ids name. -/
def rowAt (messageId : String) : Option MessageRow :=
  s.messages.rows.find? fun m => m.accountId = accountId ∧ m.id = messageId

/-- `merge_live_attachment_locators`: a row without a live column, or with nothing to say, is left alone. -/
def mergeLiveAttachmentLocators (newFaces : List (Option AttachmentLocator)) : Except StoreError (Bool × Store) :=
  if newFaces.all fun face => face.all fun face => face = AttachmentLocator.default then .ok (false, s)
  else
    match (s.rowAt accountId messageId).bind MessageRow.liveAttachmentLocators with
    | none => .ok (false, s)
    | some .malformed => .error .unavailable
    | some (.parsed faces) =>
      let (faces, changed) := newFaces.zipIdx.foldl echoFace (faces, false)
      if changed then
        .ok (true, s.updateMessages (fun m => m.accountId = accountId ∧ m.id = messageId)
          (fun m => { m with liveAttachmentLocators := some (.parsed faces) }) fun _ => rfl)
      else .ok (false, s)

/-- `strip_locator`: one index leaves a locator column; a column the reader cannot parse fails the removal. -/
def stripLocator (index : ℕ) :
    Option (JsonCell (List AttachmentLocator)) → Except StoreError (Option (JsonCell (List AttachmentLocator)))
  | none => .ok none
  | some .malformed => .error .unavailable
  | some (.parsed faces) => .ok (toListCell (faces.eraseIdx index))

/-- `remove_message_attachment_at`: one index leaves the descriptors and both locator columns. -/
def removeMessageAttachmentAt (index : ℕ) : Except StoreError (Option String × Store) :=
  match s.rowAt accountId messageId with
  | none => .ok (none, s)
  | some row =>
    match row.attachments with
    | none | some .malformed => .ok (none, s)
    | some (.parsed attachments) =>
      match attachments[index]? with
      | none => .ok (none, s)
      | some removed => do
        let attachmentLocators ← stripLocator index row.attachmentLocators
        let liveAttachmentLocators ← stripLocator index row.liveAttachmentLocators
        .ok (some removed.id, s.updateMessages (fun m => m.accountId = accountId ∧ m.id = messageId)
          (fun m => { m with
            attachments := toListCell (attachments.eraseIdx index)
            attachmentLocators
            liveAttachmentLocators }) fun _ => rfl)

end Store

end SignalConnector
