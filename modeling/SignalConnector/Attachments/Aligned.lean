/-
# Slots and locators stay aligned

A row's attachment columns are aligned when a locator that says something
belongs to the attachment of its slot, when no attachment of the message is
held twice, and when a replay of the envelope brings none back that was
removed. Every writer works by index, the merges against the list of the
sender's message and the removal against the list of the row; so all of this
holds as long as a merge writes only into slots that stand where the message
has them, and appends no attachment that is held or was removed.
-/
import SignalConnector.Attachments.Labels

namespace SignalConnector

open List

namespace AttachmentSlots

variable {slots : AttachmentSlots} {gone : List ℕ} {face : AttachmentLocator} {k : ℕ} {i : ℕ}

/-- The locator of a slot, when it is not the default. -/
def faceAt (faces : List (AttachmentLocator × ℕ)) (i : ℕ) : Option (AttachmentLocator × ℕ) :=
  shownAt (AttachmentLocator.empty ∘ Prod.fst) faces i

/-- A locator that is not the default was supplied for the attachment its slot describes. -/
structure Aligned (slots : AttachmentSlots) : Prop where
  live : ∀ i face k, faceAt slots.live i = some (face, k) → slots.places[i]? = some k
  imported : ∀ i face k, faceAt slots.imported i = some (face, k) → slots.places[i]? = some k

/-- Every locator of an archive row comes with its attachment. -/
def Paired (attachments : List NormalizedAttachment) (locators : List AttachmentLocator) : Prop :=
  ∀ i face, locators[i]? = some face → face ≠ .default → i < attachments.length

/-- A merge of whole attachments: a slot it writes to stands where the message has it, and it appends nothing held or
removed. -/
structure Receives (gone : List ℕ) (slots : AttachmentSlots) (incoming : List NormalizedAttachment) : Prop where
  inPlace : ∀ i descriptor k, i < incoming.length → slots.descriptors[i]? = some (descriptor, k) →
    (descriptor.id = "" ∨ faceAt slots.live i = none ∧
      ∃ face, incoming[i]?.bind NormalizedAttachment.locator = some face ∧ face ≠ .default) → k = i
  fresh : ∀ i, slots.places.length ≤ i → i < incoming.length → i ∉ slots.places ∧ i ∉ gone

/-- The event finds the slots it writes to where the message has them. -/
def InPlace (gone : List ℕ) : Option AttachmentSlots → AttachmentEvent → Prop
  | none, .archived attachments locators => Paired attachments locators
  | some slots, .archived attachments locators =>
    attachments ≠ [] → slots.descriptors = [] → Paired attachments locators
  | some slots, .replayed incoming => Fills incoming → slots.Receives gone incoming
  | some slots, .echoed faces => slots.live ≠ [] → ∀ i face, faces[i]? = some (some face) → face ≠ .default →
      faceAt slots.live i = none → slots.places[i]? = some i
  | _, _ => True

/-- Besides the alignment, the slots are in the message's order, and what is missing before one was removed. -/
structure Sound (gone : List ℕ) (slots : AttachmentSlots) : Prop where
  aligned : slots.Aligned
  ordered : slots.places.Pairwise (· < ·)
  initial : ∀ k l, l ∈ slots.places → k < l → k ∈ slots.places ∨ k ∈ gone

theorem Sound.once (h : Sound gone slots) : slots.places.Nodup := h.ordered.imp Nat.ne_of_lt

/-! ### Columns that are written whole -/

theorem faceAt_eq_some {faces : List (AttachmentLocator × ℕ)} :
    faceAt faces i = some (face, k) ↔ faces[i]? = some (face, k) ∧ face ≠ .default := by
  rw [faceAt, shownAt_eq_some]
  simp [AttachmentLocator.empty]

theorem faceAt_zipIdx {faces : List AttachmentLocator} :
    faceAt faces.zipIdx i = some (face, k) ↔ faces[i]? = some face ∧ k = i ∧ face ≠ .default := by
  rw [faceAt_eq_some, getElem?_zipIdx]
  simp only [Nat.zero_add, Option.map_eq_some_iff, Prod.mk.injEq]
  constructor
  · rintro ⟨⟨face', hface, rfl, rfl⟩, hne⟩
    exact ⟨hface, rfl, hne⟩
  · rintro ⟨hface, rfl, hne⟩
    exact ⟨⟨face, hface, rfl, rfl⟩, hne⟩

variable {faces : List (Option AttachmentLocator)} {attachments : List NormalizedAttachment}
  {locators : List AttachmentLocator} {live : List (AttachmentLocator × ℕ)}

theorem places_of_labelled (h : slots.descriptors = labelled attachments) :
    slots.places = List.range attachments.length := by
  simp [places, h, labelled, zipIdx_map_snd, range_eq_range']

/-- A row that holds its list as the message has it. -/
theorem sound_of_range {n : ℕ} (hplaces : slots.places = List.range n)
    (hlive : ∀ i face k, faceAt slots.live i = some (face, k) → k = i ∧ i < n)
    (himported : ∀ i face k, faceAt slots.imported i = some (face, k) → k = i ∧ i < n) : Sound gone slots where
  aligned := by
    refine ⟨fun i face k h => ?_, fun i face k h => ?_⟩
    · obtain ⟨rfl, hlt⟩ := hlive i face k h
      rw [hplaces, getElem?_range hlt]
    · obtain ⟨rfl, hlt⟩ := himported i face k h
      rw [hplaces, getElem?_range hlt]
  ordered := by
    rw [hplaces]
    exact pairwise_lt_range
  initial := by
    intro k l hl hlt
    rw [hplaces, mem_range] at *
    exact .inl (by omega)

theorem sound_landed (attachments : List NormalizedAttachment) : Sound gone (landed attachments) := by
  refine sound_of_range (places_of_labelled rfl) (fun i face k h => ?_) fun i face k h => ?_
  · obtain ⟨hface, rfl, -⟩ := faceAt_zipIdx.mp h
    have := (List.getElem?_eq_some_iff.mp hface).1
    exact ⟨rfl, by simpa using this⟩
  · simp [faceAt, shownAt, landed] at h

/-- An archive row is stored aligned iff its locators come with their attachments. -/
theorem sound_archived (hlive : ∀ i, faceAt live i = none) (h : Paired attachments locators) :
    Sound gone (archived attachments locators live) := by
  refine sound_of_range (places_of_labelled rfl) (fun i face k hface => ?_) fun i face k hface => ?_
  · rw [show (archived attachments locators live).live = live from rfl, hlive] at hface
    cases hface
  · obtain ⟨hlocator, rfl, hne⟩ := faceAt_zipIdx.mp hface
    exact ⟨rfl, h k face hlocator hne⟩

theorem paired_of_aligned (h : (archived attachments locators live).Aligned) : Paired attachments locators := by
  intro i face hface hne
  have hplace := h.imported i face i (faceAt_zipIdx.mpr ⟨hface, rfl, hne⟩)
  rw [places_of_labelled rfl] at hplace
  simpa using (List.getElem?_eq_some_iff.mp hplace).1

/-- A row without descriptors has no locators to lose. -/
theorem Aligned.faceAt_live_of_nil (h : slots.Aligned) (hnil : slots.descriptors = []) (i : ℕ) :
    faceAt slots.live i = none := by
  cases hface : faceAt slots.live i with
  | none => rfl
  | some face =>
    have := h.live i face.1 face.2 hface
    simp [places, hnil] at this

/-! ### An index leaves -/

theorem places_removed {index : ℕ} (h : index < slots.descriptors.length) :
    (slots.removed index).places = slots.places.eraseIdx index := by
  rw [removed, if_pos h]
  exact (eraseIdx_map ..).symm

theorem sound_removed (h : Sound gone slots) (index : ℕ) :
    Sound (gone ++ slots.places[index]?.toList) (slots.removed index) := by
  by_cases hin : index < slots.descriptors.length
  · have hplaces := places_removed hin
    have hshift : ∀ i, (slots.removed index).places[i]? = slots.places[if i < index then i else i + 1]? := fun i => by
      rw [hplaces, getElem?_eraseIdx]
      split <;> rfl
    refine ⟨⟨fun i face k hface => ?_, fun i face k hface => ?_⟩, ?_, fun k l hl hlt => ?_⟩
    · rw [removed, if_pos hin] at hface
      rw [hshift]
      exact h.aligned.live _ face k ((shownAt_eraseIdx _ _ _ _).symm.trans hface)
    · rw [removed, if_pos hin] at hface
      rw [hshift]
      exact h.aligned.imported _ face k ((shownAt_eraseIdx _ _ _ _).symm.trans hface)
    · rw [hplaces]
      exact h.ordered.sublist (eraseIdx_sublist ..)
    · rw [hplaces] at hl
      rw [hplaces, mem_append]
      rcases h.initial k l ((eraseIdx_sublist ..).subset hl) hlt with hk | hk
      · -- a place that is held is the one that leaves, or stays
        obtain ⟨i, hi⟩ := mem_iff_getElem?.mp hk
        by_cases hindex : i = index
        · subst hindex
          exact .inr (.inr (by rw [hi]; exact mem_singleton_self k))
        · exact .inl (mem_eraseIdx_iff_getElem?.mpr ⟨i, hindex, hi⟩)
      · exact .inr (.inl hk)
  · rw [removed, if_neg hin, getElem?_eq_none (by simpa [places] using hin)]
    exact ⟨h.aligned, h.ordered, fun k l hl hlt => by simpa using h.initial k l hl hlt⟩

/-! ### Locators are poured in -/

theorem faceAt_poured (faces : List (Option AttachmentLocator)) (live : List (AttachmentLocator × ℕ)) (i : ℕ) :
    faceAt (poured faces live) i =
      (faceAt live i).or ((faces[i]?.join.filter fun face => !face.empty).map (·, i)) := by
  unfold faceAt poured
  rw [shownAt_pourFrom_start rfl, if_neg (Nat.not_lt_zero i), Nat.sub_zero, labelledFaces, getElem?_map, getElem?_zipIdx, Nat.zero_add]
  congr 1
  rcases faces[i]? with _ | _ | face
  · rfl
  · rfl
  · by_cases hempty : face.empty = true <;> simp [Option.filter, hempty]

theorem faceAt_poured_eq_some :
    faceAt (poured faces live) i = some (face, k) ↔ faceAt live i = some (face, k) ∨
        faceAt live i = none ∧ faces[i]? = some (some face) ∧ face ≠ .default ∧ k = i := by
  have hsaid : (faces[i]?.join.filter fun face => !face.empty).map (·, i) = some (face, k) ↔
      faces[i]? = some (some face) ∧ face ≠ .default ∧ k = i := by
    rw [Option.map_eq_some_iff]
    simp only [Option.filter_eq_some_iff, Option.join_eq_some_iff, Prod.mk.injEq, AttachmentLocator.empty]
    constructor
    · rintro ⟨face', ⟨hface, hne⟩, rfl, rfl⟩
      exact ⟨hface, by simpa using hne, rfl⟩
    · rintro ⟨hface, hne, rfl⟩
      exact ⟨face, ⟨hface, by simpa using hne⟩, rfl, rfl⟩
  rw [faceAt_poured]
  cases hshown : faceAt live i with
  | none => simp [hsaid]
  | some => simp

theorem sound_echoed (h : Sound gone slots)
    (hplace : slots.live ≠ [] → ∀ i face, faces[i]? = some (some face) → face ≠ .default →
      faceAt slots.live i = none → slots.places[i]? = some i) : Sound gone (slots.echoed faces) := by
  unfold echoed
  split
  · exact h
  next hlive =>
    refine ⟨⟨fun i face k hface => ?_, h.aligned.imported⟩, h.ordered, h.initial⟩
    rcases faceAt_poured_eq_some.mp hface with hold | ⟨hblank, hnew, hne, rfl⟩
    · exact h.aligned.live i face k hold
    · exact hplace hlive k face hnew hne hblank

theorem place_of_aligned_echoed (h : (slots.echoed faces).Aligned)
    (hlive : slots.live ≠ []) (hface : faces[i]? = some (some face))
    (hne : face ≠ .default) (hblank : faceAt slots.live i = none) : slots.places[i]? = some i := by
  rw [echoed, if_neg hlive] at h
  exact h.live i face i (faceAt_poured_eq_some.mpr (.inr ⟨hblank, hface, hne, rfl⟩))

/-! ### Whole attachments are merged -/

variable {incoming : List NormalizedAttachment}

theorem descriptors_replayed (hfills : Fills incoming) (i : ℕ) : (slots.replayed incoming).descriptors[i]? =
      (shownAt (AttachmentInfo.unaddressed ∘ Prod.fst) slots.descriptors i).or
        ((incoming[i]?.map fun a => (a.info, i)).or slots.descriptors[i]?) := by
  rw [replayed, if_pos hfills]
  change (fillFrom _ 0 (labelled incoming) slots.descriptors)[i]? = _
  rw [getElem?_fillFrom_start _ _ (Nat.zero_le _), if_neg (Nat.not_lt_zero i), Nat.sub_zero, labelled, getElem?_zipIdx, getElem?_map, Nat.zero_add, Option.map_map]
  rfl

theorem places_replayed_of_unaddressed (hfills : Fills incoming) (hlt : i < incoming.length)
    {descriptor : AttachmentInfo} (hslot : slots.descriptors[i]? = some (descriptor, k))
    (hid : descriptor.id = "") : (slots.replayed incoming).places[i]? = some i := by
  rw [places, getElem?_map, descriptors_replayed hfills, shownAt, hslot, getElem?_eq_getElem hlt]
  simp [Option.filter, AttachmentInfo.unaddressed, hid]

theorem places_replayed_of_addressed (hfills : Fills incoming)
    {descriptor : AttachmentInfo} (hslot : slots.descriptors[i]? = some (descriptor, k))
    (hid : descriptor.id ≠ "") : (slots.replayed incoming).places[i]? = some k := by
  rw [places, getElem?_map, descriptors_replayed hfills, shownAt, hslot]
  simp [Option.filter, AttachmentInfo.unaddressed, hid]

/-- The attachments past the end of the row's list are appended. -/
theorem places_replayed_past (hfills : Fills incoming) (hlt : i < incoming.length)
    (hend : slots.places.length ≤ i) : (slots.replayed incoming).places[i]? = some i := by
  have hslot : slots.descriptors[i]? = none := getElem?_eq_none (by simpa [places] using hend)
  rw [places, getElem?_map, descriptors_replayed hfills, shownAt, hslot, getElem?_eq_getElem hlt]
  rfl

/-- Slots without an id stand where the message has them. -/
def Anchored (slots : AttachmentSlots) (incoming : List NormalizedAttachment) : Prop :=
  ∀ i descriptor k, i < incoming.length → slots.descriptors[i]? = some (descriptor, k) → descriptor.id = "" → k = i

/-- If they do, a merge moves no attachment and appends the ones past the end. -/
theorem places_replayed (hfills : Fills incoming) (hanchored : slots.Anchored incoming) (i : ℕ) :
    (slots.replayed incoming).places[i]? = slots.places[i]?.or (if i < incoming.length then some i else none) := by
  cases hslot : slots.descriptors[i]? with
  | none =>
    rw [show slots.places[i]? = none by rw [places, getElem?_map, hslot]; rfl, Option.none_or]
    have hend : slots.places.length ≤ i := by simpa [places] using List.getElem?_eq_none_iff.mp hslot
    split
    · next hlt => exact places_replayed_past hfills hlt hend
    · next hge =>
      rw [places, getElem?_map, descriptors_replayed hfills, shownAt, hslot,
        getElem?_eq_none (Nat.le_of_not_lt hge)]
      rfl
  | some slot =>
    obtain ⟨descriptor, k⟩ := slot
    rw [show slots.places[i]? = some k by rw [places, getElem?_map, hslot]; rfl, Option.some_or]
    by_cases hid : descriptor.id = ""
    · by_cases hlt : i < incoming.length
      · rw [places_replayed_of_unaddressed hfills hlt hslot hid, hanchored i descriptor k hlt hslot hid]
      · rw [places, getElem?_map, descriptors_replayed hfills, shownAt, hslot,
          getElem?_eq_none (Nat.le_of_not_lt hlt)]
        simp [Option.filter, AttachmentInfo.unaddressed, hid]
    · exact places_replayed_of_addressed hfills hslot hid

theorem mem_places_replayed (hfills : Fills incoming) (hanchored : slots.Anchored incoming) :
    k ∈ (slots.replayed incoming).places ↔ k ∈ slots.places ∨ slots.places.length ≤ k ∧ k < incoming.length := by
  simp only [mem_iff_getElem?, places_replayed hfills hanchored]
  constructor
  · rintro ⟨i, hi⟩
    cases hplace : slots.places[i]? with
    | some => exact .inl ⟨i, by rw [hplace] at hi; rw [hplace]; exact hi⟩
    | none =>
      rw [hplace, Option.none_or] at hi
      split at hi
      · next hlt =>
        obtain rfl := Option.some.inj hi
        exact .inr ⟨List.getElem?_eq_none_iff.mp hplace, hlt⟩
      · cases hi
  · rintro (⟨i, hi⟩ | ⟨hend, hlt⟩)
    · exact ⟨i, by rw [hi]; rfl⟩
    · exact ⟨k, by rw [getElem?_eq_none hend, if_pos hlt]; rfl⟩

theorem faceAt_live_replayed (hfills : Fills incoming) :
    faceAt (slots.replayed incoming).live i = some (face, k) ↔
      faceAt slots.live i = some (face, k) ∨ faceAt slots.live i = none ∧
        incoming[i]?.bind NormalizedAttachment.locator = some face ∧ face ≠ .default ∧ k = i := by
  rw [replayed, if_pos hfills]
  change faceAt (poured _ _) i = _ ↔ _
  rw [faceAt_poured_eq_some, getElem?_map]
  cases incoming[i]? <;> simp

theorem imported_replayed : (slots.replayed incoming).imported = slots.imported := by
  unfold replayed
  split <;> rfl

/-! ### A merge in place -/

/-- An ordered list of as many numbers below `n` has them all. -/
theorem mem_of_ordered {l : List ℕ} (hordered : l.Pairwise (· < ·)) (hbelow : ∀ k ∈ l, k < l.length)
    (hk : k < l.length) : k ∈ l := by
  have hnodup : l.Nodup := hordered.imp Nat.ne_of_lt
  have hsubset : l.toFinset ⊆ Finset.range l.length := fun j hj =>
    Finset.mem_range.mpr (hbelow j (mem_toFinset.mp hj))
  have hall := Finset.eq_of_subset_of_card_le hsubset
    (by rw [Finset.card_range, toFinset_card_of_nodup hnodup])
  exact mem_toFinset.mp (hall ▸ Finset.mem_range.mpr hk)

theorem Receives.anchored (h : Receives gone slots incoming) : slots.Anchored incoming :=
  fun i descriptor k hlt hslot hid => h.inPlace i descriptor k hlt hslot (.inl hid)

/-- What a merge appends comes after what the row holds. -/
theorem Receives.below (h : Receives gone slots incoming) (hsound : Sound gone slots)
    (hgrows : slots.places.length < incoming.length) {l : ℕ} (hl : l ∈ slots.places) : l < slots.places.length := by
  obtain ⟨hheld, hgone⟩ := h.fresh _ le_rfl hgrows
  by_contra hge
  rcases Nat.lt_or_eq_of_le (Nat.le_of_not_lt hge) with hlt | heq
  · exact (hsound.initial _ l hl hlt).elim hheld hgone
  · exact hheld (heq ▸ hl)

theorem places_replayed_eq (hfills : Fills incoming) (hanchored : slots.Anchored incoming) :
    (slots.replayed incoming).places =
      slots.places ++ List.range' slots.places.length (incoming.length - slots.places.length) := by
  refine ext_getElem? fun i => ?_
  rw [places_replayed hfills hanchored, getElem?_append]
  by_cases hin : i < slots.places.length
  · rw [if_pos hin, getElem?_eq_getElem hin, Option.some_or]
  · rw [if_neg hin, getElem?_eq_none (Nat.le_of_not_lt hin), Option.none_or]
    by_cases hlt : i < incoming.length
    · rw [if_pos hlt, getElem?_range' (by omega), Nat.one_mul, Nat.add_sub_cancel' (Nat.le_of_not_lt hin)]
    · rw [if_neg hlt, getElem?_eq_none (by rw [length_range']; omega)]

theorem sound_replayed (hfills : Fills incoming) (h : Receives gone slots incoming) (hsound : Sound gone slots) :
    Sound gone (slots.replayed incoming) := by
  have hanchored := h.anchored
  have hplaces := places_replayed_eq hfills hanchored
  have hold : ∀ {i k}, slots.places[i]? = some k → (slots.replayed incoming).places[i]? = some k := fun hi => by
    rw [places_replayed hfills hanchored, hi, Option.some_or]
  refine ⟨⟨fun i face k hface => ?_, fun i face k hface => ?_⟩, ?_, fun k l hl hlt => ?_⟩
  · rcases (faceAt_live_replayed hfills).mp hface with hshown | ⟨hblank, hlocator, hne, rfl⟩
    · exact hold (hsound.aligned.live i face k hshown)
    · have hlt : k < incoming.length := by
        by_contra hge
        rw [getElem?_eq_none (Nat.le_of_not_lt hge)] at hlocator
        cases hlocator
      cases hslot : slots.descriptors[k]? with
      | none =>
        exact places_replayed_past hfills hlt (by simpa [places] using List.getElem?_eq_none_iff.mp hslot)
      | some slot =>
        have hplace := h.inPlace k slot.1 slot.2 hlt hslot (.inr ⟨hblank, face, hlocator, hne⟩)
        exact hold (by rw [places, getElem?_map, hslot, Option.map_some, hplace])
  · rw [imported_replayed] at hface
    exact hold (hsound.aligned.imported i face k hface)
  · rw [hplaces, pairwise_append]
    refine ⟨hsound.ordered, pairwise_lt_range', fun j hj l hl => ?_⟩
    obtain ⟨hlow, hhigh⟩ := mem_range'_1.mp hl
    exact Nat.lt_of_lt_of_le (h.below hsound (by omega) hj) hlow
  · rw [mem_places_replayed hfills hanchored] at hl ⊢
    rcases hl with hl | ⟨hlow, hhigh⟩
    · exact (hsound.initial k l hl hlt).imp_left .inl
    · by_cases hk : k < slots.places.length
      · have hbelow : ∀ j ∈ slots.places, j < slots.places.length := fun j hj => h.below hsound (by omega) hj
        exact .inl (.inl (mem_of_ordered hsound.ordered hbelow hk))
      · exact .inl (.inr ⟨Nat.le_of_not_lt hk, by omega⟩)

/-! ### A merge out of place -/

theorem le_getElem?_of_ordered : ∀ {l : List ℕ}, l.Pairwise (· < ·) → ∀ {i k : ℕ}, l[i]? = some k → i ≤ k := by
  intro l hordered i
  induction i with
  | zero => exact fun _ => Nat.zero_le _
  | succ i ih =>
    intro k hk
    obtain ⟨hlt, hk⟩ := List.getElem?_eq_some_iff.mp hk
    have hprev : i < l.length := by omega
    have hstep := pairwise_iff_getElem.mp hordered i (i + 1) hprev hlt (Nat.lt_succ_self i)
    have := ih (getElem?_eq_getElem hprev)
    omega

/-- A slot without an id that stands elsewhere: the merge puts an attachment there that is held or was removed. -/
theorem anchored_of_kept (hsound : Sound gone slots) (hfills : Fills incoming)
    (honce : (slots.replayed incoming).places.Nodup)
    (hstay : ∀ k ∈ gone, k ∈ (slots.replayed incoming).places → k ∈ slots.places) : slots.Anchored incoming := by
  intro i
  induction i using Nat.strong_induction_on with
  | _ i ih =>
  intro descriptor k hlt hslot hid
  by_contra hne
  have hplace : slots.places[i]? = some k := by rw [places, getElem?_map, hslot]; rfl
  have hik : i < k := Nat.lt_of_le_of_ne (le_getElem?_of_ordered hsound.ordered hplace) (Ne.symm hne)
  have hnew := places_replayed_of_unaddressed hfills hlt hslot hid
  have hheld : i ∈ slots.places := by
    rcases hsound.initial i k (mem_of_getElem? hplace) hik with h | h
    · exact h
    · exact hstay i h (mem_of_getElem? hnew)
  -- it is held in an earlier slot, which stands elsewhere too and so has an id
  obtain ⟨j, hj⟩ := mem_iff_getElem?.mp hheld
  have hji : j ≠ i := by
    rintro rfl
    rw [hj] at hplace
    exact hne (Option.some.inj hplace).symm
  have hlt_j : j < i := Nat.lt_of_le_of_ne (le_getElem?_of_ordered hsound.ordered hj) hji
  obtain ⟨⟨other, l⟩, hother, hl⟩ := Option.map_eq_some_iff.mp ((getElem?_map ..).symm.trans hj)
  dsimp only at hl
  subst l
  have hkept : (slots.replayed incoming).places[j]? = some i := by
    refine places_replayed_of_addressed hfills hother fun hid' => hji ?_
    exact (ih j hlt_j other i (by omega) hother hid').symm
  obtain ⟨hjlen, hjval⟩ := List.getElem?_eq_some_iff.mp hkept
  obtain ⟨hilen, hival⟩ := List.getElem?_eq_some_iff.mp hnew
  exact hji ((List.Nodup.getElem_inj_iff honce).mp (hjval.trans hival.symm))

theorem receives_of_kept (hsound : Sound gone slots) (hfills : Fills incoming)
    (haligned : (slots.replayed incoming).Aligned) (honce : (slots.replayed incoming).places.Nodup)
    (hstay : ∀ k ∈ gone, k ∈ (slots.replayed incoming).places → k ∈ slots.places) :
    Receives gone slots incoming := by
  have hanchored := anchored_of_kept hsound hfills honce hstay
  refine ⟨fun i descriptor k hlt hslot hwrites => ?_, fun i hend hlt => ?_⟩
  · rcases hwrites with hid | ⟨hblank, face, hlocator, hne⟩
    · exact hanchored i descriptor k hlt hslot hid
    · have hplace := haligned.live i face i ((faceAt_live_replayed hfills).mpr (.inr ⟨hblank, hlocator, hne, rfl⟩))
      rw [places_replayed hfills hanchored, places, getElem?_map, hslot] at hplace
      exact Option.some.inj hplace
  · have hnew := places_replayed_past hfills hlt hend
    have hnot : i ∉ slots.places := by
      intro hheld
      obtain ⟨j, hj⟩ := mem_iff_getElem?.mp hheld
      have hjlt : j < slots.places.length := (List.getElem?_eq_some_iff.mp hj).1
      have hkept : (slots.replayed incoming).places[j]? = some i := by
        rw [places_replayed hfills hanchored, hj, Option.some_or]
      obtain ⟨hjlen, hjval⟩ := List.getElem?_eq_some_iff.mp hkept
      obtain ⟨hilen, hival⟩ := List.getElem?_eq_some_iff.mp hnew
      have := (List.Nodup.getElem_inj_iff honce).mp (hjval.trans hival.symm)
      omega
    exact ⟨hnot, fun hgone => hnot (hstay i hgone (mem_of_getElem? hnew))⟩

/-! ### One event -/

/-- The attachments of the message that a row holds, if it is there. -/
def held (slots : Option AttachmentSlots) : List ℕ := (slots.map places).getD []

theorem sound_after {slots : Option AttachmentSlots} {event : AttachmentEvent}
    (hsound : ∀ x, slots = some x → Sound gone x) (h : InPlace gone slots event) {slots' : AttachmentSlots}
    (hafter : after slots event = some slots') : Sound (goneAfter gone slots event) slots' := by
  cases slots with
  | none =>
    cases event <;> cases hafter
    · exact sound_landed _
    · exact sound_archived (fun _ => rfl) h
  | some slots =>
    have hslots := hsound slots rfl
    cases event <;> cases hafter
    · exact hslots
    · next attachments locators =>
      split
      · next hrepair =>
        exact sound_archived (hslots.aligned.faceAt_live_of_nil hrepair.2) (h hrepair.1 hrepair.2)
      · exact hslots
    · next incoming =>
      by_cases hfills : Fills incoming
      · exact sound_replayed hfills (h hfills) hslots
      · rw [replayed, if_neg hfills]
        exact hslots
    · exact sound_echoed hslots h
    · exact sound_removed hslots _

/-- A merge in place brings nothing back. -/
theorem held_replayed {slots : Option AttachmentSlots} {incoming : List NormalizedAttachment}
    (h : InPlace gone slots (.replayed incoming)) (hgone : k ∈ gone)
    (hheld : k ∈ held (after slots (.replayed incoming))) : k ∈ held slots := by
  cases slots with
  | none => exact hheld
  | some slots =>
    change k ∈ (slots.replayed incoming).places at hheld
    by_cases hfills : Fills incoming
    · have hreceives := h hfills
      rcases (mem_places_replayed hfills hreceives.anchored).mp hheld with hold | ⟨hend, hlt⟩
      · exact hold
      · exact absurd hgone (hreceives.fresh k hend hlt).2
    · rwa [replayed, if_neg hfills] at hheld

theorem inPlace_of_kept {slots : Option AttachmentSlots} {event : AttachmentEvent}
    (hsound : ∀ x, slots = some x → Sound gone x) (haligned : ∀ x, after slots event = some x → x.Aligned)
    (honce : ∀ x, after slots event = some x → x.places.Nodup) (hstay : ∀ incoming, event = .replayed incoming →
      ∀ k ∈ gone, k ∈ held (after slots event) → k ∈ held slots) : InPlace gone slots event := by
  cases slots with
  | none =>
    cases event with
    | archived => exact paired_of_aligned (haligned _ rfl)
    | _ => trivial
  | some slots =>
    have hslots := hsound slots rfl
    cases event with
    | landed | removed => trivial
    | archived =>
      intro hne hnil
      have h := haligned _ rfl
      rw [if_pos ⟨hne, hnil⟩] at h
      exact paired_of_aligned h
    | replayed incoming =>
      exact fun hfills => receives_of_kept hslots hfills (haligned _ rfl) (honce _ rfl) (hstay incoming rfl)
    | echoed =>
      exact fun hlive i face hface hne hblank => place_of_aligned_echoed (haligned _ rfl) hlive hface hne hblank

end AttachmentSlots

/-! ### Runs -/

namespace Tracked

variable {id : String} {w : Tracked id} {op : AttachmentOp}

/-- Every locator stands by its attachment, none is held twice, and no replay has brought back a removed one. -/
structure KeepsSlots (w : Tracked id) (op : AttachmentOp) : Prop where
  aligned : ∀ slots, (w.step op).slots = some slots → slots.Aligned
  once : ∀ slots, (w.step op).slots = some slots → slots.places.Nodup
  stayGone : ∀ incoming, w.store.attachmentEvent id op = some (.replayed incoming) →
    ∀ k ∈ w.gone, k ∈ AttachmentSlots.held (w.step op).slots → k ∈ AttachmentSlots.held w.slots

/-- What the call brings to the row finds its slots in place. -/
def InPlace (w : Tracked id) (op : AttachmentOp) : Prop :=
  ∀ event, w.store.attachmentEvent id op = some event → AttachmentSlots.InPlace w.gone w.slots event

def Sound (w : Tracked id) : Prop := ∀ slots, w.slots = some slots → slots.Sound w.gone

theorem sound_step (hw : w.Sound) (h : w.InPlace op) : (w.step op).Sound := by
  intro slots hslots
  cases hevent : w.store.attachmentEvent id op with
  | none =>
    simp only [step, hevent, Option.elim_none] at hslots ⊢
    exact hw slots hslots
  | some event =>
    simp only [step, hevent, Option.elim_some] at hslots ⊢
    exact AttachmentSlots.sound_after hw (h event hevent) hslots

theorem keepsSlots_of_inPlace (hw : w.Sound) (h : w.InPlace op) : w.KeepsSlots op := by
  have hsound := sound_step hw h
  refine ⟨fun slots hslots => (hsound slots hslots).aligned, fun slots hslots => (hsound slots hslots).once,
    fun incoming hevent k hgone hheld => ?_⟩
  simp only [step, hevent, Option.elim_some] at hheld
  exact AttachmentSlots.held_replayed (h _ hevent) hgone hheld

theorem inPlace_of_keepsSlots (hw : w.Sound) (h : w.KeepsSlots op) : w.InPlace op := by
  intro event hevent
  have hslots : (w.step op).slots = AttachmentSlots.after w.slots event := by
    simp only [step, hevent, Option.elim_some]
  refine AttachmentSlots.inPlace_of_kept hw (fun x hx => h.aligned x (hslots.trans hx))
    (fun x hx => h.once x (hslots.trans hx)) fun incoming hreplay k hgone hheld => ?_
  exact h.stayGone incoming (hevent.trans (congrArg some hreplay)) k hgone (by rw [hslots]; exact hheld)

/-- **Slots and locators stay aligned exactly along the runs whose merges find their slots in place.** -/
theorem slots_aligned_iff (s : Store) (habsent : s.messages.find? id = none) (ops : List AttachmentOp) :
    Along step KeepsSlots (fresh s habsent) ops ↔ Along step InPlace (fresh s habsent) ops :=
  Along.iff_of_step Sound
    (fun _ _ hw _ => ⟨inPlace_of_keepsSlots hw, keepsSlots_of_inPlace hw⟩)
    (fun _ _ hw _ hkept => sound_step hw (inPlace_of_keepsSlots hw hkept)) ops _ (fun _ h => nomatch h)
    (Along.of_forall (fun _ _ => trivial) ops _)

/-- Account `a` with conversation `c`, and no message yet. -/
def unwritten : Store :=
  { Store.empty with
    accounts := .single (.ofAddress "a" "+15550100" "+1555***00" "default")
    conversations := .single (.ofPeer "c" "a" .direct "+15550101" "peer") }

def fromUnwritten : Tracked "m" := fresh unwritten rfl

def pointer (key : String) : AttachmentLocator := { AttachmentLocator.default with cdnKey := some key }

/-- An envelope with two attachments, each with its locator if the engine projects them. -/
def envelope (projected : Bool) : AttachmentOp :=
  .insertMessage
    { messageRecordFromRow (.ofText "m" "a" "c" .incoming "+15550101" 1000 "two pictures" .delivered) with
      attachments := [⟨⟨"x", none, none, none⟩, if projected then some (pointer "1") else none⟩,
        ⟨⟨"y", none, none, none⟩, if projected then some (pointer "2") else none⟩] }
    none none true 2000

def columns (ops : List AttachmentOp) : Option (List String × List AttachmentLocator) :=
  ((ops.foldl Store.attachmentStep unwritten).messages.find? "m").map fun row =>
    (((listCell row.attachments).getD []).map AttachmentInfo.id, (listCell row.liveAttachmentLocators).getD [])

/-- The envelope, its replay, and the removal of its first attachment. -/
theorem aligned_after_replay_and_removal : unwritten.messages.find? "m" = none ∧ Along step KeepsSlots fromUnwritten
        [envelope true, envelope true, .removeMessageAttachmentAt "a" "m" 0] := by
  refine ⟨rfl, (slots_aligned_iff unwritten rfl _).mpr ⟨?_, ?_, ?_, trivial⟩⟩
  · intro event hevent
    obtain rfl : _ = event := Option.some.inj hevent
    trivial
  · intro event hevent
    obtain rfl : _ = event := Option.some.inj hevent
    refine fun _ => ⟨fun i descriptor k hlt hslot _ => ?_, fun i hend hlt => ?_⟩
    · match i, hlt with
      | 0, _ | 1, _ => exact (congrArg Prod.snd (Option.some.inj hslot)).symm
    · exact absurd (Nat.lt_of_le_of_lt hend hlt) (by decide)
  · intro event hevent
    obtain rfl : _ = event := Option.some.inj hevent
    trivial

/-- After a removal a replay doubles the second attachment, or brings it back; and an echo shifts a locator. -/
theorem replay_after_removal_breaks_slots : (¬Along step KeepsSlots fromUnwritten
        [envelope true, .removeMessageAttachmentAt "a" "m" 0, envelope true] ∧
      columns [envelope true, .removeMessageAttachmentAt "a" "m" 0, envelope true] =
        some (["y", "y"], [pointer "2", pointer "2"])) ∧ (¬Along step KeepsSlots fromUnwritten
        [envelope true, .removeMessageAttachmentAt "a" "m" 1, envelope true] ∧
      columns [envelope true, .removeMessageAttachmentAt "a" "m" 1, envelope true] =
        some (["x", "y"], [pointer "1", pointer "2"])) ∧ (¬Along step KeepsSlots fromUnwritten
        [envelope false, .removeMessageAttachmentAt "a" "m" 0,
          .mergeLiveAttachmentLocators "a" "m" [some (pointer "1"), some (pointer "2")]] ∧
      columns [envelope false, .removeMessageAttachmentAt "a" "m" 0,
          .mergeLiveAttachmentLocators "a" "m" [some (pointer "1"), some (pointer "2")]] =
        some (["y"], [pointer "1", pointer "2"])) := by
  refine ⟨⟨fun h => ?_, by decide⟩, ⟨fun h => ?_, by decide⟩, ⟨fun h => ?_, by decide⟩⟩
  · exact absurd (h.2.2.1.once _ rfl) (by decide)
  · exact absurd (h.2.2.1.stayGone _ rfl 1 (by decide) (by decide)) (by decide)
  · exact absurd (h.2.2.1.aligned _ rfl).live fun hlive => absurd (hlive 0 (pointer "1") 0 (by decide)) (by decide)

end Tracked

end SignalConnector
