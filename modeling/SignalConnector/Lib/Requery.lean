/-
# Batches without a cursor

A pass over a backlog that asks for its first entries again in each round: an
entry that a round did not settle comes back in the next. The pass visits the
backlog once exactly when every full batch that another round follows is
settled to its last entry; otherwise an entry is visited a second time.
-/
import Mathlib

namespace SignalConnector

open List

variable {α : Type}

/-- The entries that are left when the visits, counted from `k`, have settled some. -/
def unsettledOf (settles : ℕ → α → Bool) : ℕ → List α → List α
  | _, [] => []
  | k, a :: l => if settles k a then unsettledOf settles (k + 1) l else a :: unsettledOf settles (k + 1) l

/-- The entries the pass visits, in order: a batch from the front in each round, until one is short. -/
def requery (size : ℕ) (settles : ℕ → α → Bool) : ℕ → ℕ → List α → List α
  | 0, _, _ => []
  | rounds + 1, k, l =>
    if l.length < size then l
    else l.take size ++
      requery size settles rounds (k + size) (unsettledOf settles k (l.take size) ++ l.drop size)

section Unsettled

variable {settles : ℕ → α → Bool}

theorem unsettledOf_sublist : ∀ (k : ℕ) (l : List α), (unsettledOf settles k l).Sublist l
  | _, [] => .slnil
  | k, a :: l => by
    unfold unsettledOf
    split
    · exact (unsettledOf_sublist (k + 1) l).cons a
    · exact (unsettledOf_sublist (k + 1) l).cons_cons a

/-- Nothing is left iff every visit has settled its entry. -/
theorem unsettledOf_eq_nil : ∀ {k : ℕ} {l : List α},
    unsettledOf settles k l = [] ↔ ∀ i a, l[i]? = some a → settles (k + i) a
  | k, [] => by simp [unsettledOf]
  | k, b :: l => by
    unfold unsettledOf
    constructor
    · intro h i a ha
      split at h
      · next hb =>
        rcases i with _ | i
        · obtain rfl : b = a := by simpa using ha
          exact hb
        · have hl := unsettledOf_eq_nil.mp h i a (by simpa using ha)
          rwa [Nat.add_right_comm] at hl
      · cases h
    · intro h
      have hb : settles k b := h 0 b rfl
      rw [if_pos hb]
      refine unsettledOf_eq_nil.mpr fun i a ha => ?_
      have hl := h (i + 1) a (by simpa using ha)
      rwa [← Nat.add_assoc, Nat.add_right_comm] at hl

end Unsettled

section Requery

variable {size : ℕ} {settles : ℕ → α → Bool}

theorem mem_of_mem_requery {a : α} : ∀ {rounds k : ℕ} {l : List α}, a ∈ requery size settles rounds k l → a ∈ l
  | 0, _, _, h => by cases h
  | rounds + 1, k, l, h => by
    unfold requery at h
    split at h
    · exact h
    · rcases mem_append.mp h with h | h
      · exact mem_of_mem_take h
      · rcases mem_append.mp (mem_of_mem_requery h) with h | h
        · exact mem_of_mem_take ((unsettledOf_sublist _ _).subset h)
        · exact mem_of_mem_drop h

/-- Each round visits the front of the backlog. -/
theorem mem_requery_of_mem_take {a : α} {rounds k : ℕ} {l : List α} (h : a ∈ l.take size) :
    a ∈ requery size settles (rounds + 1) k l := by
  unfold requery
  split
  · exact mem_of_mem_take h
  · exact mem_append_left _ h

theorem unsettledOf_of_none (hnone : ∀ k a, settles k a = false) : ∀ (k : ℕ) (l : List α), unsettledOf settles k l = l
  | _, [] => rfl
  | k, a :: l => by rw [unsettledOf, hnone, unsettledOf_of_none hnone (k + 1) l]; rfl

/-- Where no visit settles its entry, no round gets past the front. -/
theorem mem_take_of_mem_requery (hnone : ∀ k a, settles k a = false) {a : α} :
    ∀ {rounds k : ℕ} {l : List α}, a ∈ requery size settles rounds k l → a ∈ l.take size
  | 0, _, _, h => by cases h
  | rounds + 1, k, l, h => by
    unfold requery at h
    split at h
    · next hshort => rwa [take_of_length_le (Nat.le_of_lt hshort)]
    · rcases mem_append.mp h with h | h
      · exact h
      · rw [unsettledOf_of_none hnone, take_append_drop] at h
        exact mem_take_of_mem_requery hnone h

/-- Every entry is visited, and none twice. -/
def VisitsOnce (visited l : List α) : Prop := (∀ a ∈ l, a ∈ visited) ∧ visited.Nodup

/-- A batch that is settled to its last entry leaves the rest to the rounds that follow. -/
theorem visitsOnce_append_iff {batch rest visited : List α} (hnodup : (batch ++ rest).Nodup)
    (hvisited : ∀ a ∈ visited, a ∈ rest) : VisitsOnce (batch ++ visited) (batch ++ rest) ↔ VisitsOnce visited rest := by
  obtain ⟨hbatch, -, hdisjoint⟩ := nodup_append.mp hnodup
  constructor
  · rintro ⟨hall, honce⟩
    refine ⟨fun a ha => ?_, (nodup_append.mp honce).2.1⟩
    rcases mem_append.mp (hall a (mem_append_right _ ha)) with h | h
    · exact absurd rfl (hdisjoint a h a ha)
    · exact h
  · rintro ⟨hall, honce⟩
    refine ⟨fun a ha => ?_, nodup_append.mpr ⟨hbatch, honce, fun a ha b hb => hdisjoint a ha b (hvisited b hb)⟩⟩
    rcases mem_append.mp ha with h | h
    · exact mem_append_left _ h
    · exact mem_append_right _ (hall a h)

/-- **The pass visits the backlog once iff every full batch that a round follows is settled.** -/
theorem requery_once_iff (hsize : 0 < size) : ∀ {rounds k : ℕ} {l : List α}, l.Nodup → l.length ≤ size * rounds →
    (VisitsOnce (requery size settles rounds k l) l ↔
      ∀ i < size * min (l.length / size) (rounds - 1), ∀ a, l[i]? = some a → settles (k + i) a)
  | 0, k, l, hnodup, hlength => by
    obtain rfl : l = [] := length_eq_zero_iff.mp (by omega)
    simp [requery, VisitsOnce]
  | 1, k, l, hnodup, hlength => by
    -- nothing comes back in the only round
    have hall : l.take size = l := take_of_length_le (by omega)
    have hvisited : requery size settles 1 k l = l := by
      unfold requery
      split
      · rfl
      · rw [hall, requery, append_nil]
    simp [hvisited, VisitsOnce, hnodup]
  | rounds + 2, k, l, hnodup, hlength => by
    by_cases hshort : l.length < size
    · rw [requery, if_pos hshort, Nat.div_eq_of_lt hshort]
      simp [VisitsOnce, hnodup]
    rw [requery, if_neg hshort]
    have hfull : size ≤ l.length := Nat.not_lt.mp hshort
    have hquotient : l.length / size = (l.drop size).length / size + 1 := by
      rw [length_drop, ← Nat.add_div_right _ hsize, Nat.sub_add_cancel hfull]
    have hbound : size * min (l.length / size) (rounds + 2 - 1) =
        size + size * min ((l.drop size).length / size) (rounds + 1 - 1) := by
      rw [hquotient, show rounds + 2 - 1 = rounds + 1 - 1 + 1 by omega, Nat.add_min_add_right, Nat.mul_add, Nat.mul_one,
        Nat.add_comm]
    rw [hbound]
    by_cases hsettled : unsettledOf settles k (l.take size) = []
    · have hbatch : ∀ i < size, ∀ a, l[i]? = some a → settles (k + i) a := fun i hi a ha =>
        unsettledOf_eq_nil.mp hsettled i a (by rwa [getElem?_take_of_lt hi])
      have hrest : (l.drop size).length ≤ size * (rounds + 1) := by
        rw [length_drop]
        rw [Nat.mul_succ] at hlength
        omega
      have ih : VisitsOnce (requery size settles (rounds + 1) (k + size) (l.drop size)) (l.drop size) ↔ _ :=
        requery_once_iff hsize (hnodup.sublist (drop_sublist size l)) hrest
      have hsplit : VisitsOnce (l.take size ++ requery size settles (rounds + 1) (k + size) (l.drop size)) l ↔
          VisitsOnce (requery size settles (rounds + 1) (k + size) (l.drop size)) (l.drop size) := by
        have happend := take_append_drop size l
        nth_rewrite 3 [← happend]
        exact visitsOnce_append_iff (by rwa [happend]) fun a ha => mem_of_mem_requery ha
      rw [hsettled, nil_append, hsplit, ih]
      constructor
      · intro h i hi a ha
        by_cases hin : i < size
        · exact hbatch i hin a ha
        · have hlater := h (i - size) (by omega) a (by rw [getElem?_drop]; rwa [Nat.add_sub_cancel' (by omega)])
          rwa [Nat.add_assoc, Nat.add_sub_cancel' (by omega)] at hlater
      · intro h i hi a ha
        rw [getElem?_drop] at ha
        rw [Nat.add_assoc]
        exact h (size + i) (by omega) a ha
    · -- an entry of the batch is left, and the next round begins with it
      obtain ⟨a, ha⟩ := exists_mem_of_ne_nil _ hsettled
      have hsub : (unsettledOf settles k (l.take size)).Sublist (l.take size) := unsettledOf_sublist k _
      have hagain : a ∈ (unsettledOf settles k (l.take size) ++ l.drop size).take size := by
        have hfits : (unsettledOf settles k (l.take size)).length ≤ size :=
          Nat.le_trans hsub.length_le (length_take_le _ _)
        rw [take_append, take_of_length_le hfits]
        exact mem_append_left _ ha
      constructor
      · rintro ⟨-, honce⟩
        exact absurd rfl ((nodup_append.mp honce).2.2 a (hsub.subset ha) a (mem_requery_of_mem_take hagain))
      · intro h
        refine absurd (unsettledOf_eq_nil.mpr fun i a ha => ?_) hsettled
        have hi : i < size := by
          have hlt := (List.getElem?_eq_some_iff.mp ha).1
          rw [length_take] at hlt
          omega
        exact h i (by omega) a (by rwa [getElem?_take_of_lt hi] at ha)

end Requery

end SignalConnector
