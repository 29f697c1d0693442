/-
# Bounded logs

A log is a list of entries under increasing numbers. A new entry goes to its
end, and after that only the newest `n` are kept. SQL keeps them by deleting
the entries whose number is not among the first `n` in descending order
(`sort_kept`); whatever was deleted on the way, the log is at each time the last
`n` entries of all that were written (`rtake_rtake_append`).
-/
import SignalConnector.Lib.Select

namespace SignalConnector

open List

variable {α : Type} {key : α → ℕ} {l : List α}

/-- Entries under different numbers have one order. -/
theorem eq_of_sorted_perm {l₁ l₂ : List α} (h₁ : l₁.Pairwise fun a b => key a ≤ key b)
    (h₂ : l₂.Pairwise fun a b => key a ≤ key b) (hperm : l₁.Perm l₂) (hnd : (l₁.map key).Nodup) : l₁ = l₂ :=
  hperm.eq_of_pairwise (fun _ _ ha hb hab hba =>
    inj_on_of_nodup_map hnd ha (hperm.mem_iff.mpr hb) (le_antisymm hab hba)) h₁ h₂

/-- An entry under a new highest number comes last. -/
theorem sort_concat (hnd : (l.map key).Nodup) {a : α} (ha : ∀ x ∈ l, key x < key a) :
    (l ++ [a]).insertionSort (fun a b => key a ≤ key b) = l.insertionSort (fun a b => key a ≤ key b) ++ [a] := by
  have hperm := perm_insertionSort (fun a b => key a ≤ key b) l
  refine eq_of_sorted_perm (pairwise_insertionSort _ _) ?_
    ((perm_insertionSort _ _).trans (hperm.symm.append_right [a])) ?_
  · refine pairwise_append.mpr ⟨pairwise_insertionSort _ _, pairwise_singleton _ _, fun x hx b hb => ?_⟩
    rw [mem_singleton.mp hb]
    exact (ha x (hperm.mem_iff.mp hx)).le
  · rw [((perm_insertionSort _ _).map key).nodup_iff, map_append, nodup_append]
    refine ⟨hnd, nodup_singleton _, fun k hk k' hk' hkk' => ?_⟩
    obtain ⟨x, hx, rfl⟩ := mem_map.mp hk
    rw [mem_singleton.mp hk'] at hkk'
    exact (ha x hx).ne hkk'

theorem map_rtake {β : Type} (f : α → β) (l : List α) (n : ℕ) : (l.map f).rtake n = (l.rtake n).map f := by
  rw [List.rtake, List.rtake, length_map, map_drop]

/-- The last entries of a log are those under the last numbers. -/
theorem filter_mem_rtake (hnd : (l.map key).Nodup) (n : ℕ) :
    l.filter (fun a => key a ∈ (l.map key).rtake n) = l.rtake n := by
  rw [map_rtake]
  have hsplit : l.take (l.length - n) ++ l.rtake n = l := take_append_drop _ l
  have hdisjoint : ∀ a ∈ l.take (l.length - n), key a ∉ (l.rtake n).map key := fun a ha hmem => by
    rw [← hsplit, map_append, nodup_append] at hnd
    exact hnd.2.2 (key a) (mem_map_of_mem ha) (key a) hmem rfl
  calc l.filter (fun a => key a ∈ (l.rtake n).map key)
      = (l.take (l.length - n)).filter (fun a => key a ∈ (l.rtake n).map key) ++
          (l.rtake n).filter (fun a => key a ∈ (l.rtake n).map key) := by rw [← filter_append, hsplit]
    _ = [] ++ l.rtake n := by
        rw [filter_eq_nil_iff.mpr fun a ha => by simpa using hdisjoint a ha,
          filter_eq_self.mpr fun a ha => decide_eq_true (mem_map_of_mem ha)]
    _ = l.rtake n := nil_append _

/-- **Deleting all but the first `n` in descending order keeps the last `n`.** -/
theorem sort_kept (hnd : (l.map key).Nodup) (n : ℕ) :
    ((l.filter fun a => key a ∈ ((l.map key).insertionSort fun a b => b ≤ a).take n).insertionSort
      fun a b => key a ≤ key b) = (l.insertionSort fun a b => key a ≤ key b).rtake n := by
  have hperm := (perm_insertionSort (fun a b => key a ≤ key b) l).map key
  have hsorted : (l.insertionSort fun a b => key a ≤ key b).Pairwise fun a b => key a ≤ key b :=
    pairwise_insertionSort _ _
  have hdescending : ((l.map key).insertionSort fun a b => b ≤ a) =
      ((l.insertionSort fun a b => key a ≤ key b).map key).reverse := by
    refine ((perm_insertionSort _ _).trans (hperm.symm.trans (reverse_perm _).symm)).eq_of_pairwise
      (fun a b _ _ hab hba => le_antisymm hba hab) (pairwise_insertionSort _ _) ?_
    rw [pairwise_reverse, pairwise_map]
    exact hsorted
  have hkept : ∀ a, key a ∈ ((l.map key).insertionSort fun a b => b ≤ a).take n ↔
      key a ∈ ((l.insertionSort fun a b => key a ≤ key b).map key).rtake n := fun a => by
    rw [hdescending, rtake_eq_reverse_take_reverse, mem_reverse]
  simp only [hkept]
  rw [insertionSort_filter, filter_mem_rtake (hperm.nodup_iff.mpr hnd)]

/-- What was dropped earlier would be dropped later. -/
theorem rtake_rtake_append (n : ℕ) (l r : List α) : (l.rtake n ++ r).rtake n = (l ++ r).rtake n := by
  simp only [rtake_eq_reverse_take_reverse, reverse_append, reverse_reverse, take_append,
    take_take, Nat.min_eq_left (Nat.sub_le n _)]

theorem length_rtake_le (l : List α) (n : ℕ) : (l.rtake n).length ≤ n := by
  rw [List.rtake, length_drop]
  omega

theorem rtake_of_length_le {n : ℕ} (h : l.length ≤ n) : l.rtake n = l := by
  rw [List.rtake, Nat.sub_eq_zero_of_le h, drop_zero]

end SignalConnector
