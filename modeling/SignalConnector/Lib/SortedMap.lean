/-
# Maps that are kept in the order of their keys

A map as the list of its entries, strictly ascending in the key, so that walking
the map walks it in key order. The order is part of the type.
-/
import Mathlib

namespace SignalConnector

open List

structure SortedMap (κ α : Type) [LinearOrder κ] where
  entries : List (κ × α)
  sorted : entries.Pairwise fun a b => a.1 < b.1

namespace SortedMap

variable {κ α β : Type} [LinearOrder κ] {k : κ} {f : Option α → α}

def empty : SortedMap κ α := ⟨[], .nil⟩

def find? (m : SortedMap κ α) (k : κ) : Option α := (m.entries.find? fun e => e.1 = k).map Prod.snd

/-- The entries with that of `k` made of what it was, or put in its place. -/
def alterEntries (k : κ) (f : Option α → α) : List (κ × α) → List (κ × α)
  | [] => [(k, f none)]
  | (k', a) :: rest =>
    if k < k' then (k, f none) :: (k', a) :: rest
    else if k = k' then (k', f (some a)) :: rest
    else (k', a) :: alterEntries k f rest

theorem fst_of_mem_alterEntries {l : List (κ × α)} {e : κ × α} (h : e ∈ alterEntries k f l) :
    e.1 = k ∨ ∃ e' ∈ l, e'.1 = e.1 := by
  induction l with
  | nil => exact .inl (by rw [mem_singleton.mp h])
  | cons head rest ih =>
    obtain ⟨k', a⟩ := head
    unfold alterEntries at h
    split_ifs at h with hlt heq
    · rcases mem_cons.mp h with rfl | h
      · exact .inl rfl
      · exact .inr ⟨e, h, rfl⟩
    · rcases mem_cons.mp h with rfl | h
      · exact .inl heq.symm
      · exact .inr ⟨e, mem_cons_of_mem _ h, rfl⟩
    · rcases mem_cons.mp h with rfl | h
      · exact .inr ⟨(k', a), mem_cons_self, rfl⟩
      · rcases ih h with hk | ⟨e', he', hfst⟩
        · exact .inl hk
        · exact .inr ⟨e', mem_cons_of_mem _ he', hfst⟩

theorem sorted_alterEntries {l : List (κ × α)} (h : l.Pairwise fun a b => a.1 < b.1) :
    (alterEntries k f l).Pairwise fun a b => a.1 < b.1 := by
  induction l with
  | nil => exact pairwise_singleton _ _
  | cons head rest ih =>
    obtain ⟨k', a⟩ := head
    obtain ⟨hhead, hrest⟩ := pairwise_cons.mp h
    unfold alterEntries
    split_ifs with hlt heq
    · refine pairwise_cons.mpr ⟨fun e he => ?_, h⟩
      rcases mem_cons.mp he with rfl | he
      · exact hlt
      · exact lt_trans hlt (hhead e he)
    · exact pairwise_cons.mpr ⟨hhead, hrest⟩
    · refine pairwise_cons.mpr ⟨fun e he => ?_, ih hrest⟩
      rcases fst_of_mem_alterEntries he with hk | ⟨e', he', hfst⟩
      · rw [hk]
        exact lt_of_le_of_ne (not_lt.mp hlt) (Ne.symm heq)
      · rw [← hfst]
        exact hhead e' he'

/-- The entry of `k` made of what it was: a `BTreeMap`'s entry, inserted if it is not there. -/
def alter (m : SortedMap κ α) (k : κ) (f : Option α → α) : SortedMap κ α :=
  ⟨alterEntries k f m.entries, sorted_alterEntries m.sorted⟩

/-- Every value made of its place in key order. -/
def mapIdx (m : SortedMap κ α) (f : ℕ → α → β) : SortedMap κ β where
  entries := m.entries.mapIdx fun i e => (e.1, f i e.2)
  sorted := by
    rw [pairwise_iff_getElem]
    intro i j hi hj hij
    rw [getElem_mapIdx, getElem_mapIdx]
    exact pairwise_iff_getElem.mp m.sorted i j _ _ hij

theorem find?_eq_some {m : SortedMap κ α} {a : α} : m.find? k = some a ↔ (k, a) ∈ m.entries := by
  unfold find?
  constructor
  · intro h
    obtain ⟨e, he, rfl⟩ := Option.map_eq_some_iff.mp h
    have hk : e.1 = k := by simpa using find?_some he
    rw [← hk]
    exact mem_of_find?_eq_some he
  · intro h
    rw [Option.map_eq_some_iff]
    refine ⟨(k, a), ?_, rfl⟩
    have hsorted := m.sorted
    generalize m.entries = l at h hsorted
    induction l with
    | nil => cases h
    | cons head rest ih =>
      obtain ⟨hhead, hrest⟩ := pairwise_cons.mp hsorted
      rcases mem_cons.mp h with rfl | h
      · simp
      · rw [find?_cons_of_neg (by simpa using ne_of_lt (hhead _ h))]
        exact ih h hrest

@[simp] theorem find?_empty (k : κ) : (empty : SortedMap κ α).find? k = none := rfl

theorem find?_alter (m : SortedMap κ α) (k k' : κ) (f : Option α → α) :
    (m.alter k f).find? k' = if k' = k then some (f (m.find? k)) else m.find? k' := by
  have hsorted := m.sorted
  unfold alter find?
  dsimp only
  generalize m.entries = l at hsorted
  induction l with
  | nil =>
    by_cases h : k' = k
    · simp [alterEntries, h]
    · simp [alterEntries, h, Ne.symm h]
  | cons head rest ih =>
    obtain ⟨k₀, a⟩ := head
    obtain ⟨hhead, hrest⟩ := pairwise_cons.mp hsorted
    unfold alterEntries
    by_cases hlt : k < k₀
    · have hfree : (((k₀, a) :: rest).find? fun e => e.1 = k) = none := by
        refine List.find?_eq_none.mpr fun e he => ?_
        rcases mem_cons.mp he with rfl | he
        · simpa using ne_of_gt hlt
        · simpa using ne_of_gt (lt_trans hlt (hhead e he))
      rw [if_pos hlt, hfree]
      by_cases h : k' = k
      · simp [h]
      · rw [if_neg h, find?_cons_of_neg (by simpa using Ne.symm h)]
    · rw [if_neg hlt]
      by_cases heq : k = k₀
      · subst heq
        rw [if_pos rfl]
        by_cases h : k' = k
        · simp [h]
        · rw [if_neg h, find?_cons_of_neg (by simpa using Ne.symm h),
            find?_cons_of_neg (by simpa using Ne.symm h)]
      · rw [if_neg heq]
        by_cases h₀ : k₀ = k'
        · have h : k' ≠ k := fun h => heq (h₀.trans h).symm
          simp [h₀, h]
        · rw [find?_cons_of_neg (by simpa using h₀), find?_cons_of_neg (by simpa using Ne.symm heq),
            find?_cons_of_neg (by simpa using h₀)]
          exact ih hrest

/-- Only one entry has a given key. -/
theorem length_filter_le_one (m : SortedMap κ α) {p : κ × α → Bool} (h : ∀ e ∈ m.entries, p e → e.1 = k) :
    (m.entries.filter p).length ≤ 1 := by
  have hkey : ∀ e ∈ m.entries.filter p, e.1 = k := fun e he =>
    h e (mem_filter.mp he).1 (mem_filter.mp he).2
  have hsorted := m.sorted.filter p
  rcases hlist : m.entries.filter p with _ | ⟨a, _ | ⟨b, rest⟩⟩
  · exact Nat.zero_le _
  · exact Nat.le_refl 1
  · rw [hlist] at hkey hsorted
    have hlt := (pairwise_cons.mp hsorted).1 b mem_cons_self
    rw [hkey a mem_cons_self, hkey b (mem_cons_of_mem _ mem_cons_self)] at hlt
    exact absurd hlt (lt_irrefl k)

/-- A value at its place. -/
theorem mem_mapIdx {m : SortedMap κ α} {f : ℕ → α → β} {e : κ × β} :
    e ∈ (m.mapIdx f).entries ↔ ∃ i a, m.entries[i]? = some (e.1, a) ∧ e.2 = f i a := by
  unfold mapIdx
  rw [List.mem_mapIdx]
  constructor
  · rintro ⟨i, hi, rfl⟩
    exact ⟨i, m.entries[i].2, getElem?_eq_getElem hi, rfl⟩
  · rintro ⟨i, a, hget, heq⟩
    obtain ⟨hi, hget⟩ := List.getElem?_eq_some_iff.mp hget
    exact ⟨i, hi, by rw [hget, ← heq]⟩

/-- The last entry with a property. -/
theorem find?_reverse_eq_some {m : SortedMap κ α} {p : κ × α → Bool} {e : κ × α} :
    m.entries.reverse.find? p = some e ↔ e ∈ m.entries ∧ p e ∧ ∀ e' ∈ m.entries, e.1 < e'.1 → p e' = false := by
  have hsorted : m.entries.reverse.Pairwise fun a b => b.1 < a.1 := pairwise_reverse.mpr m.sorted
  have hmem : ∀ e', e' ∈ m.entries ↔ e' ∈ m.entries.reverse := fun e' => mem_reverse.symm
  simp only [hmem]
  generalize m.entries.reverse = l at hsorted
  rw [find?_eq_some_iff_append]
  constructor
  · rintro ⟨hp, before, after, rfl, hbefore⟩
    refine ⟨mem_append_right _ mem_cons_self, hp, fun e' he' hlt => ?_⟩
    rcases mem_append.mp he' with he' | he'
    · simpa using hbefore e' he'
    · have hdesc := (pairwise_append.mp hsorted).2.1
      rcases mem_cons.mp he' with rfl | he'
      · exact absurd hlt (lt_irrefl _)
      · exact absurd (lt_trans hlt ((pairwise_cons.mp hdesc).1 e' he')) (lt_irrefl _)
  · rintro ⟨he, hp, hlast⟩
    obtain ⟨before, after, rfl⟩ := append_of_mem he
    refine ⟨hp, before, after, rfl, fun a ha => ?_⟩
    have hgt := (pairwise_append.mp hsorted).2.2 a ha e mem_cons_self
    simp [hlast a (mem_append_left _ ha) hgt]

end SortedMap

end SignalConnector
