/-
# Ordered selections

`ORDER BY f, g LIMIT n` is the head of a list sorted by `lexLe f g`. A row is
among the first `n` exactly when fewer than `n` rows come before it, which says
what was selected without saying how it was sorted.
-/
import Mathlib

namespace SignalConnector

open List

variable {α : Type} {r : α → α → Prop} [DecidableRel r]

theorem mem_take_of_pairwise [DecidableEq α] {a : α} :
    ∀ (l : List α) (n : ℕ), l.Pairwise r → l.Nodup → (∀ b ∈ l, r a b → r b a → a = b) → a ∈ l →
      (a ∈ l.take n ↔ l.countP (fun b => r b a ∧ b ≠ a) < n)
  | [], _, _, _, _, ha => by cases ha
  | x :: l, 0, _, _, _, _ => by simp
  | x :: l, n + 1, hsorted, hnd, hanti, ha => by
    obtain ⟨hx, hsorted⟩ := pairwise_cons.mp hsorted
    obtain ⟨hfresh, hnd⟩ := nodup_cons.mp hnd
    rw [take_succ_cons, mem_cons]
    by_cases hax : a = x
    · subst hax
      have hzero : l.countP (fun b => r b a ∧ b ≠ a) = 0 := by
        refine countP_eq_zero.mpr fun b hb => ?_
        rw [decide_eq_true_eq]
        rintro ⟨hba, hne⟩
        exact hne (hanti b (mem_cons_of_mem _ hb) (hx b hb) hba).symm
      rw [countP_cons_of_neg (by simp), hzero]
      simp
    · have hal := (mem_cons.mp ha).resolve_left hax
      have hrest := mem_take_of_pairwise l n hsorted hnd
        (fun b hb => hanti b (mem_cons_of_mem _ hb)) hal
      have hcount : (x :: l).countP (fun b => r b a ∧ b ≠ a) =
          l.countP (fun b => r b a ∧ b ≠ a) + 1 :=
        countP_cons_of_pos (decide_eq_true ⟨hx a hal, Ne.symm hax⟩)
      rw [hcount, hrest]
      simp [hax]

/-- **`ORDER BY r LIMIT n`.** A member is selected if and only if fewer than `n` members come before it. -/
theorem mem_take_insertionSort [DecidableEq α] [Std.Total r] [IsTrans α r] {l : List α} (hnd : l.Nodup)
    {a : α} (hanti : ∀ b ∈ l, r a b → r b a → a = b) (n : ℕ) :
    a ∈ (l.insertionSort r).take n ↔ a ∈ l ∧ l.countP (fun b => r b a ∧ b ≠ a) < n := by
  have hperm := perm_insertionSort r l
  by_cases ha : a ∈ l
  · rw [mem_take_of_pairwise _ n (pairwise_insertionSort r l) (hperm.nodup_iff.mpr hnd)
      (fun b hb => hanti b (hperm.mem_iff.mp hb)) (hperm.mem_iff.mpr ha), hperm.countP_eq]
    simp [ha]
  · simp only [ha, false_and, iff_false]
    exact fun h => ha (hperm.mem_iff.mp (mem_of_mem_take h))

theorem filter_orderedInsert [IsTrans α r] (p : α → Bool) (a : α) : ∀ {l : List α}, l.Pairwise r →
      (l.orderedInsert r a).filter p = if p a then (l.filter p).orderedInsert r a else l.filter p
  | [], _ => by by_cases ha : p a <;> simp [ha]
  | b :: l, hl => by
    obtain ⟨hb, hl'⟩ := pairwise_cons.mp hl
    by_cases hab : r a b
    · rw [orderedInsert_cons_of_le r l hab, filter_cons]
      split
      · -- `a` comes before all that the selection keeps
        have hfirst : ∀ c ∈ (b :: l).filter p, r a c := fun c hc => by
          rcases mem_cons.mp (mem_of_mem_filter hc) with rfl | hc
          · exact hab
          · exact IsTrans.trans _ _ _ hab (hb c hc)
        rcases hkept : (b :: l).filter p with _ | ⟨c, kept⟩
        · rfl
        · rw [orderedInsert_cons_of_le r kept (hfirst c (hkept ▸ mem_cons_self))]
      · rfl
    · rw [orderedInsert_cons, if_neg hab, filter_cons, filter_orderedInsert p a hl', filter_cons]
      by_cases ha : p a <;> by_cases hpb : p b <;> simp [ha, hpb, hab]

/-- A selection of the rows is sorted as the rows are. -/
theorem insertionSort_filter [Std.Total r] [IsTrans α r] (p : α → Bool) :
    ∀ l : List α, (l.filter p).insertionSort r = (l.insertionSort r).filter p
  | [] => rfl
  | a :: l => by
    rw [insertionSort_cons, filter_orderedInsert p a (pairwise_insertionSort r l),
      ← insertionSort_filter p l, filter_cons]
    split <;> rfl

/-- Rows that come first by the order come first in the sorted list. -/
theorem insertionSort_append [Std.Total r] [IsTrans α r] (p : α → Bool) {l : List α}
    (hfirst : ∀ a ∈ l, ∀ b ∈ l, r a b → p b → p a) :
    (l.filter p).insertionSort r ++ (l.filter fun a => !p a).insertionSort r = l.insertionSort r := by
  rw [insertionSort_filter, insertionSort_filter]
  have hsorted : (l.insertionSort r).Pairwise fun a b => p b → p a :=
    (pairwise_insertionSort r l).imp_of_mem fun ha hb =>
      hfirst _ ((mem_insertionSort r).mp ha) _ ((mem_insertionSort r).mp hb)
  generalize l.insertionSort r = sorted at hsorted
  induction sorted with
  | nil => rfl
  | cons a sorted ih =>
    obtain ⟨ha, hsorted⟩ := pairwise_cons.mp hsorted
    by_cases hpa : p a
    · simp [hpa, ih hsorted]
    · have hnone : sorted.filter p = [] := filter_eq_nil_iff.mpr fun b hb hpb => hpa (ha b hb hpb)
      rw [← ih hsorted]
      simp [hpa, hnone]

/-- The first answer of a selection. -/
theorem findSome?_filter {β : Type} (p : α → Bool) (f : α → Option β) (l : List α) :
    (l.filter p).findSome? f = l.findSome? fun a => if p a then f a else none := by
  induction l with
  | nil => rfl
  | cons a l ih =>
    by_cases h : p a <;> simp [findSome?_cons, h, ih]

/-- Where a list is in order by two relations, the first implies the second between its members. -/
theorem rel_of_pairwise {r q : α → α → Prop} {l : List α} (hr : l.Pairwise r) (hq : l.Pairwise q)
    (hanti : ∀ a b, r a b → r b a → a = b) (hrefl : ∀ a, q a a) {a b : α} (ha : a ∈ l) (hb : b ∈ l) (hab : r a b) :
    q a b := by
  have hforward : l.Pairwise fun a b => r a b → q a b := hq.imp fun {x y} h (_ : r x y) => h
  have hbackward : l.Pairwise (flip fun a b => r a b → q a b) := hr.imp fun {x y} hxy hyx => by
    rw [hanti x y hxy hyx]
    exact hrefl y
  exact hforward.forall_of_forall_of_flip (fun x _ _ => hrefl x) hbackward ha hb hab

/-! ### Two sort columns -/

section Lex

variable {β γ : Type} [LinearOrder β] [LE γ] {f : α → β} {g : α → γ}

/-- `ORDER BY f, g`. -/
def lexLe (f : α → β) (g : α → γ) (a b : α) : Prop := f a < f b ∨ (f a = f b ∧ g a ≤ g b)

instance [DecidableLE γ] : DecidableRel (lexLe f g) := fun a b =>
  inferInstanceAs (Decidable (f a < f b ∨ (f a = f b ∧ g a ≤ g b)))

variable [Std.IsLinearOrder γ]

instance : Std.Total (lexLe f g) := ⟨fun a b => by
  rcases lt_trichotomy (f a) (f b) with h | h | h
  · exact .inl (.inl h)
  · rcases Std.le_total (a := g a) (b := g b) with hg | hg
    · exact .inl (.inr ⟨h, hg⟩)
    · exact .inr (.inr ⟨h.symm, hg⟩)
  · exact .inr (.inl h)⟩

instance : IsTrans α (lexLe f g) := ⟨fun a b c hab hbc => by
  rcases hab with hab | ⟨hab, hg⟩ <;> rcases hbc with hbc | ⟨hbc, hg'⟩
  · exact .inl (hab.trans hbc)
  · exact .inl (hbc ▸ hab)
  · exact .inl (hab ▸ hbc)
  · exact .inr ⟨hab.trans hbc, Std.le_trans hg hg'⟩⟩

instance : Std.Total (fun a b : α => lexLe f g b a) := ⟨fun a b => Std.Total.total b a⟩

instance : IsTrans α (fun a b => lexLe f g b a) := ⟨fun _ _ _ hab hbc => IsTrans.trans _ _ _ hbc hab⟩

omit [Std.IsLinearOrder γ] in
theorem lexLe_antisymm_fst {a b : α} (hab : lexLe f g a b) (hba : lexLe f g b a) : f a = f b := by
  rcases hab with hab | ⟨hab, -⟩ <;> rcases hba with hba | ⟨hba, -⟩
  · exact absurd hba (lt_asymm hab)
  · exact hba.symm
  · exact hab
  · exact hab

theorem lexLe_antisymm {a b : α} (hab : lexLe f g a b) (hba : lexLe f g b a) : g a = g b := by
  rcases hab with hab | ⟨hab, hg⟩ <;> rcases hba with hba | ⟨hba, hg'⟩
  · exact absurd hba (lt_asymm hab)
  · exact absurd hab (by simp [hba])
  · exact absurd hba (by simp [hab])
  · exact Std.le_antisymm hg hg'

section Strict

variable [LT γ] [Std.LawfulOrderLT γ]

/-- `f, g` strictly increase. -/
def lexLt (f : α → β) (g : α → γ) (a b : α) : Prop := f a < f b ∨ (f a = f b ∧ g a < g b)

omit [Std.IsLinearOrder γ] in
theorem lexLt_iff {a b : α} : lexLt f g a b ↔ lexLe f g a b ∧ ¬lexLe f g b a := by
  unfold lexLt lexLe
  rcases lt_trichotomy (f a) (f b) with h | h | h
  · simp [h, h.not_gt, h.ne']
  · simp [h, Std.lt_iff_le_and_not_ge]
  · simp [h, h.not_gt, h.ne']

end Strict

end Lex

end SignalConnector
