/-
# Ranks

The rank of an element is the number of elements at or before it. A cap rule
deletes elements whose rank is over a bound; taking some of them away brings no
other one under the bound, so such deletions may be done in any portions.
-/
import SignalConnector.Lib.Tally

namespace SignalConnector

open List

variable {α : Type}

/-- The number of elements of the list at or before `a`. -/
def rank (before : α → α → Prop) [DecidableRel before] (l : List α) (a : α) : ℕ := l.countP fun x => before x a

section Order

variable {before : α → α → Prop} [DecidableRel before] {l : List α}

theorem rank_filter_le (p : α → Bool) (a : α) : rank before (l.filter p) a ≤ rank before l a :=
  filter_sublist.countP_le

/-- What comes strictly before has a smaller rank. -/
theorem rank_lt_rank (hrefl : ∀ a, before a a) (htrans : ∀ a b c, before a b → before b c → before a c)
    (hanti : ∀ a ∈ l, ∀ b ∈ l, before a b → before b a → a = b) {a b : α} (ha : a ∈ l) (hb : b ∈ l)
    (hab : before a b) (hne : a ≠ b) : rank before l a < rank before l b := by
  refine countP_lt_countP (fun x _ hx => ?_) hb ?_ ?_
  · simpa using htrans x a b (by simpa using hx) hab
  · simpa using hrefl b
  · simpa using fun hba => hne (hanti a ha b hb hab hba)

/-- Without one element a count is at most one smaller. -/
theorem countP_le_countP_ne_succ [DecidableEq α] (hnd : l.Nodup) (p : α → Bool) (a : α) :
    l.countP p ≤ (l.countP fun x => p x && x ≠ a) + 1 := by
  by_cases ha : a ∈ l
  · obtain ⟨front, back, rfl⟩ := append_of_mem ha
    have hfresh : ∀ x ∈ front ++ back, x ≠ a := by
      rintro x hx rfl
      exact (nodup_cons.mp (nodup_middle.mp hnd)).1 hx
    have hkeep : ∀ part : List α, (∀ x ∈ part, x ≠ a) → part.countP p = part.countP fun x => p x && x ≠ a :=
      fun part hpart => countP_congr fun x hx => by simp [hpart x hx]
    have hfront := hkeep front fun x hx => hfresh x (mem_append_left _ hx)
    have hback := hkeep back fun x hx => hfresh x (mem_append_right _ hx)
    have hone : (a :: back).countP p ≤ back.countP p + 1 := by
      rw [countP_cons]
      split <;> omega
    have hmore : (back.countP fun x => p x && x ≠ a) ≤ (a :: back).countP fun x => p x && x ≠ a :=
      (sublist_cons_self a back).countP_le
    rw [countP_append, countP_append]
    omega
  · have hsame : l.countP p = l.countP fun x => p x && x ≠ a :=
      countP_congr fun x hx => by simp [show x ≠ a from fun h => ha (h ▸ hx)]
    omega

/-- Taking away elements over the bound brings no other one under it. -/
theorem lt_rank_filter [DecidableEq α] (hnd : l.Nodup) (hrefl : ∀ a, before a a)
    (htrans : ∀ a b c, before a b → before b c → before a c)
    (hanti : ∀ a ∈ l, ∀ b ∈ l, before a b → before b a → a = b) {gone : α → Bool} {n : ℕ}
    (hgone : ∀ a ∈ l, gone a → n < rank before l a) {a : α} (ha : a ∈ l) (hstays : gone a = false)
    (hover : n < rank before l a) : n < rank before (l.filter fun x => !gone x) a := by
  by_cases hsome : ∃ x ∈ l, gone x ∧ before x a
  · -- the first of those that go: all before it stay, and so does `a` behind it
    obtain ⟨x, ⟨hx, hxgone, hxa⟩, hfirst⟩ :=
      (measure (rank before l)).wf.has_min {x | x ∈ l ∧ gone x ∧ before x a} hsome
    have hax : ¬before a x := fun hax => by
      rw [hanti a ha x hx hax hxa, hxgone] at hstays
      cases hstays
    have hbehind : (l.countP fun y => before y x && y ≠ x) < l.countP fun y => before y a && !gone y := by
      refine countP_lt_countP (fun y hy hyx => ?_) ha ?_ ?_
      · obtain ⟨hyx, hne⟩ : before y x ∧ y ≠ x := by simpa using hyx
        have hya := htrans y x a hyx hxa
        have hkept : gone y = false := Bool.eq_false_iff.mpr fun hg =>
          hfirst y ⟨hy, hg, hya⟩ (rank_lt_rank hrefl htrans hanti hy hx hyx hne)
        simp [hya, hkept]
      · simp [hrefl a, hstays]
      · simp [hax]
    have hone := countP_le_countP_ne_succ hnd (fun y => before y x) x
    have hbound := hgone x hx hxgone
    unfold rank at hbound ⊢
    rw [countP_filter]
    omega
  · have hsame : rank before (l.filter fun x => !gone x) a = rank before l a := by
      unfold rank
      rw [countP_filter]
      refine countP_congr fun x hx => ?_
      have hnot : gone x = true → ¬before x a := fun hg hb => hsome ⟨x, hx, hg, hb⟩
      simpa using fun hb => by simpa using fun hg => hnot hg hb
    rwa [hsame]

end Order

/-- The head of a selection is the head of the list iff the selection takes all of it. -/
theorem take_filter_iff (p : α → Bool) (l : List α) (n : ℕ) :
    (l.filter p).take n = l.take n ↔ ∀ a ∈ l.take n, p a := by
  constructor
  · intro h a ha
    rw [← h] at ha
    exact (mem_filter.mp (mem_of_mem_take ha)).2
  · induction l generalizing n with
    | nil => simp
    | cons a l ih =>
      intro h
      cases n with
      | zero => rfl
      | succ n =>
        rw [take_succ_cons] at h ⊢
        have ha := h a mem_cons_self
        rw [filter_cons_of_pos ha, take_succ_cons, ih n fun b hb => h b (mem_cons_of_mem _ hb)]

end SignalConnector
