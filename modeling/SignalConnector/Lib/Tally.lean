/-
# Sums over the groups of a table

`SUM(weight) … WHERE group = g` over the rows of a table, and how it moves
when a statement names one row: an update of the row exchanges its weight, a
delete takes it away, and a row that is appended brings its own.
-/
import SignalConnector.Lib.Table

namespace SignalConnector

open List

variable {R K G : Type} [DecidableEq G] {key : R → K} (group : R → G) (weight : R → ℕ)

/-- The sum of the weights of the group's rows. -/
def tally (rows : List R) (g : G) : ℕ := ((rows.filter fun r => group r = g).map weight).sum

/-- What one row adds to a group's sum. -/
def share (r : R) (g : G) : ℕ := if group r = g then weight r else 0

theorem tally_cons (r : R) (rows : List R) (g : G) :
    tally group weight (r :: rows) g = share group weight r g + tally group weight rows g := by
  unfold tally share
  by_cases h : group r = g <;> simp [h]

theorem tally_append (rows rows' : List R) (g : G) :
    tally group weight (rows ++ rows') g = tally group weight rows g + tally group weight rows' g := by
  simp [tally]

/-- A row-wise change that moves no group and no weight moves no sum. -/
theorem tally_map {rows : List R} {f : R → R}
    (h : ∀ r ∈ rows, group (f r) = group r ∧ weight (f r) = weight r) (g : G) :
    tally group weight (rows.map f) g = tally group weight rows g := by
  induction rows with
  | nil => rfl
  | cons r rows ih =>
    obtain ⟨hgroup, hweight⟩ := h r mem_cons_self
    rw [map_cons, tally_cons, tally_cons, ih fun x hx => h x (mem_cons_of_mem _ hx)]
    simp [share, hgroup, hweight]

/-- The sum over some columns of the rows is the sum over the rows. -/
theorem tally_view {S : Type} (π : S → R) (rows : List S) (g : G) :
    tally group weight (rows.map π) g = tally (group ∘ π) (weight ∘ π) rows g := by
  simp [tally, filter_map, Function.comp_def]

namespace Table

/-- A row stands alone between rows of other keys. -/
theorem exists_split (t : Table key) {r : R} (hr : r ∈ t.rows) :
    ∃ l l', t.rows = l ++ r :: l' ∧ (∀ x ∈ l, key x ≠ key r) ∧ ∀ x ∈ l', key x ≠ key r := by
  obtain ⟨l, l', hrows⟩ := append_of_mem hr
  have hnd := t.nodup
  rw [hrows, map_append, map_cons, nodup_middle, nodup_cons] at hnd
  have hfresh : ∀ x ∈ l ++ l', key x ≠ key r := fun x hx hkey =>
    hnd.1 (hkey ▸ map_append ▸ mem_map_of_mem hx)
  exact ⟨l, l', hrows, fun x hx => hfresh x (mem_append_left _ hx),
    fun x hx => hfresh x (mem_append_right _ hx)⟩

theorem tally_update_one (t : Table key) (p : R → Bool) (f : R → R) {r : R} (hr : r ∈ t.rows)
    (hp : ∀ x ∈ t.rows, p x ↔ key x = key r) (g : G) :
    tally group weight (t.rows.map fun x => if p x then f x else x) g + share group weight r g =
      tally group weight t.rows g + share group weight (f r) g := by
  obtain ⟨l, l', hrows, hl, hl'⟩ := t.exists_split hr
  have hkeep : ∀ rows ⊆ t.rows, (∀ x ∈ rows, key x ≠ key r) →
      rows.map (fun x => if p x then f x else x) = rows := by
    intro rows hsub hne
    refine (map_congr_left fun x hx => ?_).trans (map_id _)
    exact if_neg fun h => hne x hx ((hp x (hsub hx)).mp h)
  have hleft := hkeep l (by simp [hrows]) hl
  have hright := hkeep l' (by simp [hrows]) hl'
  rw [hrows, map_append, map_cons, hleft, hright, if_pos ((hp r hr).mpr rfl),
    tally_append, tally_append, tally_cons, tally_cons]
  omega

theorem tally_delete_one (t : Table key) (p : R → Bool) {r : R} (hr : r ∈ t.rows)
    (hp : ∀ x ∈ t.rows, p x ↔ key x = key r) (g : G) :
    tally group weight (t.delete p).rows g + share group weight r g = tally group weight t.rows g := by
  obtain ⟨l, l', hrows, hl, hl'⟩ := t.exists_split hr
  have hkeep : ∀ rows ⊆ t.rows, (∀ x ∈ rows, key x ≠ key r) → rows.filter (fun x => !p x) = rows := by
    intro rows hsub hne
    refine filter_eq_self.mpr fun x hx => ?_
    simpa using mt (hp x (hsub hx)).mp (hne x hx)
  have hleft := hkeep l (by simp [hrows]) hl
  have hright := hkeep l' (by simp [hrows]) hl'
  rw [rows_delete, hrows, filter_append, filter_cons_of_neg (by simp [(hp r hr).mpr rfl]),
    hleft, hright, tally_append, tally_append, tally_cons]
  omega

end Table

/-- A count under a stronger condition that one member fails is smaller. -/
theorem countP_lt_countP {α : Type} {p q : α → Bool} {l : List α} (h : ∀ a ∈ l, p a → q a) {a : α} (ha : a ∈ l)
    (hq : q a) (hp : ¬p a) : l.countP p < l.countP q := by
  obtain ⟨before, after, rfl⟩ := append_of_mem ha
  have hbefore : before.countP p ≤ before.countP q := countP_mono_left fun x hx => h x (by simp [hx])
  have hafter : after.countP p ≤ after.countP q := countP_mono_left fun x hx => h x (by simp [hx])
  rw [countP_append, countP_append, countP_cons_of_neg hp, countP_cons_of_pos hq]
  omega

end SignalConnector
