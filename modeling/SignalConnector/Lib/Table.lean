/-
# Tables with a primary key

A table is a finite list of rows told apart by a key, and a row list in which
two rows share a key cannot be built. The statements of SQL that a store is
written with are its operations: `find?` (a select by key), `update`, `delete`
and `insertOrIgnore`. Seen through `find?` a table is a finite map, and each
operation has one equation there.
-/
import Mathlib

namespace SignalConnector

open List

/-- A list of rows, no two with the same key. -/
structure Table {R K : Type} (key : R → K) where
  rows : List R
  nodup : (rows.map key).Nodup

namespace Table

variable {R K : Type} {key : R → K}

theorem eq_of_rows {t u : Table key} (h : t.rows = u.rows) : t = u := by
  cases t; cases u; cases h; rfl

instance [DecidableEq R] : DecidableEq (Table key) := fun t u =>
  decidable_of_iff (t.rows = u.rows) ⟨eq_of_rows, fun h => h ▸ rfl⟩

def empty : Table key := ⟨[], nodup_nil⟩

def single (r : R) : Table key := ⟨[r], nodup_singleton _⟩

@[simp] theorem rows_single (r : R) : (single r : Table key).rows = [r] := rfl

instance : Inhabited (Table key) := ⟨empty⟩

@[simp] theorem rows_empty : (empty : Table key).rows = [] := rfl

theorem row_unique (t : Table key) {r r' : R} (hr : r ∈ t.rows) (hr' : r' ∈ t.rows) (h : key r = key r') : r = r' :=
  inj_on_of_nodup_map t.nodup hr hr' h

/-! ### Updating rows in place -/

/-- `UPDATE … SET f WHERE p`, for an assignment `f` that leaves the key alone. -/
def update (t : Table key) (p : R → Bool) (f : R → R) (hf : ∀ r, key (f r) = key r) : Table key where
  rows := t.rows.map fun r => if p r then f r else r
  nodup := by
    have : (t.rows.map fun r => if p r then f r else r).map key = t.rows.map key := by
      rw [map_map]
      refine map_congr_left fun r _ => ?_
      simp only [Function.comp_apply]
      split
      · exact hf r
      · rfl
    rw [this]
    exact t.nodup

@[simp] theorem rows_update (t : Table key) (p : R → Bool) (f : R → R) (hf : ∀ r, key (f r) = key r) :
    (t.update p f hf).rows = t.rows.map fun r => if p r then f r else r := rfl

/-- An update of one owner's rows is nothing to the rows of another. -/
theorem mem_update_of_owner_ne {O : Type} {t : Table key} {p : R → Bool} {f : R → R}
    {hf : ∀ r, key (f r) = key r} (owner : R → O) {o : O} (hp : ∀ r, p r = true → owner r = o)
    (hkeep : ∀ r, owner (f r) = owner r) {r : R} (hr : owner r ≠ o) : r ∈ (t.update p f hf).rows ↔ r ∈ t.rows := by
  rw [rows_update, mem_map]
  constructor
  · rintro ⟨x, hx, rfl⟩
    split at hr
    · next hpx => exact absurd ((hkeep x).trans (hp x hpx)) hr
    · next hpx =>
      rw [if_neg hpx]
      exact hx
  · exact fun h => ⟨r, h, if_neg fun hpr => hr (hp r hpr)⟩

/-- Two updates by one assignment are one, when the first takes its rows out of the second. -/
theorem update_update (t : Table key) (p q : R → Bool) (f : R → R) (hf : ∀ r, key (f r) = key r)
    (h : ∀ r, p r → q (f r) = false) : (t.update p f hf).update q f hf = t.update (fun r => p r || q r) f hf := by
  apply eq_of_rows
  rw [rows_update, rows_update, rows_update, map_map]
  refine map_congr_left fun r _ => ?_
  simp only [Function.comp_apply]
  by_cases hp : p r
  · simp [hp, h r hp]
  · simp [hp]

/-- `UPDATE … SET f WHERE p`, for an assignment that may write the key: it fails where two rows would share
one. -/
def rekey [DecidableEq K] (t : Table key) (p : R → Bool) (f : R → R) : Option (Table key) :=
  if h : ((t.rows.map fun r => if p r then f r else r).map key).Nodup then some ⟨_, h⟩ else none

/-! ### Deleting rows -/

/-- `DELETE … WHERE p`. -/
def delete (t : Table key) (p : R → Bool) : Table key where
  rows := t.rows.filter fun r => !p r
  nodup := (List.Sublist.map key filter_sublist).nodup t.nodup

@[simp] theorem rows_delete (t : Table key) (p : R → Bool) : (t.delete p).rows = t.rows.filter fun r => !p r := rfl

theorem delete_delete (t : Table key) (p q : R → Bool) : (t.delete p).delete q = t.delete fun r => p r || q r := by
  refine eq_of_rows ?_
  rw [rows_delete, rows_delete, rows_delete, filter_filter]
  exact filter_congr fun r _ => by rw [Bool.not_or, Bool.and_comm]

theorem mem_delete {t : Table key} {p : R → Bool} {r : R} : r ∈ (t.delete p).rows ↔ r ∈ t.rows ∧ p r = false := by
  simp [mem_filter]

/-! ### Views -/

section View

variable {S : Type} {key' : S → K}

/-- The table of some columns of every row, the key among them. -/
def view (t : Table key) (π : R → S) (h : ∀ r, key' (π r) = key r) : Table key' where
  rows := t.rows.map π
  nodup := by
    rw [map_map, show key' ∘ π = key from funext h]
    exact t.nodup

variable {π : R → S} {h : ∀ r, key' (π r) = key r}

@[simp] theorem rows_view (t : Table key) : (t.view π h).rows = t.rows.map π := rfl

variable {rows : List R} {p : R → Bool} {f : R → R} {q : S → Bool}

theorem view_rows_update {g : S → S} (hpq : ∀ r ∈ rows, p r = q (π r)) (hfg : ∀ r ∈ rows, p r → π (f r) = g (π r)) :
    (rows.map fun r => if p r then f r else r).map π =
      (rows.map π).map fun x => if q x then g x else x := by
  rw [map_map, map_map]
  refine map_congr_left fun r hr => ?_
  simp only [Function.comp_apply, ← hpq r hr]
  split
  · next hp => exact hfg r hr hp
  · rfl

/-- An update of other columns leaves the view alone. -/
theorem view_rows_same (hsame : ∀ r ∈ rows, p r → π (f r) = π r) :
    (rows.map fun r => if p r then f r else r).map π = rows.map π := by
  rw [map_map]
  refine map_congr_left fun r hr => ?_
  simp only [Function.comp_apply]
  split
  · next hp => exact hsame r hr hp
  · rfl

theorem view_rows_delete (hpq : ∀ r ∈ rows, p r = q (π r)) :
    (rows.filter fun r => !p r).map π = (rows.map π).filter fun x => !q x := by
  rw [filter_map]
  refine congrArg (List.map π) (filter_congr fun r hr => ?_)
  simp [hpq r hr]

end View

section Keyed

variable [DecidableEq K] {t : Table key}

/-! ### Reading -/

/-- `SELECT COUNT(*) … WHERE key = k`, of a key that is there. -/
theorem countP_key {r : R} {k : K} (hr : r ∈ t.rows) (hk : key r = k) :
    (t.rows.countP fun x => key x = k) = 1 := by
  have hone := count_eq_one_of_mem t.nodup (mem_map_of_mem hr)
  rw [hk, count_eq_countP, countP_map] at hone
  exact hone

/-- The row with key `k`. -/
def find? (t : Table key) (k : K) : Option R := t.rows.find? fun r => key r = k

theorem find?_eq_some {k : K} {r : R} : t.find? k = some r ↔ r ∈ t.rows ∧ key r = k := by
  constructor
  · intro h
    exact ⟨mem_of_find?_eq_some h, by simpa using find?_some h⟩
  · rintro ⟨hr, hk⟩
    have hs : (t.find? k).isSome := find?_isSome.mpr ⟨r, hr, by simpa using hk⟩
    obtain ⟨r', hr'⟩ := Option.isSome_iff_exists.mp hs
    have hk' : key r' = k := by simpa using find?_some hr'
    rw [hr', t.row_unique (mem_of_find?_eq_some hr') hr (hk'.trans hk.symm)]

/-- A search that pins the key finds the row of the key, if it finds anything there. -/
theorem find?_rows_of_key {p : R → Bool} {k : K} {r : R} (h : t.find? k = some r)
    (hp : p r = true) (hkey : ∀ r', p r' = true → key r' = k) : t.rows.find? p = some r := by
  obtain ⟨hr, hk⟩ := find?_eq_some.mp h
  obtain ⟨r', hr'⟩ := Option.isSome_iff_exists.mp (find?_isSome.mpr ⟨r, hr, hp⟩)
  rw [hr', t.row_unique (mem_of_find?_eq_some hr') hr ((hkey r' (find?_some hr')).trans hk.symm)]

theorem mem_iff_find? {r : R} : r ∈ t.rows ↔ t.find? (key r) = some r := by
  simp [find?_eq_some]

theorem find?_eq_none {k : K} : t.find? k = none ↔ ∀ r ∈ t.rows, key r ≠ k := by
  simp [find?, List.find?_eq_none]

theorem key_of_find? {k : K} {r : R} (h : t.find? k = some r) : key r = k :=
  (find?_eq_some.mp h).2

theorem find?_of_mem_iff {t u : Table key} (h : ∀ r, r ∈ t.rows ↔ r ∈ u.rows) (k : K) : t.find? k = u.find? k := by
  refine Option.ext fun r => ?_
  rw [find?_eq_some, find?_eq_some, h]

/-- `k IN (SELECT key … WHERE p)`. -/
theorem contains_keys_filter [BEq K] [LawfulBEq K] (t : Table key) (p : R → Bool) (k : K) :
    ((t.rows.filter p).map key).contains k = (t.find? k).any p := by
  rw [Bool.eq_iff_iff, contains_iff_mem, mem_map, Option.any_eq_true_iff_get]
  constructor
  · rintro ⟨r, hr, rfl⟩
    obtain ⟨hr, hp⟩ := mem_filter.mp hr
    have hfind := mem_iff_find?.mp hr
    exact ⟨by rw [hfind]; rfl, by simpa [hfind] using hp⟩
  · rintro ⟨hsome, hp⟩
    obtain ⟨r, hfind⟩ := Option.isSome_iff_exists.mp hsome
    obtain ⟨hr, hk⟩ := find?_eq_some.mp hfind
    exact ⟨r, mem_filter.mpr ⟨hr, by simpa [hfind] using hp⟩, hk⟩

/-- `SELECT … WHERE key = k` answers one row at most. -/
theorem filter_key (t : Table key) (k : K) : (t.rows.filter fun r => key r = k) = (t.find? k).toList := by
  have hnodup : (t.rows.filter fun r => key r = k).Nodup := (t.nodup.of_map _).filter _
  cases hfind : t.find? k with
  | none => exact filter_eq_nil_iff.mpr fun r hr => by simpa using find?_eq_none.mp hfind r hr
  | some r =>
    obtain ⟨hr, hk⟩ := find?_eq_some.mp hfind
    refine perm_singleton.mp ((perm_ext_iff_of_nodup hnodup (nodup_singleton r)).mpr fun x => ?_)
    rw [mem_filter, mem_singleton, decide_eq_true_eq]
    exact ⟨fun ⟨hx, hxk⟩ => t.row_unique hx hr (hxk.trans hk.symm), fun hx => hx ▸ ⟨hr, hk⟩⟩

theorem find?_update (t : Table key) (p : R → Bool) (f : R → R) (hf : ∀ r, key (f r) = key r) (k : K) :
    (t.update p f hf).find? k = (t.find? k).map fun r => if p r then f r else r := by
  have hkey : ∀ r, key (if p r then f r else r) = key r := fun r => by
    split
    · exact hf r
    · rfl
  simp [find?, find?_map, hkey]

theorem find?_delete (t : Table key) (p : R → Bool) (k : K) :
    (t.delete p).find? k = (t.find? k).filter fun r => !p r := by
  apply Option.ext
  intro r
  rw [find?_eq_some, mem_delete, Option.filter_eq_some_iff, find?_eq_some]
  simp only [Bool.not_eq_true']
  tauto

/-! ### Inserting -/

/-- `INSERT OR IGNORE` on the primary key: a row whose key is taken is dropped. -/
def insertOrIgnore (t : Table key) (r : R) : Table key :=
  if h : ∃ r' ∈ t.rows, key r' = key r then t
  else
    { rows := t.rows ++ [r]
      nodup := by
        rw [map_append, nodup_append']
        refine ⟨t.nodup, by simp, ?_⟩
        intro k hk hk'
        obtain ⟨r', hr', rfl⟩ := mem_map.mp hk
        exact h ⟨r', hr', by simpa using hk'⟩ }

theorem insertOrIgnore_of_taken {r r' : R} (h : t.find? (key r) = some r') :
    t.insertOrIgnore r = t := by
  obtain ⟨hm, hk⟩ := find?_eq_some.mp h
  exact dif_pos ⟨r', hm, hk⟩

theorem rows_insertOrIgnore_of_free {r : R} (h : t.find? (key r) = none) :
    (t.insertOrIgnore r).rows = t.rows ++ [r] := by
  have hfree : ¬∃ r' ∈ t.rows, key r' = key r := by
    rintro ⟨r', hr', hk⟩
    exact find?_eq_none.mp h r' hr' hk
  rw [insertOrIgnore, dif_neg hfree]

theorem mem_of_mem_insertOrIgnore {r r' : R} (h : r' ∈ (t.insertOrIgnore r).rows) :
    r' ∈ t.rows ∨ r' = r := by
  cases hfind : t.find? (key r) with
  | some =>
    rw [insertOrIgnore_of_taken hfind] at h
    exact .inl h
  | none =>
    rw [rows_insertOrIgnore_of_free hfind] at h
    simpa using h

theorem mem_insertOrIgnore_of_mem {r r' : R} (h : r' ∈ t.rows) :
    r' ∈ (t.insertOrIgnore r).rows := by
  cases hfind : t.find? (key r) with
  | some => rwa [insertOrIgnore_of_taken hfind]
  | none =>
    rw [rows_insertOrIgnore_of_free hfind]
    exact mem_append_left _ h

theorem find?_insertOrIgnore (t : Table key) (r : R) (k : K) : (t.insertOrIgnore r).find? k =
      if key r = k then some ((t.find? k).getD r) else t.find? k := by
  cases h : t.find? (key r) with
  | some =>
    rw [insertOrIgnore_of_taken h]
    split
    · next hk => rw [← hk, h]; rfl
    · rfl
  | none =>
    rw [find?, rows_insertOrIgnore_of_free h, find?_append]
    split
    · next hk =>
      subst hk
      rw [show t.rows.find? (fun r' => decide (key r' = key r)) = none from h, h]
      simp
    · next hk => simp [hk, find?]

theorem find?_insertOrIgnore_of_some {k : K} {r' : R} (h : t.find? k = some r') (r : R) :
    (t.insertOrIgnore r).find? k = some r' :=
  find?_eq_some.mpr ((find?_eq_some.mp h).imp_left mem_insertOrIgnore_of_mem)

theorem find?_insertOrIgnore_absent {k : K} (h : t.find? k = none) (r : R) :
    (t.insertOrIgnore r).find? k = none ∨ (t.insertOrIgnore r).find? k = some r := by
  rw [find?_insertOrIgnore, h]
  split
  · exact .inr rfl
  · exact .inl rfl

theorem find?_view {S : Type} {key' : S → K} {π : R → S} {h : ∀ r, key' (π r) = key r} (t : Table key)
    (k : K) : (t.view π h).find? k = (t.find? k).map π := by
  simp [find?, find?_map, h]

theorem view_insertOrIgnore {S : Type} {key' : S → K} {π : R → S} {h : ∀ r, key' (π r) = key r}
    (t : Table key) (r : R) : (t.insertOrIgnore r).view π h = (t.view π h).insertOrIgnore (π r) := by
  cases hfind : t.find? (key r) with
  | some r' =>
    have hview : (t.view π h).find? (key' (π r)) = some (π r') := by rw [find?_view, h, hfind]; rfl
    rw [insertOrIgnore_of_taken hfind, insertOrIgnore_of_taken hview]
  | none =>
    have hview : (t.view π h).find? (key' (π r)) = none := by rw [find?_view, h, hfind]; rfl
    apply eq_of_rows
    rw [rows_view, rows_insertOrIgnore_of_free hfind, rows_insertOrIgnore_of_free hview, rows_view,
      map_append]
    rfl

end Keyed

end Table

end SignalConnector
