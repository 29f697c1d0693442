/-
# Filling a list by position

A list of places is filled from a list of values position by position: value
`k` goes to place `k`, and only if that place is blank or past the end. In the
first form (`fillFrom`) there is a value for every position, so the list grows
by one place at a time; in the second (`pourFrom`) a value may be missing, and
the list grows up to the value with blank places. What stands at a place
afterwards is in both what stood there, or else the value of its position.
-/
import Mathlib

namespace SignalConnector

open List

variable {α β : Type} (blank : α → Bool)

/-- What stands at a place, unless it is blank. -/
def shownAt (places : List α) (i : ℕ) : Option α := places[i]?.filter fun a => !blank a

theorem shownAt_eq_some {places : List α} {i : ℕ} {a : α} :
    shownAt blank places i = some a ↔ places[i]? = some a ∧ blank a = false := by
  simp [shownAt, Option.filter_eq_some_iff]

theorem shownAt_eraseIdx (places : List α) (index i : ℕ) :
    shownAt blank (places.eraseIdx index) i = shownAt blank places (if i < index then i else i + 1) := by
  unfold shownAt
  rw [getElem?_eraseIdx]
  split <;> rfl

/-! ### A value for every position -/

/-- A place past the end or a blank one takes the value. -/
def fillPlace (index : ℕ) (value : α) (places : List α) : List α :=
  if places.length ≤ index then places ++ [value]
  else if places[index]?.any blank then places.set index value
  else places

/-- The values go to the places from `start` on. -/
def fillFrom : ℕ → List α → List α → List α
  | _, [], places => places
  | start, value :: values, places => fillFrom (start + 1) values (fillPlace blank start value places)

theorem length_fillPlace {index : ℕ} {value : α} {places : List α} (h : index ≤ places.length) :
    index + 1 ≤ (fillPlace blank index value places).length := by
  unfold fillPlace
  split
  · rw [length_append, length_singleton]
    omega
  · split
    · rw [length_set]
      omega
    · omega

theorem getElem?_fillPlace {index : ℕ} (value : α) {places : List α} (h : index ≤ places.length) (i : ℕ) :
    (fillPlace blank index value places)[i]? =
      if i = index then (shownAt blank places i).or (some value) else places[i]? := by
  unfold fillPlace shownAt
  split
  · next hend =>
    obtain rfl : index = places.length := Nat.le_antisymm h hend
    by_cases hi : i = places.length
    · subst hi
      simp
    · rw [if_neg hi, getElem?_append]
      split
      · rfl
      · rw [getElem?_eq_none (by simp; omega), getElem?_eq_none (by omega)]
  · next hin =>
    obtain ⟨a, ha⟩ : ∃ a, places[index]? = some a := ⟨_, getElem?_eq_getElem (by omega)⟩
    rw [ha, Option.any_some]
    by_cases hblank : blank a = true
    · rw [if_pos hblank, getElem?_set]
      by_cases hi : i = index
      · subst hi
        rw [if_pos rfl, if_pos rfl, if_pos (by omega), ha]
        simp [Option.filter, hblank]
      · rw [if_neg (Ne.symm hi), if_neg hi]
    · rw [if_neg hblank]
      by_cases hi : i = index
      · subst hi
        rw [if_pos rfl, ha]
        simp [Option.filter, hblank]
      · rw [if_neg hi]

theorem getElem?_fillFrom_start : ∀ (values : List α) {start : ℕ} {places : List α}, start ≤ places.length → ∀ i,
    (fillFrom blank start values places)[i]? =
      if i < start then places[i]? else (shownAt blank places i).or (values[i - start]?.or places[i]?)
  | [], start, places, _, i => by
    rw [fillFrom, getElem?_nil, Option.none_or]
    split
    · rfl
    · unfold shownAt
      cases places[i]? with
      | none => rfl
      | some a => by_cases hblank : blank a = true <;> simp [Option.filter, hblank]
  | value :: values, start, places, h, i => by
    have hshown : ∀ j, j ≠ start → shownAt blank (fillPlace blank start value places) j = shownAt blank places j :=
      fun j hj => by unfold shownAt; rw [getElem?_fillPlace blank value h, if_neg hj]
    rw [fillFrom, getElem?_fillFrom_start values (length_fillPlace blank h)]
    rcases Nat.lt_trichotomy i start with hlt | rfl | hgt
    · rw [if_pos (by omega), if_pos hlt, getElem?_fillPlace blank value h, if_neg (by omega)]
    · rw [if_pos (by omega), if_neg (by omega), getElem?_fillPlace blank value h, if_pos rfl, Nat.sub_self]
      rfl
    · obtain ⟨k, rfl⟩ : ∃ k, i = start + 1 + k := ⟨i - (start + 1), by omega⟩
      rw [if_neg (by omega), if_neg (by omega), hshown _ (by omega), getElem?_fillPlace blank value h,
        if_neg (by omega), Nat.add_sub_cancel_left, show start + 1 + k - start = k + 1 by omega,
        getElem?_cons_succ]

theorem map_fillFrom (f : β → α) : ∀ (values : List β) (start : ℕ) (places : List β),
    (fillFrom (blank ∘ f) start values places).map f = fillFrom blank start (values.map f) (places.map f)
  | [], _, _ => rfl
  | value :: values, start, places => by
    rw [fillFrom, map_fillFrom f values, map_cons, fillFrom]
    congr 1
    unfold fillPlace
    rw [length_map, getElem?_map, Option.any_map, ← Function.comp_def]
    split
    · rw [map_append, map_singleton]
    · split
      · rw [map_set]
      · rfl

/-! ### Values that may be missing -/

variable (pad : α)

/-- A value that is not blank fills a blank place, and the list grows up to it. -/
def pourPlace (index : ℕ) (value : Option α) (places : List α) : List α :=
  match value.filter fun a => !blank a with
  | none => places
  | some value =>
    let places := if places.length ≤ index then places ++ List.replicate (index + 1 - places.length) pad else places
    if places[index]?.any blank then places.set index value else places

/-- The values there are go to the places from `start` on. -/
def pourFrom : ℕ → List (Option α) → List α → List α
  | _, [], places => places
  | start, value :: values, places => pourFrom (start + 1) values (pourPlace blank pad start value places)

variable {blank pad}

theorem shownAt_grow (hpad : blank pad = true) (places : List α) (n i : ℕ) :
    shownAt blank (places ++ List.replicate n pad) i = shownAt blank places i := by
  unfold shownAt
  rw [getElem?_append]
  split
  · rfl
  · rw [getElem?_replicate, getElem?_eq_none (by omega)]
    split
    · simp [Option.filter, hpad]
    · rfl

theorem shownAt_pourPlace (hpad : blank pad = true) (index : ℕ) (value : Option α) (places : List α) (i : ℕ) :
    shownAt blank (pourPlace blank pad index value places) i =
      if i = index then (shownAt blank places i).or (value.filter fun a => !blank a) else shownAt blank places i := by
  unfold pourPlace
  cases hvalue : value.filter fun a => !blank a with
  | none => simp
  | some a =>
    have ha : blank a = false := by simpa using (Option.filter_eq_some_iff.mp hvalue).2
    dsimp only
    -- the grown list shows what the list showed, and has the place
    generalize hgrown : (if places.length ≤ index then places ++ List.replicate (index + 1 - places.length) pad
      else places) = grown
    have hshown : ∀ j, shownAt blank grown j = shownAt blank places j := fun j => by
      rw [← hgrown]
      split
      · exact shownAt_grow hpad _ _ _
      · rfl
    have hlength : index < grown.length := by
      rw [← hgrown]
      split
      · rw [length_append, length_replicate]
        omega
      · omega
    rw [← hshown i]
    have hplace := getElem?_eq_getElem hlength
    rw [hplace, Option.any_some]
    by_cases hblank : blank grown[index] = true
    · rw [if_pos hblank]
      by_cases hi : i = index
      · subst hi
        unfold shownAt
        rw [if_pos rfl, getElem?_set_self hlength, hplace]
        simp [Option.filter, hblank, ha]
      · unfold shownAt
        rw [if_neg hi, getElem?_set_ne (Ne.symm hi)]
    · rw [if_neg hblank]
      split
      · next hi =>
        subst hi
        unfold shownAt
        rw [hplace]
        simp [Option.filter, hblank]
      · rfl

theorem shownAt_pourFrom_start (hpad : blank pad = true) :
    ∀ (values : List (Option α)) (start : ℕ) (places : List α) (i : ℕ),
      shownAt blank (pourFrom blank pad start values places) i = if i < start then shownAt blank places i
        else (shownAt blank places i).or (values[i - start]?.join.filter fun a => !blank a)
  | [], start, places, i => by simp [pourFrom]
  | value :: values, start, places, i => by
    rw [pourFrom, shownAt_pourFrom_start hpad values, shownAt_pourPlace hpad]
    rcases Nat.lt_trichotomy i start with hlt | rfl | hgt
    · rw [if_pos (by omega), if_neg (by omega), if_pos hlt]
    · rw [if_pos (by omega), if_pos rfl, if_neg (by omega), Nat.sub_self]
      rfl
    · obtain ⟨k, rfl⟩ : ∃ k, i = start + 1 + k := ⟨i - (start + 1), by omega⟩
      rw [if_neg (by omega), if_neg (by omega), if_neg (by omega), Nat.add_sub_cancel_left,
        show start + 1 + k - start = k + 1 by omega, getElem?_cons_succ]

theorem pourFrom_of_silent : ∀ {values : List (Option α)}, (∀ value ∈ values, (value.filter fun a => !blank a) = none) →
    ∀ (start : ℕ) (places : List α), pourFrom blank pad start values places = places
  | [], _, _, _ => rfl
  | value :: values, h, start, places => by
    have hround : pourPlace blank pad start value places = places := by
      rw [pourPlace, h value mem_cons_self]
    rw [pourFrom, hround, pourFrom_of_silent fun value hvalue => h value (mem_cons_of_mem _ hvalue)]

theorem pourFrom_ne_nil : ∀ {values : List (Option α)} {start : ℕ} {places : List α}, places ≠ [] →
    pourFrom blank pad start values places ≠ []
  | [], _, _, h => h
  | value :: values, start, places, h => by
    have hround : pourPlace blank pad start value places ≠ [] := by
      unfold pourPlace
      split
      · exact h
      · dsimp only
        split <;> split <;> simp [h]
    rw [pourFrom]
    exact pourFrom_ne_nil hround

theorem map_pourFrom (f : β → α) {pad : β} : ∀ (values : List (Option β)) (start : ℕ) (places : List β),
    (pourFrom (blank ∘ f) pad start values places).map f =
      pourFrom blank (f pad) start (values.map (Option.map f)) (places.map f)
  | [], _, _ => rfl
  | value :: values, start, places => by
    rw [pourFrom, map_pourFrom f values, map_cons, pourFrom]
    congr 1
    unfold pourPlace
    have hfilter : (value.map f).filter (fun a => !blank a) =
        (value.filter fun b => !(blank ∘ f) b).map f := by
      cases value with
      | none => rfl
      | some b => by_cases hb : blank (f b) = true <;> simp [Option.filter, hb]
    rw [hfilter]
    cases value.filter fun b => !(blank ∘ f) b with
    | none => rfl
    | some =>
      have hgrown : (if places.length ≤ start then places ++ List.replicate (start + 1 - places.length) pad
            else places).map f =
          if (places.map f).length ≤ start then
            places.map f ++ List.replicate (start + 1 - (places.map f).length) (f pad)
          else places.map f := by
        rw [length_map]
        split <;> simp
      simp only [Option.map_some]
      rw [← hgrown, getElem?_map, Option.any_map, ← Function.comp_def]
      by_cases hany : Option.any (blank ∘ f) (if places.length ≤ start then
          places ++ List.replicate (start + 1 - places.length) pad else places)[start]? = true
      · rw [if_pos hany, if_pos hany, map_set]
      · rw [if_neg hany, if_neg hany]

end SignalConnector
