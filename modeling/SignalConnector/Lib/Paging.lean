/-
# Keyset paging

A reader asks for the first page, then for the page behind the cursor it was
given, until a page comes without one. Each page is the head of the rows that
are left, and its cursor names the last row of it when there are more.

Such a reading lists the rows exactly if the cursor of every row at a page
edge is accepted. Edges are the rows at positions `n`, `2 n`, … that are not
the last row.
-/
import SignalConnector.Lib.Select

namespace SignalConnector

open List

variable {R C α ν : Type}

/-! ### Reading page by page -/

/-- What following the cursors lists; nothing, if a page is refused or the rounds are used up. -/
def follow (page : Option C → Option (List α × Option C)) : ℕ → Option C → Option (List α)
  | 0, _ => none
  | rounds + 1, cursor =>
    match page cursor with
    | none => none
    | some (items, none) => some items
    | some (items, some next) => (follow page rounds (some next)).map (items ++ ·)

/-- The row that a page of `n` rows resumes behind. -/
def pageEnd (n : ℕ) (rows : List R) : Option R := if n < rows.length then (rows.take n).getLast? else none

/-- The row ends a full page, and there is a row behind it. -/
def IsEdge (n : ℕ) (rows : List R) (e : R) : Prop :=
  ∃ i, rows[i]? = some e ∧ n ∣ i + 1 ∧ i + 1 < rows.length

variable {n : ℕ} {rows : List R}

theorem IsEdge.mem {e : R} (h : IsEdge n rows e) : e ∈ rows := by
  obtain ⟨i, hi, -, -⟩ := h
  exact mem_of_getElem? hi

theorem isEdge_of_length_le (h : rows.length ≤ n) (e : R) : ¬IsEdge n rows e := by
  rintro ⟨i, -, hdvd, hlt⟩
  have := Nat.le_of_dvd (Nat.succ_pos i) hdvd
  omega

theorem pageEnd_of_length_le (h : rows.length ≤ n) : pageEnd n rows = none :=
  if_neg (Nat.not_lt.mpr h)

/-- A page is fetched with one row more than it has, which tells whether there are more. -/
theorem take_take_succ (n : ℕ) (rows : List R) : (rows.take (n + 1)).take n = rows.take n := by
  rw [take_take, Nat.min_eq_left (Nat.le_succ n)]

theorem pageEnd_fetched (n : ℕ) (rows : List R) (f : R → C) :
    (if n < (rows.take (n + 1)).length then ((rows.take (n + 1)).take n).getLast?.map f else none) =
      (pageEnd n rows).map f := by
  have hlen : n < (rows.take (n + 1)).length ↔ n < rows.length := by
    rw [length_take]
    omega
  rw [take_take_succ, pageEnd]
  by_cases hmore : n < rows.length
  · rw [if_pos (hlen.mpr hmore), if_pos hmore]
  · rw [if_neg fun h => hmore (hlen.mp h), if_neg hmore]
    rfl

theorem pageEnd_map (n : ℕ) (rows : List R) (f : R → ν) : pageEnd n (rows.map f) = (pageEnd n rows).map f := by
  unfold pageEnd
  rw [length_map, ← map_take, getLast?_map]
  split <;> rfl

/-- The edges are the end of the first page and the edges of what is left. -/
theorem isEdge_iff {pre post : List R} {e' : R} (hlen : (pre ++ [e']).length = n) (hpost : post ≠ []) (e : R) :
    IsEdge n (pre ++ e' :: post) e ↔ e = e' ∨ IsEdge n post e := by
  rw [append_cons]
  constructor
  · rintro ⟨i, hi, hdvd, hlt⟩
    by_cases hfirst : i + 1 = n
    · left
      rw [getElem?_append_left (by omega), show i = pre.length by simp at hlen; omega,
        getElem?_append_right le_rfl, Nat.sub_self] at hi
      exact (Option.some.inj hi).symm
    · right
      have hle := Nat.le_of_dvd (Nat.succ_pos i) hdvd
      rw [getElem?_append_right (by omega), hlen] at hi
      rw [length_append, hlen] at hlt
      refine ⟨i - n, hi, ?_, by omega⟩
      have hsub := Nat.dvd_sub hdvd (Nat.dvd_refl n)
      rwa [show i + 1 - n = i - n + 1 by omega] at hsub
  · rintro (rfl | ⟨i, hi, hdvd, hlt⟩)
    · refine ⟨pre.length, ?_, ?_, ?_⟩
      · rw [getElem?_append_left (by simp), getElem?_append_right le_rfl, Nat.sub_self]
        rfl
      · rw [length_append, length_singleton] at hlen
        exact hlen ▸ Nat.dvd_refl _
      · have := length_pos_iff.mpr hpost
        simp
        omega
    · refine ⟨n + i, ?_, ?_, ?_⟩
      · rw [getElem?_append_right (by omega), hlen, Nat.add_sub_cancel_left]
        exact hi
      · rw [Nat.add_assoc]
        exact Nat.dvd_add (Nat.dvd_refl n) hdvd
      · rw [length_append, hlen]
        omega

/-! ### Pages of a list -/

/-- A page function over `rows`: behind an accepted cursor it answers the head of the rows that follow, by name, and
the cursor of its end. -/
structure Pages (page : Option C → Option (List α × Option C)) (name : α → ν) (face : R → ν) (encode : R → C)
    (n : ℕ) (Accepts : R → Prop) (rows : List R) : Prop where
  start : ∃ items, page none = some (items, (pageEnd n rows).map encode) ∧
    items.map name = (rows.take n).map face
  next : ∀ pre e post, rows = pre ++ e :: post → Accepts e →
    ∃ items, page (some (encode e)) = some (items, (pageEnd n post).map encode) ∧
      items.map name = (post.take n).map face
  refused : ∀ pre e post, rows = pre ++ e :: post → ¬Accepts e → page (some (encode e)) = none

namespace Pages

variable {page : Option C → Option (List α × Option C)} {name : α → ν} {face : R → ν} {encode : R → C}
  {n : ℕ} {Accepts : R → Prop} {rows : List R}

/-- A full page with more behind it, cut at its end. -/
theorem exists_pageEnd (hn : 0 < n) {rest : List R} (h : n < rest.length) :
    ∃ pre e post, rest = pre ++ e :: post ∧ (pre ++ [e]).length = n ∧ post ≠ [] ∧ pageEnd n rest = some e ∧
      rest.take n = pre ++ [e] := by
  obtain ⟨pre, e, hpre⟩ : ∃ pre e, rest.take n = pre ++ [e] := by
    have hne : rest.take n ≠ [] := by
      intro hnil
      have := congrArg List.length hnil
      rw [length_take, length_nil] at this
      omega
    exact ⟨_, _, (dropLast_append_getLast hne).symm⟩
  have hlen : (pre ++ [e]).length = n := by
    rw [← hpre, length_take]
    omega
  refine ⟨pre, e, rest.drop n, ?_, hlen, ?_, ?_, hpre⟩
  · rw [append_cons, ← hpre, take_append_drop]
  · simp
    omega
  · rw [pageEnd, if_pos h, hpre, getLast?_append]
    rfl

/-- The answer for a cursor that leaves `rest`. -/
def Answers (page : Option C → Option (List α × Option C)) (name : α → ν) (face : R → ν) (encode : R → C) (n : ℕ)
    (cursor : Option C) (rest : List R) : Prop :=
  ∃ items, page cursor = some (items, (pageEnd n rest).map encode) ∧ items.map name = (rest.take n).map face

theorem accepts_of_follow_from (h : Pages page name face encode n Accepts rows) (hn : 0 < n) :
    ∀ (rounds : ℕ) (cursor : Option C) (rest : List R) (items : List α), rest <:+ rows →
      Answers page name face encode n cursor rest → follow page rounds cursor = some items →
        (∀ e, IsEdge n rest e → Accepts e) ∧ items.map name = rest.map face
  | 0, _, _, _, _, _, hfollow => by cases hfollow
  | rounds + 1, cursor, rest, items, hrest, ⟨first, hpage, hfirst⟩, hfollow => by
    rw [follow, hpage] at hfollow
    by_cases hmore : n < rest.length
    · obtain ⟨pre, e, post, hsplit, hlen, hpost, hend, htake⟩ := exists_pageEnd hn hmore
      rw [hend] at hfollow
      obtain ⟨tail, htail, rfl⟩ := Option.map_eq_some_iff.mp hfollow
      obtain ⟨before, hbefore⟩ := hrest
      have hrows : rows = (before ++ pre) ++ e :: post := by
        rw [← hbefore, hsplit, append_assoc]
      have haccepts : Accepts e := by
        by_contra hrefused
        cases rounds with
        | zero => cases htail
        | succ =>
          rw [follow, h.refused _ e post hrows hrefused] at htail
          cases htail
      have hsuffix : post <:+ rows := ⟨before ++ pre ++ [e], by rw [hrows]; simp⟩
      obtain ⟨hedges, hnames⟩ := accepts_of_follow_from h hn rounds (some (encode e)) post tail hsuffix
        (h.next _ e post hrows haccepts) htail
      refine ⟨fun e' he' => ?_, ?_⟩
      · rw [hsplit, isEdge_iff hlen hpost] at he'
        rcases he' with rfl | he'
        · exact haccepts
        · exact hedges e' he'
      · rw [map_append, hfirst, hnames, htake, hsplit]
        simp
    · have hle := Nat.not_lt.mp hmore
      rw [pageEnd_of_length_le hle] at hfollow
      cases hfollow
      exact ⟨fun e he => absurd he (isEdge_of_length_le hle e), by rw [hfirst, take_of_length_le hle]⟩

theorem follow_from (h : Pages page name face encode n Accepts rows) (hn : 0 < n) :
    ∀ (rounds : ℕ) (cursor : Option C) (rest : List R), rest <:+ rows →
      Answers page name face encode n cursor rest → rest.length < rounds → (∀ e, IsEdge n rest e → Accepts e) →
          ∃ items, follow page rounds cursor = some items ∧ items.map name = rest.map face
  | 0, _, _, _, _, hrounds, _ => absurd hrounds (Nat.not_lt_zero _)
  | rounds + 1, cursor, rest, hrest, ⟨first, hpage, hfirst⟩, hrounds, hedges => by
    rw [follow, hpage]
    by_cases hmore : n < rest.length
    · obtain ⟨pre, e, post, hsplit, hlen, hpost, hend, htake⟩ := exists_pageEnd hn hmore
      obtain ⟨before, hbefore⟩ := hrest
      have hrows : rows = (before ++ pre) ++ e :: post := by
        rw [← hbefore, hsplit, append_assoc]
      have haccepts : Accepts e := hedges e (by rw [hsplit, isEdge_iff hlen hpost]; exact .inl rfl)
      have hsuffix : post <:+ rows := ⟨before ++ pre ++ [e], by rw [hrows]; simp⟩
      obtain ⟨tail, htail, hnames⟩ := follow_from h hn rounds (some (encode e)) post hsuffix
        (h.next _ e post hrows haccepts)
        (by
          rw [hsplit, length_append, length_cons] at hrounds
          omega)
        fun e' he' => hedges e' (by rw [hsplit, isEdge_iff hlen hpost]; exact .inr he')
      refine ⟨first ++ tail, ?_, ?_⟩
      · rw [hend]
        simp [htail]
      · rw [map_append, hfirst, hnames, htake, hsplit]
        simp
    · have hle := Nat.not_lt.mp hmore
      rw [pageEnd_of_length_le hle]
      exact ⟨first, rfl, by rw [hfirst, take_of_length_le hle]⟩

/-- **A reading ends iff every edge is accepted, and then it lists the rows.** -/
theorem follow_iff (h : Pages page name face encode n Accepts rows) (hn : 0 < n) :
    (∃ rounds items, follow page rounds none = some items) ↔ ∀ e, IsEdge n rows e → Accepts e := by
  constructor
  · rintro ⟨rounds, items, hfollow⟩
    exact (h.accepts_of_follow_from hn rounds none rows items (suffix_refl _) h.start hfollow).1
  · intro hedges
    obtain ⟨items, hfollow, -⟩ := h.follow_from hn (rows.length + 1) none rows (suffix_refl _) h.start
      (Nat.lt_succ_self _) hedges
    exact ⟨_, items, hfollow⟩

end Pages

/-! ### The keyset condition -/

section Keyset

variable {le : R → R → Prop} [DecidableRel le] [Std.Total le] [IsTrans R le]

theorem pairwise_strict_insertionSort (hnd : rows.Nodup) (hanti : ∀ a ∈ rows, ∀ b ∈ rows, le a b → le b a → a = b) :
    (rows.insertionSort le).Pairwise fun a b => le a b ∧ ¬le b a := by
  have hperm := perm_insertionSort le rows
  have hmem : ∀ a, a ∈ rows.insertionSort le → a ∈ rows := fun a => hperm.mem_iff.mp
  have hboth := (pairwise_insertionSort le rows).and (hperm.nodup_iff.mpr hnd)
  refine hboth.imp_of_mem fun {a b} ha hb h => ⟨h.1, fun hba => h.2 ?_⟩
  exact hanti a (hmem a ha) b (hmem b hb) h.1 hba

theorem insertionSort_behind (hnd : rows.Nodup)
    (hanti : ∀ a ∈ rows, ∀ b ∈ rows, le a b → le b a → a = b) {pre post : List R} {e : R}
    (hsplit : rows.insertionSort le = pre ++ e :: post) {behind : R → Bool}
    (hbehind : ∀ a, behind a = true ↔ le e a ∧ ¬le a e) : (rows.filter behind).insertionSort le = post := by
  have hstrict := pairwise_strict_insertionSort hnd hanti
  rw [hsplit] at hstrict
  obtain ⟨-, hpost, hacross⟩ := pairwise_append.mp hstrict
  obtain ⟨hafter, -⟩ := pairwise_cons.mp hpost
  rw [insertionSort_filter behind, hsplit, filter_append,
    filter_cons_of_neg fun h => ((hbehind e).mp h).2 ((hbehind e).mp h).1,
    filter_eq_nil_iff.mpr fun a ha h => ((hbehind a).mp h).2 (hacross a ha e mem_cons_self).1,
    filter_eq_self.mpr fun a ha => (hbehind a).mpr (hafter a ha)]
  rfl

/-- The other way round. -/
theorem insertionSort_flip (hanti : ∀ a ∈ rows, ∀ b ∈ rows, le a b → le b a → a = b) :
    rows.insertionSort (fun a b => le b a) = (rows.insertionSort le).reverse := by
  have hperm := perm_insertionSort le rows
  have hflip := perm_insertionSort (fun a b => le b a) rows
  have : Std.Total (fun a b : R => le b a) := ⟨fun a b => Std.Total.total b a⟩
  have : IsTrans R (fun a b => le b a) := ⟨fun _ _ _ hab hbc => IsTrans.trans _ _ _ hbc hab⟩
  refine (hflip.trans (hperm.symm.trans (reverse_perm _).symm)).eq_of_pairwise
    (fun a b ha hb hba hab => ?_) (pairwise_insertionSort _ rows)
    (pairwise_reverse.mpr (pairwise_insertionSort le rows))
  exact hanti a (hflip.mem_iff.mp ha) b (hperm.mem_iff.mp (mem_reverse.mp hb)) hab hba

end Keyset

/-! ### Pages of rendered rows -/

/-- A page of sorted rows, each rendered by `render`. -/
def pageOf (n : ℕ) (render : R → α) (encode : α → C) (sorted : List R) : List α × Option C :=
  ((sorted.take n).map render, (pageEnd n sorted).map fun r => encode (render r))

theorem pageOf_fetched (n : ℕ) (render : R → α) (encode : α → C) (sorted : List R) :
    ((((sorted.take (n + 1)).map render).take n), if n < ((sorted.take (n + 1)).map render).length then
        (((sorted.take (n + 1)).map render).take n).getLast?.map encode
      else none) = pageOf n render encode sorted := by
  rw [map_take, pageEnd_fetched, take_take_succ, pageEnd_map, Option.map_map, ← map_take]
  rfl

theorem Pages.of_keyset {le : R → R → Prop} [DecidableRel le] [Std.Total le] [IsTrans R le] {rows : List R}
    (hnd : rows.Nodup) (hanti : ∀ a ∈ rows, ∀ b ∈ rows, le a b → le b a → a = b) (n : ℕ) (render : R → α)
    (encode : α → C) (name : α → ν) (Accepts : R → Prop) {behind : R → R → Bool}
    (hbehind : ∀ e a, behind e a = true ↔ le e a ∧ ¬le a e) (page : Option C → Option (List α × Option C))
    (hstart : page none = some (pageOf n render encode (rows.insertionSort le)))
    (hnext : ∀ e ∈ rows, Accepts e → page (some (encode (render e))) =
      some (pageOf n render encode ((rows.filter (behind e)).insertionSort le)))
    (hrefused : ∀ e ∈ rows, ¬Accepts e → page (some (encode (render e))) = none) :
    Pages page name (fun r => name (render r)) (fun r => encode (render r)) n Accepts (rows.insertionSort le) := by
  have hmem : ∀ {pre e post}, rows.insertionSort le = pre ++ e :: post → e ∈ rows := by
    intro pre e post hsplit
    exact (perm_insertionSort le rows).mem_iff.mp (hsplit ▸ by simp)
  refine ⟨⟨_, hstart, by rw [map_map]; rfl⟩, fun pre e post hsplit haccepts => ?_,
    fun pre e post hsplit => hrefused e (hmem hsplit)⟩
  have hpage := hnext e (hmem hsplit) haccepts
  rw [insertionSort_behind hnd hanti hsplit (hbehind e)] at hpage
  exact ⟨_, hpage, by rw [map_map]; rfl⟩

/-! ### Tiling -/

/-- Following the cursors from the start lists every row once, each strictly before the next. -/
def Tiles (page : Option C → Option (List α × Option C)) (name : α → ν) (face : R → ν) (before : R → R → Prop)
    (rows : List R) : Prop :=
  ∃ listed : List R, listed.Perm rows ∧ listed.Pairwise before ∧
    ∃ rounds items, follow page rounds none = some items ∧ items.map name = listed.map face

/-- **Pages tile the rows iff every edge is accepted.** -/
theorem Pages.tiles_iff {page : Option C → Option (List α × Option C)} {name : α → ν} {face : R → ν}
    {encode : R → C} {n : ℕ} {Accepts : R → Prop} {rows sorted : List R} {before : R → R → Prop}
    (h : Pages page name face encode n Accepts sorted) (hn : 0 < n) (hperm : sorted.Perm rows)
    (hsorted : sorted.Pairwise before) : Tiles page name face before rows ↔ ∀ e, IsEdge n sorted e → Accepts e := by
  rw [← h.follow_iff hn]
  constructor
  · rintro ⟨-, -, -, rounds, items, hfollow, -⟩
    exact ⟨rounds, items, hfollow⟩
  · rintro ⟨rounds, items, hfollow⟩
    exact ⟨sorted, hperm, hsorted, rounds, items, hfollow,
      (h.accepts_of_follow_from hn rounds none sorted items (suffix_refl _) h.start hfollow).2⟩

end SignalConnector
