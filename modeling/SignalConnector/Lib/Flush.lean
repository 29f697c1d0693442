/-
# Flushing a table of waiting entries

A flush goes once through a table of entries that wait for something to come.
The entries that were waiting for what has come (`hit`) are worked off in
order, each by its own program, and of the others the ones that are still
`fresh` stay. A call that fails ends the flush in the middle of the table;
`unapplied` says which entries had not been worked off by then. An entry counts
as worked off as soon as the first call of its program has returned.

A flush that fails while the table is taken out of the state leaves none of it.
-/
import SignalConnector.Lib.Fault

namespace SignalConnector

namespace Prog

variable {σ ε α β : Type}

/-- The first call of the program has returned, in the run in which the call with this number fails. -/
def begun : Prog σ ε α → ℕ → σ → Bool
  | done _, _, _ => true
  | act f next, n, s => (next (f s).1).begun n (f s).2
  | call f _, n, s => 0 < n && (f s).isOk

/-- The run with this call failing ends in an error. -/
def Fails (fault : ε) (p : Prog σ ε α) (n : ℕ) (s : σ) : Prop := ∃ e s', p.runFault fault n s = (.error e, s')

/-- A sequence fails in its first part or, past the calls of it, in its second. -/
theorem fails_bind (fault : ε) (k : α → Prog σ ε β) (p : Prog σ ε α) (n : ℕ) (s : σ) : (p.bind k).Fails fault n s ↔
      match p.runFault fault n s with
      | (.ok a, s') => (k a).Fails fault (n - p.calls s) s'
      | (.error _, _) => True := by
  rcases hp : p.runFault fault n s with ⟨e | a, s'⟩
  · simpa using ⟨e, s', runFault_bind_of_error fault p n s hp⟩
  · obtain ⟨hcalls, hrun⟩ := run_of_runFault fault hp
    unfold Fails
    rw [runFault_bind_of_calls_le fault p n s hcalls hrun]

/-- A second part that cannot fail decides nothing. -/
theorem fails_bind_of_not {fault : ε} {k : α → Prog σ ε β} (hk : ∀ a n s, ¬(k a).Fails fault n s) (p : Prog σ ε α)
    (n : ℕ) (s : σ) : (p.bind k).Fails fault n s ↔ p.Fails fault n s := by
  rw [fails_bind]
  unfold Fails
  rcases p.runFault fault n s with ⟨e | a, s'⟩
  · simp
  · simpa using fun e u h => hk a _ s' ⟨e, u, h⟩

theorem not_fails_done (fault : ε) (a : α) (n : ℕ) (s : σ) : ¬(done a : Prog σ ε α).Fails fault n s :=
  fun ⟨_, _, h⟩ => nomatch h

end Prog

section Flush

variable {σ ε E α : Type} (hit fresh : E → Bool) (arm : E → Prog σ ε (List α))

/-- What the programs of the hits answered, and the entries that stay. -/
def flush : List E → Prog σ ε (List α × List E)
  | [] => return ([], [])
  | entry :: table =>
    if hit entry then do
      let events ← arm entry
      let (rest, remaining) ← flush table
      return (events ++ rest, remaining)
    else do
      let (rest, remaining) ← flush table
      return (rest, if fresh entry then entry :: remaining else remaining)

variable (fault : ε)

/-- The entries a flush that fails has not worked off. -/
def unapplied : List E → ℕ → σ → Option (List E)
  | [], _, _ => none
  | entry :: table, n, s =>
    if hit entry then
      match (arm entry).runFault fault n s with
      | (.ok _, s') => unapplied table (n - (arm entry).calls s) s'
      | (.error _, _) => some ((if (arm entry).begun n s then [] else [entry]) ++ table.filter fresh)
    else (unapplied table n s).map fun left => if fresh entry then entry :: left else left

/-- The state after the hits of a table. -/
def workedOff (table : List E) (s : σ) : σ := (table.filter hit).foldl (fun s entry => ((arm entry).run s).2) s

/-- **A flush that answers has worked off the hits in order, and the fresh others stay.** -/
theorem run_flush_of_ok {events : List α} {remaining : List E} {s' : σ} : ∀ {table : List E} {s : σ},
    (flush hit fresh arm table).run s = (.ok (events, remaining), s') →
      remaining = table.filter (fun entry => !hit entry && fresh entry) ∧ s' = workedOff hit arm table s
  | [], s, h => by
    cases h
    exact ⟨rfl, rfl⟩
  | entry :: table, s, h => by
    unfold flush at h
    by_cases hhit : hit entry = true
    · rw [if_pos hhit] at h
      obtain ⟨first, u, harm, h⟩ := Prog.exists_of_run_bind h
      obtain ⟨⟨rest, remaining'⟩, v, hrest, h⟩ := Prog.exists_of_run_bind h
      cases h
      obtain ⟨hremaining, hstate⟩ := run_flush_of_ok hrest
      refine ⟨by simp [hremaining, hhit], ?_⟩
      rw [hstate, workedOff, workedOff, List.filter_cons_of_pos hhit, List.foldl_cons, harm]
    · rw [if_neg hhit] at h
      obtain ⟨⟨rest, remaining'⟩, v, hrest, h⟩ := Prog.exists_of_run_bind h
      cases h
      obtain ⟨hremaining, hstate⟩ := run_flush_of_ok hrest
      refine ⟨?_, ?_⟩
      · by_cases hfresh : fresh entry = true <;> simp [hremaining, hhit, hfresh]
      · rw [hstate, workedOff, workedOff, List.filter_cons_of_neg hhit]

/-- **A flush fails iff it leaves something unapplied to speak of.** -/
theorem runFault_flush_iff : ∀ (table : List E) (n : ℕ) (s : σ),
    (flush hit fresh arm table).Fails fault n s ↔ (unapplied hit fresh arm fault table n s).isSome
  | [], n, s => ⟨fun h => absurd h (Prog.not_fails_done fault _ n s), fun h => nomatch h⟩
  | entry :: table, n, s => by
    have hlast : ∀ (f : List α × List E → List α × List E) (n : ℕ) (s : σ),
        ((flush hit fresh arm table).bind fun r => .done (f r)).Fails fault n s ↔
          (unapplied hit fresh arm fault table n s).isSome := fun f n s =>
      (Prog.fails_bind_of_not (fun r => Prog.not_fails_done fault (f r)) _ n s).trans (runFault_flush_iff table n s)
    unfold flush unapplied
    by_cases hhit : hit entry = true
    · rw [if_pos hhit, if_pos hhit, Prog.bind_eq, Prog.fails_bind]
      rcases (arm entry).runFault fault n s with ⟨e | events, s'⟩
      · simp
      · exact hlast (fun r => (events ++ r.1, r.2)) _ s'
    · rw [if_neg hhit, if_neg hhit, Option.isSome_map]
      exact hlast (fun r => (r.1, if fresh entry then entry :: r.2 else r.2)) n s

/-- What the programs of the hits keep, the flush keeps. -/
theorem atCalls_flush {P : σ → Prop} : ∀ (table : List E) (s : σ), (∀ entry ∈ table, hit entry = true → ∀ s, P s →
      (arm entry).AtCalls P s ∧ ∀ a s', (arm entry).run s = (.ok a, s') → P s') →
    P s → (flush hit fresh arm table).AtCalls P s
  | [], _, _, _ => trivial
  | entry :: table, s, harm, hs => by
    have ih : ∀ s, P s → (flush hit fresh arm table).AtCalls P s := fun s =>
      atCalls_flush table s fun other hother => harm other (List.mem_cons_of_mem entry hother)
    unfold flush
    by_cases hhit : hit entry = true
    · obtain ⟨hcalls, hkeep⟩ := harm entry List.mem_cons_self hhit s hs
      rw [if_pos hhit]
      refine Prog.atCalls_bind _ s hcalls fun events s' hrun => ?_
      exact Prog.atCalls_bind _ s' (ih s' (hkeep events s' hrun)) fun _ _ _ => trivial
    · rw [if_neg hhit]
      exact Prog.atCalls_bind _ s (ih s hs) fun _ _ _ => trivial

/-! ### A table that is taken out -/

variable (take : σ → List E × σ) (put : List E → σ → σ)

/-- The table is taken out of the state, flushed, and what stays of it is put back at the end. -/
def flushTaken : Prog σ ε (List α) := do
  let table ← .act take .done
  if table.isEmpty then return []
  let (events, remaining) ← flush hit fresh arm table
  .act (fun s => ((), put remaining s)) .done
  return events

variable {hit fresh arm fault take put} {n : ℕ} {s s' : σ}

theorem runFault_flushTaken : (flushTaken hit fresh arm take put).runFault fault n s =
    if (take s).1.isEmpty then (.ok [], (take s).2)
    else ((flush hit fresh arm (take s).1).bind fun r =>
      .act (fun s => ((), put r.2 s)) fun _ => .done r.1).runFault fault n (take s).2 := by
  by_cases hempty : (take s).1.isEmpty = true
  · rw [if_pos hempty]
    change (if (take s).1.isEmpty = true then _ else _ : Prog σ ε (List α)).runFault fault n (take s).2 = _
    rw [if_pos hempty]
    rfl
  · rw [if_neg hempty]
    change (if (take s).1.isEmpty = true then _ else _ : Prog σ ε (List α)).runFault fault n (take s).2 = _
    rw [if_neg hempty]
    rfl

theorem fails_flushTaken : (flushTaken hit fresh arm take put).Fails fault n s ↔
    (unapplied hit fresh arm fault (take s).1 n (take s).2).isSome := by
  rw [Prog.Fails, runFault_flushTaken]
  by_cases hempty : (take s).1.isEmpty = true
  · rw [if_pos hempty, List.isEmpty_iff.mp hempty]
    simp [unapplied]
  · rw [if_neg hempty, ← runFault_flush_iff]
    exact Prog.fails_bind_of_not (fun r n s h => by obtain ⟨_, _, h⟩ := h; cases h) _ n (take s).2

/-- What is left when the flush answers. -/
theorem flushTaken_of_ok {events : List α}
    (h : (flushTaken hit fresh arm take put).runFault fault n s = (.ok events, s')) :
    ((take s).1 = [] ∧ s' = (take s).2) ∨ s' = put ((take s).1.filter fun entry => !hit entry && fresh entry)
        (workedOff hit arm (take s).1 (take s).2) := by
  rw [runFault_flushTaken] at h
  by_cases hempty : (take s).1.isEmpty = true
  · rw [if_pos hempty] at h
    cases h
    exact .inl ⟨List.isEmpty_iff.mp hempty, rfl⟩
  · rw [if_neg hempty] at h
    obtain ⟨⟨answers, remaining⟩, u, hflush, hput⟩ := Prog.exists_of_run_bind (Prog.run_of_runFault fault h).2
    cases hput
    obtain ⟨rfl, rfl⟩ := run_flush_of_ok hit fresh arm hflush
    exact .inr rfl

/-- What holds once the table is out and is kept by the programs of the hits holds when the flush fails. -/
theorem flushTaken_of_error {P : σ → Prop} {e : ε} (harm : ∀ entry ∈ (take s).1, hit entry = true → ∀ s, P s →
      (arm entry).AtCalls P s ∧ ∀ a s', (arm entry).run s = (.ok a, s') → P s') (hs : P (take s).2)
    (h : (flushTaken hit fresh arm take put).runFault fault n s = (.error e, s')) : P s' := by
  rw [runFault_flushTaken] at h
  by_cases hempty : (take s).1.isEmpty = true
  · rw [if_pos hempty] at h
    cases h
  · rw [if_neg hempty] at h
    have hcalls := atCalls_flush hit fresh arm (take s).1 (take s).2 harm hs
    refine Prog.AtCalls.of_runFault fault (Prog.atCalls_bind _ _ hcalls fun _ _ _ => ?_) h
    trivial

end Flush

end SignalConnector
