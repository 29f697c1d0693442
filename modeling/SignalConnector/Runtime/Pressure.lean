/-
# The pressure tracker

`ResourcePressureTracker` keeps a flag and two counters. By its rule it speaks
of a run of samples: it says `Elevated` at the end of one at or above the
pressure mark, `Recovered` at the end of one at or below the recovery mark, each
long enough and later than what it said last. The counters are the lengths of
those runs.
-/
import SignalConnector.Store.Read

namespace SignalConnector

/-- What is reported. -/
inductive ResourcePressureState
  | elevated | recovered
  deriving DecidableEq

/-- Thresholds refused. -/
inductive ResourceError
  | failed
  deriving DecidableEq

/-- Counts samples in a row. -/
structure ResourcePressureTracker where
  elevated : Bool
  highSamples : ℕ
  recoverySamples : ℕ
  pressureBytes : ℕ
  recoveryBytes : ℕ
  pressureSamples : ℕ
  requiredRecoverySamples : ℕ
  deriving DecidableEq

/-! ### Runs at the end of a list -/

/-- The last `n` elements are there and meet `p`. -/
def EndsRun {α : Type} (n : ℕ) (p : α → Bool) (l : List α) : Prop := n ≤ l.length ∧ ∀ x ∈ l.rtake n, p x = true

theorem le_length_takeWhile_iff {α : Type} (p : α → Bool) : ∀ (l : List α) (n : ℕ),
    n ≤ (l.takeWhile p).length ↔ n ≤ l.length ∧ ∀ x ∈ l.take n, p x = true
  | [], n => by simp
  | x :: l, 0 => by simp
  | x :: l, n + 1 => by by_cases hx : p x <;> simp [hx, le_length_takeWhile_iff p l n]

theorem endsRun_iff {α : Type} {n : ℕ} {p : α → Bool} {l : List α} :
    EndsRun n p l ↔ n ≤ (l.rtakeWhile p).length := by
  rw [List.rtakeWhile, List.length_reverse, le_length_takeWhile_iff, EndsRun, List.rtake_eq_reverse_take_reverse]
  simp

/-! ### The tracker -/

namespace ResourcePressureTracker

/-- Thresholds must leave a gap. -/
def new (pressureBytes recoveryBytes : ℕ) (pressureSamples recoverySamples : UInt32) :
    Except ResourceError ResourcePressureTracker :=
  if pressureBytes = 0 ∨ pressureBytes ≤ recoveryBytes ∨ pressureSamples = 0 ∨ recoverySamples = 0 then .error .failed
  else .ok ⟨false, 0, 0, pressureBytes, recoveryBytes, pressureSamples.toNat, recoverySamples.toNat⟩

/-- One sample, and what it changes. -/
def observe (t : ResourcePressureTracker) (rssBytes : ℕ) : Option ResourcePressureState × ResourcePressureTracker :=
  if t.elevated then
    if rssBytes ≤ t.recoveryBytes then
      let t := { t with recoverySamples := min (t.recoverySamples + 1) u32Max }
      if t.requiredRecoverySamples ≤ t.recoverySamples then
        (some .recovered, { t with elevated := false, recoverySamples := 0, highSamples := 0 })
      else (none, t)
    else (none, { t with recoverySamples := 0 })
  else if t.pressureBytes ≤ rssBytes then
    let t := { t with highSamples := min (t.highSamples + 1) u32Max }
    if t.pressureSamples ≤ t.highSamples then
      (some .elevated, { t with elevated := true, highSamples := 0, recoverySamples := 0 })
    else (none, t)
  else (none, { t with highSamples := 0 })

/-- The samples with what was said at each. -/
abbrev History := List (ℕ × Option ResourcePressureState)

/-- The history of these samples, and the tracker after them. -/
def run (t : ResourcePressureTracker) (samples : List ℕ) : History × ResourcePressureTracker :=
  samples.foldl (fun (history, t) sample => (history ++ [(sample, (t.observe sample).1)], (t.observe sample).2)) ([], t)

/-- What was said, in order. -/
def events (history : History) : List ResourcePressureState := history.filterMap Prod.snd

/-- The samples since something was said. -/
def since (history : History) : List ℕ := (history.rtakeWhile fun entry => entry.2 = none).map Prod.fst

/-- What is due at a sample, by the runs since something was said. -/
def Due (t : ResourcePressureTracker) (history : History) (sample : ℕ) : ResourcePressureState → Prop
  | .elevated => (events history).getLast? ≠ some .elevated ∧
      EndsRun t.pressureSamples (t.pressureBytes ≤ ·) (since history ++ [sample])
  | .recovered => (events history).getLast? = some .elevated ∧
      EndsRun t.requiredRecoverySamples (· ≤ t.recoveryBytes) (since history ++ [sample])

/-- The flag is what was said last, and the counter it looks at is the length of the run in progress. -/
structure Tracks (t : ResourcePressureTracker) (history : History) (now : ResourcePressureTracker) : Prop where
  config : now = { t with
    elevated := now.elevated, highSamples := now.highSamples, recoverySamples := now.recoverySamples }
  flag : now.elevated = true ↔ (events history).getLast? = some .elevated
  high : now.elevated = false → now.highSamples = ((since history).rtakeWhile (t.pressureBytes ≤ ·)).length
  recovery : now.elevated = true → now.recoverySamples = ((since history).rtakeWhile (· ≤ t.recoveryBytes)).length

variable {t now : ResourcePressureTracker} {history : History}

theorem since_concat (sample : ℕ) (said : Option ResourcePressureState) :
    since (history ++ [(sample, said)]) = if said = none then since history ++ [sample] else [] := by
  cases said <;> simp [since]

theorem events_concat (sample : ℕ) (said : Option ResourcePressureState) :
    events (history ++ [(sample, said)]) = events history ++ said.toList := by
  cases said <;> simp [events]

/-- A number of samples that a counter reaches, and not at once. -/
def Countable (n : ℕ) : Prop := 0 < n ∧ n ≤ u32Max

/-- The flag and its counter know what is due, and go on knowing it. -/
theorem Tracks.observe (hp : Countable t.pressureSamples) (hr : Countable t.requiredRecoverySamples)
    (h : t.Tracks history now) (sample : ℕ) : (∀ event, (now.observe sample).1 = some event ↔ t.Due history sample event) ∧
      t.Tracks (history ++ [(sample, (now.observe sample).1)]) (now.observe sample).2 := by
  unfold Countable at hp hr
  obtain ⟨hconfig, hflag, hhigh, hrecovery⟩ := h
  obtain ⟨elevated, high, recovery, rest⟩ := now
  cases hconfig
  cases elevated with
  | true =>
    have hlast : (events history).getLast? = some .elevated := hflag.mp rfl
    have hcount : recovery = _ := hrecovery rfl
    simp only [ResourcePressureTracker.observe, if_true]
    split_ifs with hlow hlong
    all_goals
      refine ⟨fun event => ?_, rfl, ?_, ?_, ?_⟩
      · cases event <;> simp [Due, hlast, endsRun_iff, hlow]; omega
      all_goals simp [since_concat, events_concat, hlast, hlow]
      try omega
  | false =>
    have hlast : (events history).getLast? ≠ some .elevated := fun h => absurd (hflag.mpr h) Bool.false_ne_true
    have hcount : high = _ := hhigh rfl
    simp only [ResourcePressureTracker.observe, Bool.false_eq_true, if_false]
    split_ifs with hhit hlong
    all_goals
      refine ⟨fun event => ?_, rfl, ?_, ?_, ?_⟩
      · cases event <;> simp [Due, hlast, endsRun_iff, hhit]; omega
      all_goals simp [since_concat, events_concat, hlast, hhit]
      try omega

theorem run_concat (samples : List ℕ) (sample : ℕ) : t.run (samples ++ [sample]) =
    ((t.run samples).1 ++ [(sample, ((t.run samples).2.observe sample).1)], ((t.run samples).2.observe sample).2) := by
  rw [run, List.foldl_concat]
  rfl

/-- Beginning with `Elevated`. -/
def Alternate (events : List ResourcePressureState) : Prop :=
  events.IsChain (· ≠ ·) ∧ ∀ first ∈ events.head?, first = .elevated

theorem Due.alternate {sample : ℕ} {event : ResourcePressureState} (h : t.Due history sample event)
    (hbefore : Alternate (events history)) : Alternate (events history ++ [event]) := by
  refine ⟨List.isChain_append.mpr ⟨hbefore.1, .singleton _, fun last hlast next hnext => ?_⟩, fun first hfirst => ?_⟩
  · cases Option.some.inj hnext
    rintro rfl
    cases last with
    | elevated => exact h.1 hlast
    | recovered => cases hlast.symm.trans h.1
  · rw [List.head?_append, Option.mem_def, Option.or_eq_some_iff] at hfirst
    rcases hfirst with hfirst | ⟨hnone, hfirst⟩
    · exact hbefore.2 first hfirst
    · cases Option.some.inj hfirst
      cases event with
      | elevated => rfl
      | recovered =>
        have hlast : (events history).getLast? = _ := h.1
        rw [List.head?_eq_none_iff.mp hnone] at hlast
        cases hlast

theorem tracks_run (hp : Countable t.pressureSamples) (hr : Countable t.requiredRecoverySamples)
    (hstart : t.Tracks [] t) (samples : List ℕ) :
    t.Tracks (t.run samples).1 (t.run samples).2 ∧ Alternate (events (t.run samples).1) := by
  induction samples using List.reverseRecOn with
  | nil => exact ⟨hstart, .nil, fun _ h => by cases h⟩
  | append_singleton samples sample ih =>
    obtain ⟨hdue, htracks⟩ := ih.1.observe hp hr sample
    rw [run_concat]
    refine ⟨htracks, ?_⟩
    rw [events_concat]
    rcases hsaid : ((t.run samples).2.observe sample).1 with _ | event
    · simpa using ih.2
    · exact ((hdue event).mp hsaid).alternate ih.2

/-- **The pressure tracker keeps its rule.** For every tracker `new` accepts and all samples, what it says alternates
and is what is due. -/
theorem tracks_runs {pressureBytes recoveryBytes : ℕ} {pressureSamples recoverySamples : UInt32}
    (hnew : new pressureBytes recoveryBytes pressureSamples recoverySamples = .ok t) (samples : List ℕ) :
    Alternate (events (t.run samples).1) ∧
      ∀ sample event, ((t.run samples).2.observe sample).1 = some event ↔ t.Due (t.run samples).1 sample event := by
  have hcount : ∀ n : UInt32, n ≠ 0 → Countable n.toNat := fun n hn =>
    ⟨Nat.pos_of_ne_zero fun h => hn (UInt32.toNat_inj.mp h), Nat.le_of_lt_succ n.toNat_lt⟩
  have hspec : Countable t.pressureSamples ∧ Countable t.requiredRecoverySamples ∧ t.Tracks [] t := by
    unfold new at hnew
    split at hnew
    · cases hnew
    next haccepted =>
    simp only [not_or] at haccepted
    cases hnew
    exact ⟨hcount _ haccepted.2.2.1, hcount _ haccepted.2.2.2, rfl, by simp [events], fun _ => rfl, fun _ => rfl⟩
  obtain ⟨hp, hr, hstart⟩ := hspec
  obtain ⟨htracks, halternate⟩ := tracks_run hp hr hstart samples
  exact ⟨halternate, fun sample => (htracks.observe hp hr sample).1⟩

/-- The marks of the connector, in megabytes. -/
theorem tracks_runs_default : new 512 420 3 2 = .ok ⟨false, 0, 0, 512, 420, 3, 2⟩ ∧
    Alternate (events (run ⟨false, 0, 0, 512, 420, 3, 2⟩ [600, 600, 600, 400, 400]).1) ∧
    Due ⟨false, 0, 0, 512, 420, 3, 2⟩ (run ⟨false, 0, 0, 512, 420, 3, 2⟩ [600, 600, 600, 400]).1 400 .recovered := by
  have hnew : new 512 420 3 2 = .ok ⟨false, 0, 0, 512, 420, 3, 2⟩ := rfl
  exact ⟨hnew, (tracks_runs hnew _).1, ((tracks_runs hnew [600, 600, 600, 400]).2 400 .recovered).mp rfl⟩

end ResourcePressureTracker

end SignalConnector
