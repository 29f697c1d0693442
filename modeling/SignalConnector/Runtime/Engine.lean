/-
# The engine slot of a supervisor

A supervisor keeps the handle of its engine process in one slot behind a lock.
`start` fills it, `stop` empties it, `restart_engine` empties and fills it
again under the lock, and the wake of an account slot looks and then calls
`start`. Handles are cloned freely and see their process end whoever holds
them, so an engine is a number here and its state stands in a list of all the
engines started so far.
-/
import SignalConnector.Service.Send

namespace SignalConnector

/-- How an engine stands. -/
inductive EngineState
  | running | stopped | exited | faulted
  deriving DecidableEq

/-- The slot, and the state of every engine ever started for it. -/
structure EngineSlot where
  engines : List EngineState
  engine : Option ℕ
  deriving DecidableEq

namespace EngineSlot

def empty : EngineSlot := ⟨[], none⟩

variable (s : EngineSlot)

/-- The engine does not run. -/
def isTerminal (engine : ℕ) : Bool := s.engines[engine]? ≠ some .running

/-- `status().pid` of a handle: a terminal engine has none. -/
def pid (engine : ℕ) : Option ℕ := if s.isTerminal engine then none else some engine

/-- The slot's engine runs. -/
def isRunning : Bool := s.engine.any fun engine => !s.isTerminal engine

/-- An engine started in this state is put into the slot. -/
def install (state : EngineState) : EngineSlot := ⟨s.engines ++ [state], some s.engines.length⟩

/-- The engine's process ends. -/
def exit (engine : ℕ) (state : EngineState) : EngineSlot :=
  if s.isTerminal engine then s else { s with engines := s.engines.set engine state }

/-- `RuntimeSupervisor::start`; `answer` is what `EngineHandle::start` brings, if it does not fail. -/
def start (answer : Option EngineState) : Except EngineError EngineState × EngineSlot :=
  if s.isRunning then (.error .backpressure, s)
  else
    match answer with
    | none => (.error .startFailed, s)
    | some state => (.ok state, s.install state)

/-- `RuntimeSupervisor::stop` up to where it gives the lock of the slot back. -/
def stop : Except EngineError ℕ × EngineSlot :=
  match s.engine with
  | none => (.error .notRunning, s)
  | some engine => (.ok engine, { s with engine := none })

/-- What the old engine answers to its shutdown, and what `EngineHandle::start` then brings. -/
structure RestartAnswer where
  shutdown : Except EngineError Unit
  start : Option EngineState
  deriving DecidableEq

/-- `restart_engine`, under the lock of the slot. -/
def restartEngine (answer : RestartAnswer) : Except EngineError Unit × EngineSlot :=
  let taken : EngineSlot := { s with engine := none }
  match s.engine, answer.shutdown with
  | some _, .error error => (.error error, taken)
  | _, _ =>
    match answer.start with
    | none => (.error .startFailed, taken)
    | some state => (.ok (), taken.install state)

/-! ### Ends and beginnings of engines -/

variable {s : EngineSlot} {e : ℕ}

/-- An engine that ended stays ended. -/
theorem isTerminal_exit (other : ℕ) {state : EngineState} (hstate : state ≠ .running)
    (h : s.isTerminal e = true) : (s.exit other state).isTerminal e = true := by
  unfold exit
  split
  · exact h
  · unfold isTerminal at h ⊢
    rw [decide_eq_true_eq] at h ⊢
    by_cases hsame : other = e
    · subst hsame
      rw [List.getElem?_set]
      split
      · next hin => split <;> simp_all
      · simp_all
    · rw [List.getElem?_set_ne hsame]
      exact h

/-- A new engine is none of the old ones. -/
theorem isTerminal_install (state : EngineState) (he : e < s.engines.length) :
    (s.install state).isTerminal e = s.isTerminal e := by
  unfold isTerminal install
  rw [List.getElem?_append_left he]

theorem start_cases (s : EngineSlot) (answer : Option EngineState) :
    (s.isRunning = true ∧ s.start answer = (.error .backpressure, s)) ∨
      (s.isRunning = false ∧ s.start answer = (.error .startFailed, s)) ∨
      ∃ state, answer = some state ∧ s.isRunning = false ∧ s.start answer = (.ok state, s.install state) := by
  unfold start
  cases s.isRunning with
  | true => exact .inl ⟨rfl, rfl⟩
  | false =>
    cases answer with
    | none => exact .inr (.inl ⟨rfl, rfl⟩)
    | some state => exact .inr (.inr ⟨state, rfl, rfl, rfl⟩)

theorem engine_ne_none_of_isRunning (h : s.isRunning = true) : s.engine ≠ none := by
  intro hempty
  unfold isRunning at h
  rw [hempty] at h
  cases h

theorem isRunning_install_running (s : EngineSlot) : (s.install .running).isRunning = true := by
  simp [isRunning, install, isTerminal]

end EngineSlot

/-! ### Waking an account slot -/

/-- Where `ensure_resident` stands. -/
inductive WakePc
  /-- before the first look at the status -/
  | look
  /-- waiting for the lock of wakes -/
  | wait
  /-- with the lock, before the second look -/
  | lookAgain
  /-- with the lock, before `start` -/
  | start
  /-- the engine was found running or was started: about to mark the slot resident and to return, and with
  the lock in hand to look after the window -/
  | mark (woke : Bool)
  deriving DecidableEq

def WakePc.holdsWake : WakePc → Bool
  | .lookAgain | .start | .mark true => true
  | _ => false

def dataDirOccupiedError : ServiceError :=
  .api ⟨"CAPABILITY_UNAVAILABLE", "the account engine data directory is occupied", false⟩

/-- One step of `ensure_resident`. `holdsLock`: the slot has its data directory; `free`: no other wake has the lock. -/
def ensureResidentStep (holdsLock free : Bool) (s : EngineSlot) (answer : Option EngineState) :
    WakePc → Except ServiceError WakePc × EngineSlot
  | .look =>
    if s.isRunning then (.ok (.mark false), s)
    else if holdsLock then (.ok .wait, s)
    else (.error dataDirOccupiedError, s)
  | .wait => (.ok (if free then .lookAgain else .wait), s)
  | .lookAgain => (.ok (if s.isRunning then .mark true else .start), s)
  | .start =>
    match s.start answer with
    | (.ok .running, s) => (.ok (.mark true), s)
    | (.ok _, s) => (.error (.engine .startFailed), s)
    | (.error .backpressure, s) => (.ok (.mark true), s)
    | (.error error, s) => (.error (.engine error), s)
  | .mark woke => (.ok (.mark woke), s)

/-- A wake leaves the slot alone or starts an engine. -/
theorem ensureResidentStep_slot (holdsLock free : Bool) (s : EngineSlot) (answer : Option EngineState)
    (pc : WakePc) : ((ensureResidentStep holdsLock free s answer pc).2 = s ∧
        ∀ next, pc = .start → (ensureResidentStep holdsLock free s answer pc).1 = .ok next → s.engine ≠ none) ∨
      pc = .start ∧ s.isRunning = false ∧
        ∃ state, (ensureResidentStep holdsLock free s answer pc).2 = s.install state := by
  cases pc with
  | look =>
    refine .inl ⟨?_, nofun⟩
    unfold ensureResidentStep
    dsimp only
    split
    · rfl
    · split <;> rfl
  | wait | lookAgain => exact .inl ⟨rfl, nofun⟩
  | start =>
    unfold ensureResidentStep
    rcases s.start_cases answer with ⟨hrunning, h⟩ | ⟨-, h⟩ | ⟨state, -, hnot, h⟩
    · simp only [h]
      exact .inl ⟨trivial, fun _ _ _ => EngineSlot.engine_ne_none_of_isRunning hrunning⟩
    · simp only [h]
      exact .inl ⟨trivial, nofun⟩
    · simp only [h]
      refine .inr ⟨trivial, hnot, state, ?_⟩
      cases state <;> rfl
  | mark => exact .inl ⟨rfl, nofun⟩

end SignalConnector
