/-
# Whose plaintext export is it?

`PlaintextTaskRegistry` keeps one task per account and knows a run by its
account alone. The world beside it remembers which run began the entry of an
account and which run settled it: they are the same run as long as no run
ends while a later run holds the slot of its account.
-/
import SignalConnector.Lib.Run

namespace SignalConnector

/-- How a task stands. -/
inductive PlaintextTaskState where
  | running
  | completed
  | failed
  deriving DecidableEq

/-- `PlaintextBuildOutcome`, without the file name that the registry never reads; `C` is `SkipCounters`. -/
structure PlaintextBuildOutcome (C : Type) where
  lines : ℕ
  bytes : ℕ
  counters : C

/-- The last task of an account. -/
structure PlaintextTaskSnapshot (C : Type) where
  state : PlaintextTaskState
  startedAtMs : ℕ
  finishedAtMs : Option ℕ
  lines : Option ℕ
  bytes : Option ℕ
  error : Option String
  counters : Option C
  deriving DecidableEq

/-- The entries; `latest` is the lookup. -/
abbrev PlaintextTaskRegistry (C : Type) := String → Option (PlaintextTaskSnapshot C)

variable {C : Type}

namespace PlaintextTaskRegistry

variable (entries : PlaintextTaskRegistry C) (accountId : String)

def isRunning : Bool := (entries accountId).any fun entry => entry.state = .running

/-- A task begins where none runs. -/
def begin (startedAtMs : ℕ) : Bool × PlaintextTaskRegistry C :=
  if isRunning entries accountId then (false, entries)
  else (true, Function.update entries accountId (some ⟨.running, startedAtMs, none, none, none, none, none⟩))

/-- What `complete` and `fail` share: only a running entry is settled. -/
def settle (f : PlaintextTaskSnapshot C → PlaintextTaskSnapshot C) : PlaintextTaskRegistry C :=
  if isRunning entries accountId then Function.update entries accountId ((entries accountId).map f) else entries

/-- The task ends well. -/
def complete (finishedAtMs : ℕ) (outcome : PlaintextBuildOutcome C) : PlaintextTaskRegistry C :=
  settle entries accountId fun entry =>
    { entry with
      state := .completed
      finishedAtMs := some finishedAtMs
      lines := some outcome.lines
      bytes := some outcome.bytes
      counters := some outcome.counters }

/-- The task ends in an error. -/
def fail (finishedAtMs : ℕ) (error : String) : PlaintextTaskRegistry C :=
  settle entries accountId fun entry =>
    { entry with
      state := .failed
      finishedAtMs := some finishedAtMs
      error := some error }

/-- The entry goes. -/
def clear : PlaintextTaskRegistry C := Function.update entries accountId none

end PlaintextTaskRegistry

/-! ### Runs and deletions -/

inductive TaskEvent (C : Type) where
  | begin (accountId : String) (startedAtMs : ℕ)
  | complete (run finishedAtMs : ℕ) (outcome : PlaintextBuildOutcome C)
  | fail (run finishedAtMs : ℕ) (error : String)
  | clear (accountId : String)

/-- The registry and its runs, numbered as they begin: who began and who settled an account's entry, and the account
of each run under way. -/
structure TaskWorld (C : Type) where
  registry : PlaintextTaskRegistry C
  owner : String → Option ℕ
  settler : String → Option ℕ
  live : ℕ → Option String
  begun : ℕ

namespace TaskWorld

/-- An empty registry. -/
def start : TaskWorld C := ⟨fun _ => none, fun _ => none, fun _ => none, fun _ => none, 0⟩

variable (w : TaskWorld C)

/-- A run ends, once. -/
def endRun (run : ℕ) (settle : PlaintextTaskRegistry C → String → PlaintextTaskRegistry C) : TaskWorld C :=
  match w.live run with
  | none => w
  | some accountId =>
    { w with
      registry := settle w.registry accountId
      settler := if w.registry.isRunning accountId then Function.update w.settler accountId (some run) else w.settler
      live := Function.update w.live run none }

def step : TaskEvent C → TaskWorld C
  | .begin accountId startedAtMs =>
    match w.registry.begin accountId startedAtMs with
    | (false, _) => w
    | (true, registry) =>
      ⟨registry, Function.update w.owner accountId (some w.begun), Function.update w.settler accountId none,
        Function.update w.live w.begun (some accountId), w.begun + 1⟩
  | .complete run finishedAtMs outcome => w.endRun run fun registry a => registry.complete a finishedAtMs outcome
  | .fail run finishedAtMs error => w.endRun run fun registry a => registry.fail a finishedAtMs error
  | .clear accountId =>
    { w with
      registry := w.registry.clear accountId
      owner := Function.update w.owner accountId none
      settler := Function.update w.settler accountId none }

/-- The numbers of the runs to come are free. -/
def Fresh : Prop := ∀ run, w.begun ≤ run → w.live run = none

variable {w}

theorem Fresh.step (h : w.Fresh) (event : TaskEvent C) : (w.step event).Fresh := by
  unfold Fresh at h ⊢
  cases event with
  | clear => exact h
  | _ => simp only [TaskWorld.step, endRun]; split <;> grind [Function.update_apply]

end TaskWorld
end SignalConnector
