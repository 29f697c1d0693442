/-
# The account slots of the pool

Every account has a slot with a supervisor, its engine and its workers. A slot
is woken by the requests that address it (`ensure_resident`) and by the
runtime's start; while more than `max_resident` are awake, tasks of their own
demote idle ones and shut their engines down. `stop_all` and the runtime's stop
go through the slots one by one. All run at the same time: a step is one of
them up to where another can get in.
-/
import SignalConnector.Runtime.Engine

namespace SignalConnector

/-- The workers that a slot has for its lifetime. -/
inductive Worker
  | receivePersistence | accountUnlink | watchdog | deliveryReceipt | outbox | backgroundSync | avatarRefresh
  | expireSweeper
  deriving DecidableEq

namespace Worker

/-- What `build_slot` leaves running. -/
def buildSlot : List Worker :=
  [.receivePersistence, .accountUnlink, .watchdog, .deliveryReceipt, .outbox, .backgroundSync, .avatarRefresh,
    .expireSweeper]

/-- What `stop_background_tasks` aborts. -/
def isStopped : Worker → Bool
  | .watchdog | .expireSweeper | .deliveryReceipt | .outbox | .receivePersistence | .accountUnlink => true
  | .backgroundSync | .avatarRefresh => false

end Worker

/-- A slot and its past: `assured`, that `ensure_resident` returned and nothing took it since, and `demoted`. -/
structure PoolSlot where
  holdsLock : Bool
  engine : EngineSlot
  resident : Bool
  workers : List Worker
  lastUsed : ℕ
  assured : Bool
  demoted : Bool
  deriving DecidableEq

namespace PoolSlot

/-- `build_slot`: cold, with its workers. -/
def buildSlot (holdsLock : Bool) (lastUsed : ℕ) : PoolSlot where
  holdsLock
  engine := .empty
  resident := false
  workers := Worker.buildSlot
  lastUsed
  assured := false
  demoted := false

/-- The slot is in use. -/
def touch (now : ℕ) (s : PoolSlot) : PoolSlot := { s with lastUsed := now }

/-- `set_resident(true)`. -/
def setResident (s : PoolSlot) : PoolSlot := { s with resident := true }

/-- `ensure_resident` marks the slot and returns. -/
def assure (s : PoolSlot) : PoolSlot := { s with resident := true, assured := true }

/-- `start` of the supervisor. -/
def start (answer : Option EngineState) (s : PoolSlot) : PoolSlot :=
  { s with engine := (s.engine.start answer).2 }

/-- The demotion of a slot up to the shutdown it spawns: `set_resident(false)`, `stop_background_tasks`. -/
def demote (s : PoolSlot) : PoolSlot :=
  { s with resident := false, workers := s.workers.filter fun worker => !worker.isStopped, assured := false,
           demoted := true }

/-- A stop of the slot begins; `stop_all` clears the mark first, the runtime's own stop does not. -/
def beginStop (clears : Bool) (s : PoolSlot) : PoolSlot :=
  { s with resident := s.resident && !clears, assured := false }

/-- `stop` or `shutdown` of the supervisor gets the lock and takes the engine. -/
def takeEngine (s : PoolSlot) : PoolSlot := { s with engine := s.engine.stop.2 }

end PoolSlot

/-- A demotion task: the slot it keeps, and once it has counted, how many are to go and among which. -/
structure Demotion where
  keep : ℕ
  plan : Option (ℕ × List ℕ)
  deriving DecidableEq

/-- `stop_all` or the runtime's stop: the slots left, and whether the stop of the first has begun. -/
structure Stopping where
  clears : Bool
  rest : List ℕ
  begun : Bool
  deriving DecidableEq

/-- `start_resident`: the slots left, and whether the engine of the first was started. -/
structure Starting where
  rest : List ℕ
  started : Bool
  deriving DecidableEq

/-- The pool with every call and task on its way. Slots are in the order of their account ids. -/
structure PoolWorld where
  maxResident : ℕ
  demoteIdleAfter : ℕ
  nowMs : ℕ
  slots : List PoolSlot
  wakes : List (ℕ × Option WakePc)
  demotions : List Demotion
  shutdowns : List ℕ
  stops : List Stopping
  starts : List Starting
  deriving DecidableEq

inductive PoolEvent
  /-- `ensure_resident` is called -/
  | ensureResident (slot : ℕ)
  /-- a step of a wake; `answer` is what `EngineHandle::start` brings -/
  | wake (call : ℕ) (answer : Option EngineState)
  /-- `note_activity` -/
  | noteActivity (slot : ℕ)
  /-- a step of a demotion task: it counts, or looks at one candidate -/
  | demotion (task : ℕ)
  /-- a spawned shutdown takes the engine -/
  | shutdown (task : ℕ)
  /-- `stop_all` or the runtime's stop is called -/
  | stop (clears : Bool)
  | stopping (call : ℕ)
  /-- the runtime's start is called -/
  | start
  | starting (call : ℕ) (answer : Option EngineState)
  | elapse (ms : ℕ)
  deriving DecidableEq

namespace PoolWorld

/-- The pool as `discover` builds it: every slot cold. -/
def discover (maxResident demoteIdleAfter nowMs : ℕ) (slots : List (Bool × ℕ)) : PoolWorld where
  maxResident
  demoteIdleAfter
  nowMs
  slots := slots.map fun slot => .buildSlot slot.1 slot.2
  wakes := []
  demotions := []
  shutdowns := []
  stops := []
  starts := []

variable (w : PoolWorld)

/-- How many are awake. -/
def residentCount : ℕ := w.slots.countP (·.resident)

def modifySlot (i : ℕ) (f : PoolSlot → PoolSlot) : PoolWorld :=
  { w with slots := w.slots.modify i f }

/-- The slots' numbers, least recently used first. -/
def byLastUsed : List ℕ :=
  (List.range w.slots.length).insertionSort fun i j =>
    (w.slots[i]?.elim 0 (·.lastUsed)) ≤ (w.slots[j]?.elim 0 (·.lastUsed))

/-- The slots' numbers, most recently used first. -/
def byRecency : List ℕ :=
  (List.range w.slots.length).insertionSort fun i j =>
    (w.slots[j]?.elim 0 (·.lastUsed)) ≤ (w.slots[i]?.elim 0 (·.lastUsed))

/-- `enforce_window`: with too many residents a demotion task is spawned. -/
def enforceWindow (keep : ℕ) : PoolWorld :=
  if w.residentCount ≤ w.maxResident then w else { w with demotions := w.demotions ++ [⟨keep, none⟩] }

/-- No other wake of the slot holds its lock of wakes. -/
def wakeFree (call slot : ℕ) : Bool :=
  w.wakes.zipIdx.all fun ((other, pc), k) => k = call || other ≠ slot || !pc.any WakePc.holdsWake

/-- One step of `ensure_resident`. -/
def wakeStep (call : ℕ) (answer : Option EngineState) : PoolWorld :=
  match w.wakes[call]? with
  | some (i, some (.mark woke)) =>
    let w := { w with wakes := w.wakes.set call (i, none) }.modifySlot i .assure
    if woke then w.enforceWindow i else w
  | some (i, some pc) =>
    match w.slots[i]? with
    | some slot =>
      let (next, engine) := ensureResidentStep slot.holdsLock (w.wakeFree call i) slot.engine answer pc
      { w with wakes := w.wakes.set call (i, next.toOption) }.modifySlot i fun slot => { slot with engine }
    | none => w
  | _ => w

/-- A demotion task would demote this slot: resident, not the one to keep, and idle. -/
def isDemotable (keep i : ℕ) (slot : PoolSlot) : Bool :=
  slot.resident && i ≠ keep && w.demoteIdleAfter ≤ w.nowMs - slot.lastUsed

/-- One step of a demotion task. -/
def demotionStep (task : ℕ) : PoolWorld :=
  match w.demotions[task]? with
  | some ⟨keep, none⟩ =>
    { w with demotions := w.demotions.set task ⟨keep, some (w.residentCount - w.maxResident, w.byLastUsed)⟩ }
  | some ⟨keep, some (excess + 1, i :: rest)⟩ =>
    if w.slots[i]?.any (w.isDemotable keep i) then
      { w with demotions := w.demotions.set task ⟨keep, some (excess, rest)⟩,
               shutdowns := w.shutdowns ++ [i] }.modifySlot i .demote
    else { w with demotions := w.demotions.set task ⟨keep, some (excess + 1, rest)⟩ }
  | _ => w

/-- One step of `stop_all` or of the runtime's stop. -/
def stoppingStep (call : ℕ) : PoolWorld :=
  match w.stops[call]? with
  | some ⟨clears, i :: rest, false⟩ =>
    { w with stops := w.stops.set call ⟨clears, i :: rest, true⟩ }.modifySlot i (.beginStop clears)
  | some ⟨clears, i :: rest, true⟩ =>
    { w with stops := w.stops.set call ⟨clears, rest, false⟩ }.modifySlot i .takeEngine
  | _ => w

/-- One step of `start_resident`. -/
def startingStep (call : ℕ) (answer : Option EngineState) : PoolWorld :=
  match w.starts[call]? with
  | some ⟨i :: rest, false⟩ =>
    match w.slots[i]? with
    | some slot =>
      if !slot.holdsLock then { w with starts := w.starts.set call ⟨rest, false⟩ }
      else
        let next : Starting :=
          match (slot.engine.start answer).1 with
          | .ok .running | .error .backpressure => ⟨i :: rest, true⟩
          | _ => ⟨rest, false⟩
        { w with starts := w.starts.set call next }.modifySlot i (.start answer)
    | none => w
  | some ⟨i :: rest, true⟩ =>
    { w with starts := w.starts.set call ⟨rest, false⟩ }.modifySlot i .setResident
  | _ => w

/-- One task goes on. -/
def step : PoolEvent → PoolWorld
  | .ensureResident i => { w with wakes := w.wakes ++ [(i, some WakePc.look)] }.modifySlot i (.touch w.nowMs)
  | .wake call answer => w.wakeStep call answer
  | .noteActivity i => (w.modifySlot i fun slot => (slot.touch w.nowMs).setResident).enforceWindow i
  | .demotion task => w.demotionStep task
  | .shutdown task =>
    match w.shutdowns[task]? with
    | some i => { w with shutdowns := w.shutdowns.eraseIdx task }.modifySlot i .takeEngine
    | none => w
  | .stop clears => { w with stops := w.stops ++ [⟨clears, List.range w.slots.length, false⟩] }
  | .stopping call => w.stoppingStep call
  | .start => { w with starts := w.starts ++ [⟨w.byRecency.take w.maxResident, false⟩] }
  | .starting call answer => w.startingStep call answer
  | .elapse ms => { w with nowMs := w.nowMs + ms }

end PoolWorld

end SignalConnector
