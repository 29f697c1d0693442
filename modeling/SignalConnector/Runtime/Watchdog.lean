/-
# The watchdog

`watchdog_loop` clones the handle in the slot, waits for a line on the engine's
stderr or for its tick, and restarts the engine when a line says that the
receive socket died, when pings fail twice in a row, or when the engine of an
account slot ended. A trigger inside the backoff of the last restart is armed
as pending and fires on a later tick; a trigger during a link flow is dropped.
The loop keeps the clone, the subscription and the pending restart in local
variables while calls from elsewhere empty and fill the slot, so it is modelled
with a program counter, one step for what it does between two `await`s.
-/
import SignalConnector.Runtime.Engine
import SignalConnector.Runtime.Link

namespace SignalConnector

/-! ### Pending restarts and episodes -/

/-- What asked for it. -/
inductive RestartSource
  | stderr | ping | crash
  deriving DecidableEq

/-- A restart put off. -/
structure PendingRestart where
  source : RestartSource
  reason : String
  dueAt : ℕ
  evidence : ℕ
  deriving DecidableEq

/-- Restarts without a quiet spell. -/
structure WatchdogEpisode where
  restarts : ℕ
  lastTrigger : Option ℕ
  deriving DecidableEq

/-- The durations of the configuration that the watchdog reads. -/
structure WatchdogConfig where
  watchdogInterval : ℕ
  watchdogMinRestartInterval : ℕ
  watchdogLivenessBackoffBase : ℕ
  deriving DecidableEq

def watchdogLivenessBackoffCap : ℕ := 180000

def watchdogMaxPingFailures : ℕ := 2

/-- The pause doubles up to the cap. -/
def watchdogRestartBackoff (base restarts cap : ℕ) : ℕ :=
  if restarts = 0 ∨ base = 0 then 0 else min (base * 2 ^ min (restarts - 1) 16) cap

/-- The candidate takes the place of what is armed. -/
def PendingRestart.replaces (candidate existing : PendingRestart) : Bool :=
  match existing.source, candidate.source with
  | .stderr, .ping => false
  | .ping, .stderr => true
  | _, _ => candidate.dueAt < existing.dueAt

/-- One restart is armed at a time. -/
def armPendingRestart (pending : Option PendingRestart) (candidate : PendingRestart) : Option PendingRestart :=
  match pending with
  | none => some candidate
  | some existing =>
    if candidate.replaces existing then
      some { candidate with evidence := min existing.evidence candidate.evidence }
    else some existing

/-! ### The loop -/

/-- Where the loop stands; `engine` is the clone made at its head. -/
inductive WatchdogPc
  /-- before the clone -/
  | head
  /-- in `select!` -/
  | select (engine : Option ℕ)
  /-- in `watchdog_request_restart`, before it asks for a link flow -/
  | request (source : RestartSource) (reason : String) (engine : Option ℕ)
  /-- in `watchdog_request_restart`, before the lock of the slot -/
  | restart (source : RestartSource) (engine : Option ℕ)
  /-- a pending restart is due, before it asks for a link flow -/
  | deferred (armed : PendingRestart) (engine : Option ℕ)
  /-- a pending restart is executed, before the lock of the slot -/
  | restartDeferred (armed : PendingRestart)
  /-- the ping targets are found and probed -/
  | probe (engine : ℕ)
  deriving DecidableEq

/-- The local variables of the loop; `stderr` is the engine whose stderr is subscribed to. -/
structure Watchdog where
  pc : WatchdogPc
  stderr : Option ℕ
  pingFailures : ℕ
  lastRestart : Option ℕ
  pending : Option PendingRestart
  episode : WatchdogEpisode
  deriving DecidableEq

def Watchdog.init : Watchdog := ⟨.head, none, 0, none, none, ⟨0, none⟩⟩

/-- How a ping series ended: in a link flow, without a target, by an answer no restart could mend, or by an error. -/
inductive PingOutcome
  | linkFlow | noTarget | answered | unauthorized | allRefused | failed
  deriving DecidableEq

/-- What the loop meets at its next step. -/
inductive WatchdogInput
  | proceed
  | line (fatal : Bool)
  | closed
  | sweep
  | tick
  | restarted (answer : EngineSlot.RestartAnswer)
  | probed (outcome : PingOutcome)
  deriving DecidableEq

/-- What the loop reads of its supervisor. -/
structure WatchdogView where
  config : WatchdogConfig
  accountSlot : Bool
  nowMs : ℕ
  linkFlow : Bool
  receiveEvidence : ℕ
  slot : EngineSlot

namespace Watchdog

/-- The anti-storm window has passed since the last trigger. -/
def triggerFree (episode : WatchdogEpisode) (view : WatchdogView) : Bool :=
  episode.lastTrigger.any fun last => view.config.watchdogMinRestartInterval < view.nowMs - last

variable (w : Watchdog)

variable (view : WatchdogView) (source : RestartSource) (reason : String)

/-- `watchdog_request_restart` is called. -/
def beginRequest (engine : Option ℕ) : Watchdog :=
  let restarts := if triggerFree w.episode view then 0 else w.episode.restarts
  { w with episode := ⟨restarts, some view.nowMs⟩, pc := .request source reason engine }

/-- The rest of a tick: the clone is probed unless it ended. -/
def probeNext (engine : Option ℕ) : Watchdog :=
  match engine with
  | none => { w with pc := .head }
  | some engine => { w with pc := if view.slot.isTerminal engine then .head else .probe engine }

/-- The pending restart of a tick, if it is due. -/
def deferredCheck (engine : Option ℕ) : Watchdog :=
  match w.pending with
  | some armed => if armed.dueAt ≤ view.nowMs then { w with pc := .deferred armed engine } else w.probeNext view engine
  | none => w.probeNext view engine

/-- `watchdog_request_restart` has returned. -/
def endRequest (engine : Option ℕ) (restarted : Bool) : Watchdog :=
  match source with
  | .crash => w.deferredCheck view engine
  | .stderr | .ping =>
    if restarted then { w with pingFailures := 0, stderr := none, pc := .head } else { w with pc := .head }

def noteRestart (nowMs : ℕ) : Watchdog :=
  { w with
    lastRestart := some nowMs
    episode := { w.episode with restarts := min (w.episode.restarts + 1) (2 ^ 32 - 1) }
    pending := none }

/-- The decision of `watchdog_request_restart`: suppressed, throttled and armed, or executed. -/
def decideRequest (engine : Option ℕ) : Watchdog :=
  if view.linkFlow then w.endRequest view source engine false
  else
    let backoff := watchdogRestartBackoff view.config.watchdogLivenessBackoffBase w.episode.restarts
      watchdogLivenessBackoffCap
    match w.lastRestart with
    | some last =>
      if view.nowMs < last + backoff then
        let pending := armPendingRestart w.pending ⟨source, reason, last + backoff, view.receiveEvidence⟩
        { w with pending }.endRequest view source engine false
      else { w with pc := .restart source engine }
    | none => { w with pc := .restart source engine }

/-- An envelope delivered since clears what is pending. -/
def clearOnEvidence (view : WatchdogView) : Watchdog :=
  if w.pending.any fun armed => armed.evidence < view.receiveEvidence then
    { w with pending := none, pingFailures := 0 }
  else w

/-- A quiet window with nothing pending ends the episode. -/
def endEpisode (view : WatchdogView) : Watchdog :=
  if w.pending.isNone ∧ triggerFree w.episode view then { w with episode := ⟨0, none⟩ } else w

/-- A tick; the end of an account's engine is a trigger. -/
def tick (engine : Option ℕ) : Watchdog :=
  let w := (w.clearOnEvidence view).endEpisode view
  if view.accountSlot ∧ engine.any view.slot.isTerminal ∧ w.pending.isNone then
    w.beginRequest view .crash "engine process exited" engine
  else w.deferredCheck view engine

/-- The end of a ping series. -/
def probed (engine : ℕ) : PingOutcome → Watchdog
  | .linkFlow => { w with pc := .head }
  | .noTarget | .answered | .unauthorized | .allRefused => { w with pingFailures := 0, pc := .head }
  | .failed =>
    let w := { w with pingFailures := w.pingFailures + 1 }
    if watchdogMaxPingFailures ≤ w.pingFailures then
      w.beginRequest view .ping "receive liveness ping failed repeatedly" (some engine)
    else { w with pc := .head }

end Watchdog

/-- One step of `watchdog_loop`, on its own variables and on the slot. -/
def watchdogStep (view : WatchdogView) (w : Watchdog) (input : WatchdogInput) : Watchdog × EngineSlot :=
  match w.pc, input with
  | .head, .proceed =>
    let pid := view.slot.engine.bind view.slot.pid
    ({ w with stderr := pid, pc := .select view.slot.engine }, view.slot)
  | .select engine, .line fatal =>
    if w.stderr.isSome then
      (if fatal then w.beginRequest view .stderr "receive WebSocket error on stderr" engine
        else { w with pc := .head }, view.slot)
    else (w, view.slot)
  | .select _, .closed =>
    if w.stderr.isSome then ({ w with stderr := none, pc := .head }, view.slot) else (w, view.slot)
  | .select _, .sweep => ({ w with pc := .head }, view.slot)
  | .select engine, .tick => (w.tick view engine, view.slot)
  | .request source reason engine, .proceed => (w.decideRequest view source reason engine, view.slot)
  | .restart source engine, .restarted answer =>
    match view.slot.restartEngine answer with
    | (.ok (), slot) => ((w.noteRestart view.nowMs).endRequest { view with slot } source engine true, slot)
    | (.error _, slot) => (w.endRequest { view with slot } source engine false, slot)
  | .deferred armed engine, .proceed =>
    (if view.linkFlow then w.probeNext view engine else { w with pc := .restartDeferred armed }, view.slot)
  | .restartDeferred armed, .restarted answer =>
    match view.slot.restartEngine answer with
    | (.ok (), slot) => ({ w.noteRestart view.nowMs with pingFailures := 0, stderr := none, pc := .head }, slot)
    | (.error _, slot) =>
      let pending := some { armed with dueAt := view.nowMs + max view.config.watchdogInterval 1 }
      ({ w with pending, pc := .head }, slot)
  | .probe engine, .probed outcome => (w.probed view engine outcome, view.slot)
  | _, _ => (w, view.slot)

/-! ### What the parts of a tick come to -/

namespace Watchdog

variable (w : Watchdog) (view : WatchdogView) (engine : Option ℕ)

theorem probeNext_cases :
    ((∀ e ∈ engine, view.slot.isTerminal e = true) ∧ w.probeNext view engine = { w with pc := .head }) ∨
      ∃ e ∈ engine, view.slot.isTerminal e = false ∧ w.probeNext view engine = { w with pc := .probe e } := by
  cases engine with
  | none => exact .inl ⟨nofun, rfl⟩
  | some e =>
    unfold probeNext
    by_cases he : view.slot.isTerminal e = true
    · refine .inl ⟨fun e' he' => ?_, by simp only [he, if_true]⟩
      cases he'
      exact he
    · rw [Bool.not_eq_true] at he
      exact .inr ⟨e, rfl, he, by simp only [he, Bool.false_eq_true, if_false]⟩

theorem deferredCheck_cases : (∃ armed ∈ w.pending, armed.dueAt ≤ view.nowMs ∧
        w.deferredCheck view engine = { w with pc := .deferred armed engine }) ∨
      (∀ armed ∈ w.pending, view.nowMs < armed.dueAt) ∧
        w.deferredCheck view engine = w.probeNext view engine := by
  unfold deferredCheck
  split
  · next armed hpending =>
    by_cases hdue : armed.dueAt ≤ view.nowMs
    · exact .inl ⟨armed, hpending, hdue, by rw [if_pos hdue]⟩
    · refine .inr ⟨fun armed' harmed => ?_, by rw [if_neg hdue]⟩
      cases Option.mem_unique harmed hpending
      exact Nat.lt_of_not_le hdue
  · next hpending =>
    refine .inr ⟨fun armed harmed => ?_, rfl⟩
    rw [hpending] at harmed
    cases harmed

end Watchdog

/-! ### The runtime around one slot -/

/-- One engine slot with its watchdog, links, wakes and flag; `wanted`: started and not stopped since. -/
structure RuntimeWorld where
  config : WatchdogConfig
  accountSlot : Bool
  holdsLock : Bool
  running : Bool
  wanted : Bool
  links : LinkWorld
  receiveEvidence : ℕ
  slot : EngineSlot
  watchdog : Watchdog
  wakes : List WakePc
  deriving DecidableEq

/-- Calls, steps of the tasks, and what the outside does. -/
inductive RuntimeEvent
  /-- `RuntimeSupervisor::start` -/
  | start (answer : Option EngineState)
  /-- `RuntimeSupervisor::stop`; its two clears are link events -/
  | stop
  /-- the flag of `ProxyGroupRuntime::start` and `stop` -/
  | setRunning (running : Bool)
  /-- `slot_for_account` -/
  | slotForAccount
  /-- a wake's next step -/
  | wake (number : ℕ) (answer : Option EngineState)
  | watchdog (input : WatchdogInput)
  | link (event : LinkEvent)
  /-- an engine's process ends -/
  | exit (engine : ℕ) (state : EngineState)
  /-- an envelope is persisted -/
  | envelope
  deriving DecidableEq

namespace RuntimeWorld

def init (config : WatchdogConfig) (accountSlot holdsLock : Bool) (links : LinkWorld) : RuntimeWorld where
  config
  accountSlot
  holdsLock
  running := false
  wanted := false
  links
  receiveEvidence := 0
  slot := .empty
  watchdog := .init
  wakes := []

/-- What the watchdog sees. -/
def view (w : RuntimeWorld) : WatchdogView where
  config := w.config
  accountSlot := w.accountSlot
  nowMs := w.links.nowMs
  linkFlow := w.links.lane.linkFlowActive w.links.nowMs
  receiveEvidence := w.receiveEvidence
  slot := w.slot

/-- One step of a wake; one that returned is gone. -/
def wakeStep (w : RuntimeWorld) (number : ℕ) (answer : Option EngineState) : RuntimeWorld :=
  match w.wakes[number]? with
  | none => w
  | some (.mark _) => { w with wakes := w.wakes.eraseIdx number }
  | some pc =>
    let free := !w.wakes.any WakePc.holdsWake
    match ensureResidentStep w.holdsLock free w.slot answer pc with
    | (.ok next, slot) => { w with slot, wakes := w.wakes.set number next, wanted := w.wanted || pc == .start }
    | (.error _, slot) => { w with slot, wakes := w.wakes.eraseIdx number }

/-- One task goes on. -/
def step (w : RuntimeWorld) : RuntimeEvent → RuntimeWorld
  | .start answer =>
    match w.slot.start answer with
    | (.ok _, slot) => { w with slot, wanted := true }
    | (.error .backpressure, slot) => { w with slot, wanted := true }
    | (.error _, slot) => { w with slot }
  | .stop => { w with slot := w.slot.stop.2, wanted := false }
  | .setRunning running => { w with running }
  | .slotForAccount => if w.running then { w with wakes := w.wakes ++ [.look] } else w
  | .wake number answer => w.wakeStep number answer
  | .watchdog input =>
    let (watchdog, slot) := watchdogStep w.view w.watchdog input
    { w with watchdog, slot }
  | .link event => { w with links := w.links.step event }
  | .exit engine state => if state = .running then w else { w with slot := w.slot.exit engine state }
  | .envelope => { w with receiveEvidence := w.receiveEvidence + 1 }

end RuntimeWorld

end SignalConnector
