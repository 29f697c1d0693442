/-
# The dispatch barrier of an account

Host requests that change an account share one mutex per account
(`HostDispatchLimits::acquire`). A delete marks the account before it waits for
the mutex; other requests are refused while it is marked and otherwise queue.
Whoever has the mutex keeps it to the end of the dispatch, which the stall
budget may cut off. The outbox worker prepares, dispatches and completes its
sends without the mutex, and the receive worker of an account slot writes the
account's row again if it is gone.
-/
import Mathlib

namespace SignalConnector

/-- Where a send stands. -/
inductive SendPc
  /-- past the check of the mark, waiting for the mutex -/
  | wait
  /-- before it resolves the account and prepares its row -/
  | prepare
  /-- before `engine.call("send")` -/
  | dispatch
  /-- dispatched upstream -/
  | inFlight
  /-- answered, before the completion write -/
  | complete
  /-- dispatched upstream by a request that was dropped before the completion write -/
  | abandoned
  | ended
  deriving DecidableEq

/-- What becomes of a send whose request is dropped: one that was dispatched is never completed. -/
def SendPc.dropped : SendPc → SendPc
  | .inFlight | .complete | .abandoned => .abandoned
  | _ => .ended

/-- Where `delete_local_account` stands; `upstream` says whether it made the upstream delete itself or found the
account absent. -/
inductive DeletePc
  | wait
  /-- before `prepare_account_delete` -/
  | plan
  /-- before `running_engine` and, of a repeated operation, the look for the account -/
  | engine (reconcileFirst : Bool)
  /-- before `engine.call("deleteLocalAccountData")` -/
  | upstream
  | inFlight
  /-- before `complete_account_delete_recorded` -/
  | complete (upstream : Bool)
  /-- the rows are gone; the pool still has the slot -/
  | discard (upstream : Bool)
  | ended
  deriving DecidableEq

inductive AccountTask
  | send (pc : SendPc)
  | outbox (pc : SendPc)
  | delete (pc : DeletePc)
  deriving DecidableEq

/-- How the step of a task turns out. -/
inductive TaskAnswer
  | ok
  | fail
  /-- to the plan of a delete: the operation was begun before -/
  | repeated
  /-- to the look at the engine's accounts: not there -/
  | absent
  deriving DecidableEq

/-- `pooled`: the account has its own slot. `marks` counts the deletes under way, `holder` has the mutex. `started`:
an upstream delete has started; `cutShort`: one ended without having removed the account. -/
structure BarrierWorld where
  pooled : Bool
  row : Bool
  slot : Bool
  marks : ℕ
  holder : Option ℕ
  tasks : List AccountTask
  started : Bool
  cutShort : Bool
  deriving DecidableEq

inductive BarrierEvent
  /-- a request that changes the account, other than its delete -/
  | send
  /-- `accounts.deleteLocalData` -/
  | delete
  /-- the outbox worker takes up a claim -/
  | outbox
  /-- the receive worker persists a message of the account -/
  | ingest
  | advance (task : ℕ) (answer : TaskAnswer)
  /-- the stall budget of a request runs out -/
  | abandon (task : ℕ)
  deriving DecidableEq

/-- The delete has started its upstream delete and is not done. -/
def DeletePc.begun : DeletePc → Bool
  | .inFlight | .complete true | .discard true => true
  | _ => false

namespace BarrierWorld

/-- An account with nothing under way. -/
def linked (pooled : Bool) : BarrierWorld where
  pooled
  row := true
  slot := true
  marks := 0
  holder := none
  tasks := []
  started := false
  cutShort := false

def set (w : BarrierWorld) (k : ℕ) (task : AccountTask) : BarrierWorld := { w with tasks := w.tasks.set k task }

variable (w : BarrierWorld)

/-- The holder once a task has dropped its permit. -/
def released (k : ℕ) : Option ℕ := if w.holder = some k then none else w.holder

/-- A host send is left at `pc`, and the mutex given back. -/
def leaveSend (k : ℕ) (pc : SendPc) : BarrierWorld := { w.set k (.send pc) with holder := w.released k }

/-- A delete ends: the mutex is given back and the mark taken off. -/
def endDelete (k : ℕ) (cutShort : Bool) : BarrierWorld :=
  { w.set k (.delete .ended) with
    holder := w.released k, marks := w.marks - 1, cutShort := w.cutShort || cutShort }

def sendStep (k : ℕ) (answer : TaskAnswer) : SendPc → BarrierWorld
  | .wait => if w.holder = none then { w.set k (.send .prepare) with holder := some k } else w
  | .prepare => if w.slot ∧ w.row ∧ answer = .ok then w.set k (.send .dispatch) else w.leaveSend k .ended
  | .dispatch => w.set k (.send .inFlight)
  | .inFlight => w.set k (.send .complete)
  | .complete => w.leaveSend k .ended
  | .abandoned | .ended => w

/-- A step of a send of `outbox_pass`, without the mutex. -/
def outboxStep (k : ℕ) (answer : TaskAnswer) : SendPc → BarrierWorld
  | .prepare => w.set k (.outbox (if w.row ∧ answer = .ok then .dispatch else .ended))
  | .dispatch => w.set k (.outbox .inFlight)
  | .inFlight => w.set k (.outbox .complete)
  | .complete => w.set k (.outbox .ended)
  | .wait | .abandoned | .ended => w

/-- A step of `delete_local_account`. -/
def deleteStep (k : ℕ) (answer : TaskAnswer) : DeletePc → BarrierWorld
  | .wait => if w.holder = none then { w.set k (.delete .plan) with holder := some k } else w
  | .plan =>
    -- without a slot or a row there is nothing to delete upstream
    if w.slot ∧ w.row ∧ (answer = .ok ∨ answer = .repeated) then w.set k (.delete (.engine (answer = .repeated)))
    else w.endDelete k false
  | .engine reconcileFirst =>
    if answer = .fail then w.endDelete k false
    else if reconcileFirst ∧ answer = .absent then w.set k (.delete (.complete false))
    else w.set k (.delete .upstream)
  | .upstream => { w.set k (.delete .inFlight) with started := true }
  | .inFlight => if answer = .ok then w.set k (.delete (.complete true)) else w.endDelete k true
  | .complete upstream =>
    if answer = .ok then { w.set k (.delete (.discard upstream)) with row := false } else w.endDelete k upstream
  | .discard _ => { w.endDelete k false with slot := w.slot && !w.pooled }
  | .ended => w

def advance (k : ℕ) (answer : TaskAnswer) : BarrierWorld :=
  match w.tasks[k]? with
  | some (.send pc) => w.sendStep k answer pc
  | some (.outbox pc) => w.outboxStep k answer pc
  | some (.delete pc) => w.deleteStep k answer pc
  | none => w

/-- The future of a request is dropped where it stands; the outbox worker has no such budget. -/
def abandon (k : ℕ) : BarrierWorld :=
  match w.tasks[k]? with
  | some (.send pc) => w.leaveSend k pc.dropped
  | some (.delete pc) => if pc = .ended then w else w.endDelete k pc.begun
  | _ => w

/-- One task, or the clock, goes on. -/
def step : BarrierEvent → BarrierWorld
  | .send => if w.marks = 0 then { w with tasks := w.tasks ++ [.send .wait] } else w
  | .delete => { w with marks := w.marks + 1, tasks := w.tasks ++ [.delete .wait] }
  | .outbox => { w with tasks := w.tasks ++ [.outbox .prepare] }
  | .ingest =>
    -- outside the pool the row comes back under a fresh id, as another account
    { w with row := w.row || (w.pooled && w.slot) }
  | .advance k answer => w.advance k answer
  | .abandon k => w.abandon k

end BarrierWorld

end SignalConnector
