/-
# Linking an account

A supervisor holds at most one link session, minted by `begin_link` with five
minutes to live, and at most one finish attempt in its lane,
`active_link_finish`. `finish_link` takes the lane, looks the session up, asks
the engine (which waits for a human to approve on the phone), gives the lane
back and only then commits the account row. Every lock it takes is a point
where other calls get in, so an attempt is a program counter and one of its
steps is what it does between two such points.
-/
import SignalConnector.Service.Send
import SignalConnector.Store.Database

namespace SignalConnector

/-! ### Sessions and the lane -/

/-- `LINK_SESSION_TTL`. -/
def linkSessionTtlMs : ℕ := 300000

def maxAccountsPerEngine : ℕ := 8

def maxDeviceNameBytes : ℕ := 64

/-- A session offered for linking. -/
structure ActiveLinkSession where
  sessionId : String
  deviceName : String
  deviceLinkUri : String
  expiresAtMs : ℕ
  deriving DecidableEq

/-- Its time is up. -/
def ActiveLinkSession.isExpired (session : ActiveLinkSession) (nowMs : ℕ) : Bool := session.expiresAtMs ≤ nowMs

/-- `ActiveLinkFinish`; the attempt is the call that holds the other end of the `cancel` channel. -/
structure ActiveLinkFinish where
  linkSessionId : String
  attempt : ℕ
  deriving DecidableEq

/-- The session of a supervisor's service and the supervisor's lane of finish attempts. -/
structure LinkLane where
  link : Option ActiveLinkSession
  activeLinkFinish : Option ActiveLinkFinish
  deriving DecidableEq

def linkInProgressError (message : String) : ServiceError := .api ⟨"LINK_IN_PROGRESS", message, false⟩

/-- A cancellation came first. -/
def linkCancelledError : ServiceError := .api ⟨"LINK_CANCELLED", "link session was cancelled", false⟩

/-- The group is full. -/
def accountLimitError (proxyGroup : String) : ServiceError :=
  .api ⟨"ACCOUNT_LIMIT_REACHED", "proxy group '" ++ proxyGroup ++ "' already holds " ++
    toString maxAccountsPerEngine ++ " accounts, the per-engine ceiling; delete an account before linking another",
    false⟩

/-- A delete is not done. -/
def unfinishedDeleteRelinkError : DeleteState → ServiceError
  | .unknown => .api ⟨"ACCOUNT_DELETE_OUTCOME_UNKNOWN",
      "this number's local-data delete has an unknown outcome; retry the delete before linking it again", false⟩
  | _ => .api ⟨"ACCOUNT_DELETE_IN_PROGRESS",
      "this number's local-data delete is still in progress; retry the delete before linking it again", false⟩

namespace LinkLane

variable (lane : LinkLane)

/-- A session that has not expired. -/
def hasPendingLink (nowMs : ℕ) : Bool := lane.link.any fun session => !session.isExpired nowMs

/-- A session or a finish is under way. -/
def linkFlowActive (nowMs : ℕ) : Bool :=
  lane.activeLinkFinish.isSome || lane.hasPendingLink nowMs

/-- `clear_link`, the first half of what a stop or shutdown does here. -/
def clearLink : LinkLane := { lane with link := none }

/-- The second half: the lane is emptied whoever is in it. -/
def dropLinkFinish : LinkLane := { lane with activeLinkFinish := none }

/-- `require_active_link`. An expired session is forgotten on the way. -/
def requireActiveLink (linkSessionId : String) (nowMs : ℕ) : Except ServiceError ActiveLinkSession × LinkLane :=
  match lane.link with
  | some session =>
    if session.sessionId = linkSessionId then
      if session.isExpired nowMs then
        (.error (.api ⟨"LINK_EXPIRED", "link session has expired", false⟩), lane.clearLink)
      else (.ok session, lane)
    else (.error (.api ⟨"LINK_NOT_FOUND", "link session was not found", false⟩), lane)
  | none => (.error (.api ⟨"LINK_NOT_FOUND", "link session was not found", false⟩), lane)

/-- The session is consumed. -/
def takeLinkSession (linkSessionId : String) (nowMs : ℕ) : Except ServiceError ActiveLinkSession × LinkLane :=
  match lane.requireActiveLink linkSessionId nowMs with
  | (.error error, lane) => (.error error, lane)
  | (.ok session, lane) => (.ok session, lane.clearLink)

/-- An expired session makes room. -/
def ensureLinkAvailable (nowMs : ℕ) : Except ServiceError Unit × LinkLane :=
  if lane.hasPendingLink nowMs then (.error (linkInProgressError "a link session is already active"), lane)
  else (.ok (), lane.clearLink)

/-- `begin_link`, with the session id that was drawn. -/
def beginLink (deviceName deviceLinkUri sessionId : String) (nowMs : ℕ) :
    Except ServiceError ActiveLinkSession × LinkLane :=
  if deviceName.utf8ByteSize = 0 ∨ maxDeviceNameBytes < deviceName.utf8ByteSize then
    (.error (.api ⟨"INVALID_REQUEST", "deviceName must contain between 1 and 64 bytes", false⟩), lane)
  else
    match lane.ensureLinkAvailable nowMs with
    | (.error error, lane) => (.error error, lane)
    | (.ok (), lane) =>
      let session : ActiveLinkSession := ⟨sessionId, deviceName, deviceLinkUri, nowMs + linkSessionTtlMs⟩
      (.ok session, { lane with link := some session })

/-- `clear_link_finish`: the lane is given back only while it names the session. -/
def clearLinkFinish (linkSessionId : String) : Bool × LinkLane :=
  if lane.activeLinkFinish.any fun finish => finish.linkSessionId = linkSessionId then
    (true, lane.dropLinkFinish)
  else (false, lane)

end LinkLane

/-! ### The commit -/

/-- The answers of the store while a link is committed. The upsert carries the id of the row it has written even
when it then fails. -/
structure CommitStore where
  unfinishedAccountDeleteState : Except StoreError (Option DeleteState)
  boundHere : Except StoreError Bool
  countAccountsInGroup : Except StoreError ℕ
  written : Option String
  upsertAccount : Except StoreError String
  setAccountAci : Except StoreError Unit
  accountSummary : Except StoreError Unit
  deriving DecidableEq

/-- The group is full. -/
def groupAtAccountCeiling (count : Except StoreError ℕ) : Except ServiceError Bool :=
  match count with
  | .error error => .error (.store error)
  | .ok n => .ok (maxAccountsPerEngine ≤ n)

/-- A bound number never does. -/
def linkWouldExceedCeiling (store : CommitStore) : Except ServiceError Bool :=
  match store.boundHere with
  | .error error => .error (.store error)
  | .ok true => .ok false
  | .ok false => groupAtAccountCeiling store.countAccountsInGroup

/-- The end of the commit, behind the consumed session: the id of the account. -/
def commitAccount (store : CommitStore) : Except ServiceError String :=
  match store.upsertAccount with
  | .error error => .error (.store error)
  | .ok accountId =>
    match store.setAccountAci, store.accountSummary with
    | .error error, _ => .error (.store error)
    | .ok (), .error error => .error (.store error)
    | .ok (), .ok () => .ok accountId

/-- `complete_link_session_with_id`: its answer, the id of the row it has written, and the lane. -/
def LinkLane.completeLinkSessionWithId (lane : LinkLane) (linkSessionId proxyGroup : String) (nowMs : ℕ)
    (store : CommitStore) : Except ServiceError String × Option String × LinkLane :=
  match lane.requireActiveLink linkSessionId nowMs with
  | (.error error, lane) => (.error error, none, lane)
  | (.ok _, lane) =>
    match store.unfinishedAccountDeleteState with
    | .error error => (.error (.store error), none, lane)
    | .ok (some state) =>
      (.error (unfinishedDeleteRelinkError state), none, (lane.takeLinkSession linkSessionId nowMs).2)
    | .ok none =>
      match linkWouldExceedCeiling store with
      | .error error => (.error error, none, lane)
      | .ok true => (.error (accountLimitError proxyGroup), none, lane)
      | .ok false =>
        match lane.takeLinkSession linkSessionId nowMs with
        | (.error error, lane) => (.error error, none, lane)
        | (.ok _, lane) => (commitAccount store, store.written, lane)

/-! ### One attempt -/

/-- Where an attempt stands. -/
inductive FinishPc
  /-- before `running_engine` -/
  | engine
  /-- before the lane is taken -/
  | lane
  /-- in the lane, before the session is looked up -/
  | peek
  /-- in the lane, about to give it back and to return the error -/
  | refused (error : ServiceError)
  /-- in the lane, before the ceiling is read -/
  | ceiling
  /-- in the lane, `finishLink` is with the engine -/
  | waiting
  /-- in the lane, the engine has answered: with a number or without, or not before the cancellation -/
  | answered (upstream : Except EngineError (Option (Option String)))
  /-- out of the lane, before the commit -/
  | commit (number : String)
  /-- committed: the memo row is folded and the summary read again -/
  | summary (accountId : String)
  /-- committed: the profile and the contacts are synced -/
  | sync (accountId : String)
  | returned (result : Except ServiceError String)
  deriving DecidableEq

/-- What the world answers an attempt with at its next step. -/
inductive FinishInput
  | engine (running : Bool)
  | proceed
  | ceiling (count : Except StoreError ℕ)
  | upstream (answer : Except EngineError (Option (Option String)))
  | commit (store : CommitStore)
  | summary (read : Except StoreError Unit)
  deriving DecidableEq

/-- What follows the engine's answer once the lane is given back. -/
def afterUpstream : Except EngineError (Option (Option String)) → FinishPc
  | .ok (some (some number)) => .commit number
  | .ok (some none) =>
    .returned (.error (.api ⟨"UPSTREAM_PROTOCOL_ERROR", "finishLink response missing number", true⟩))
  | .ok none => .returned (.error linkCancelledError)
  | .error .timeout => .returned (.error (.api ⟨"UPSTREAM_TIMEOUT",
      "finishLink timed out waiting for phone approval; retry after scanning", true⟩))
  | .error .unknownOutcome => .returned (.error (.api ⟨"LINK_OUTCOME_UNKNOWN",
      "finishLink outcome is unknown; check linked devices before retrying", false⟩))
  | .error error => .returned (.error (.engine error))

/-- `finish_link`, from one point where it waits to the next: where it then stands, the id of the row it has
written, and the lane. -/
def finishLinkStep (proxyGroup linkSessionId : String) (attempt nowMs : ℕ) (lane : LinkLane) :
    FinishPc → FinishInput → FinishPc × Option String × LinkLane
  | .engine, .engine false => (.returned (.error (.engine .notRunning)), none, lane)
  | .engine, .engine true => (.lane, none, lane)
  | .lane, .proceed =>
    if lane.activeLinkFinish.isSome then
      (.returned (.error (linkInProgressError "a link finish request is already active")), none, lane)
    else (.peek, none, { lane with activeLinkFinish := some ⟨linkSessionId, attempt⟩ })
  | .peek, .proceed =>
    match lane.requireActiveLink linkSessionId nowMs with
    | (.error error, lane) => (.refused error, none, lane)
    | (.ok _, lane) => (.ceiling, none, lane)
  | .refused error, .proceed => (.returned (.error error), none, (lane.clearLinkFinish linkSessionId).2)
  | .ceiling, .ceiling count =>
    match groupAtAccountCeiling count with
    -- the `?` of the source: the error leaves without giving the lane back
    | .error error => (.returned (.error error), none, lane)
    | .ok true => (.refused (accountLimitError proxyGroup), none, lane)
    | .ok false => (.waiting, none, lane)
  | .waiting, .upstream answer => (.answered answer, none, lane)
  | .answered upstream, .proceed =>
    match lane.clearLinkFinish linkSessionId with
    | (false, lane) => (.returned (.error linkCancelledError), none, lane)
    | (true, lane) => (afterUpstream upstream, none, lane)
  | .commit _, .commit store =>
    match lane.completeLinkSessionWithId linkSessionId proxyGroup nowMs store with
    | (.error error, written, lane) => (.returned (.error error), written, lane)
    | (.ok accountId, written, lane) => (.summary accountId, written, lane)
  | .summary _, .summary (.error error) => (.returned (.error (.store error)), none, lane)
  | .summary accountId, .summary (.ok ()) => (.sync accountId, none, lane)
  | .sync accountId, .proceed => (.returned (.ok accountId), none, lane)
  | pc, _ => (pc, none, lane)

/-! ### Everything that happens to a lane -/

/-- A supervisor's lane with every attempt ever made on it, and the ids of the accounts they committed. -/
structure LinkWorld where
  proxyGroup : String
  nowMs : ℕ
  lane : LinkLane
  attempts : List (String × FinishPc)
  committed : List String
  deriving DecidableEq

/-- Calls and the clock. `cancel_link` empties the lane, then takes the session; `stop` and `shutdown` the other way. -/
inductive LinkEvent
  | ensureLinkAvailable
  | beginLink (deviceName deviceLinkUri sessionId : String)
  | finishLink (linkSessionId : String)
  | advance (attempt : ℕ) (input : FinishInput)
  | cancelFinish (linkSessionId : String)
  | cancelLink (linkSessionId : String)
  | clearLink
  | dropLinkFinish
  | elapse (ms : ℕ)
  deriving DecidableEq

namespace LinkWorld

def init (proxyGroup : String) (nowMs : ℕ) : LinkWorld := ⟨proxyGroup, nowMs, ⟨none, none⟩, [], []⟩

def advance (w : LinkWorld) (attempt : ℕ) (input : FinishInput) : LinkWorld :=
  match w.attempts[attempt]? with
  | none => w
  | some (linkSessionId, pc) =>
    let (pc, written, lane) := finishLinkStep w.proxyGroup linkSessionId attempt w.nowMs w.lane pc input
    { w with
      lane
      attempts := w.attempts.set attempt (linkSessionId, pc)
      committed := w.committed ++ written.toList }

/-- One call, up to its next lock. -/
def step (w : LinkWorld) : LinkEvent → LinkWorld
  | .ensureLinkAvailable => { w with lane := (w.lane.ensureLinkAvailable w.nowMs).2 }
  | .beginLink deviceName deviceLinkUri sessionId =>
    { w with lane := (w.lane.beginLink deviceName deviceLinkUri sessionId w.nowMs).2 }
  | .finishLink linkSessionId => { w with attempts := w.attempts ++ [(linkSessionId, .engine)] }
  | .advance attempt input => w.advance attempt input
  | .cancelFinish linkSessionId => { w with lane := (w.lane.clearLinkFinish linkSessionId).2 }
  | .cancelLink linkSessionId => { w with lane := (w.lane.takeLinkSession linkSessionId w.nowMs).2 }
  | .clearLink => { w with lane := w.lane.clearLink }
  | .dropLinkFinish => { w with lane := w.lane.dropLinkFinish }
  | .elapse ms => { w with nowMs := w.nowMs + ms }

end LinkWorld

end SignalConnector
