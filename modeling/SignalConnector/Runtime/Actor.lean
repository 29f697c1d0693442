/-
# The engine actor and its callers

A call to the engine queues its request for the actor and waits for the answer
(`dispatch_call`, `call_with_timeout`). The actor (`run_actor`) hands the
request's frame to the writer of the child's stdin and keeps the request in a
table until a line with its id comes back. When its loop ends it fails what is
pending, and what is queued is dropped with its channel. A caller may stop
waiting at any time and then has the actor forget the request.

A call's place in the list of calls stands for its request id, and the actor
takes queued commands in any order.
-/
import SignalConnector.Lib.Run
import SignalConnector.Runtime.Engine

namespace SignalConnector

/-- What a call may change. -/
inductive CallClass
  | readOnly | mutating
  deriving DecidableEq

/-- What a request without an answer fails with: a mutating one may have been carried out. -/
def CallClass.failure (c : CallClass) (error : EngineError) : EngineError :=
  if c = .readOnly then error else .unknownOutcome

/-- What the ladder over the `error` object of a response answers. -/
def EngineError.isUpstream : EngineError → Bool
  | .upstream .. | .unauthorized | .rateLimited _ | .proofRequired | .serverUnavailable | .identityUnverified
  | .upstreamCode _ => true
  | _ => false

abbrev UpstreamError := { error : EngineError // error.isUpstream = true }

/-- How a call whose frame went out may fail. -/
def CallClass.MayFail (c : CallClass) (error : EngineError) : Prop :=
  error.isUpstream = true ∨ c = .mutating ∧ error = .unknownOutcome ∨
    c = .readOnly ∧ error ∈ [.timeout, .exited, .protocol]

/-- What becomes of a request's frame: `to_vec`, then the writer's `try_send`. -/
inductive FrameOutcome
  | unencodable | queued | full | closed

abbrev CallAnswer (ρ : Type) := Except EngineError (Option ρ)

/-- A call. Its request is `held` by the actor, in the queue until `written` and then in the table. A call that gave
its wait up has returned `Ok(None)`. -/
structure EngineCall (ρ : Type) where
  callClass : CallClass
  held : Bool
  written : Bool
  outcome : Option (CallAnswer ρ)

structure EngineActor (ρ : Type) where
  calls : List (EngineCall ρ)
  /-- `terminal_state`, once the loop has ended -/
  state : EngineState
  /-- the actor has ended, and the handle's status says so -/
  ended : Bool

variable {ρ : Type}

namespace EngineCall

variable (call : EngineCall ρ)

def queued : Bool := call.held && !call.written

def pending : Bool := call.held && call.written

/-- The call returns, unless it has returned before. -/
def give (answer : CallAnswer ρ) : EngineCall ρ := { call with outcome := call.outcome.or (some answer) }

/-- The actor answers the request and no longer holds it. -/
def respond (answer : CallAnswer ρ) : EngineCall ρ := { call.give answer with held := false }

/-- The loop takes the request; `busy` is a full table. -/
def handleRequest (busy : Bool) (frame : FrameOutcome) : EngineCall ρ × EngineState :=
  if busy then (call.respond (.error .backpressure), .running)
  else
    match frame with
    | .unencodable => (call.respond (.error .protocol), .running)
    | .queued => ({ call with written := true }, .running)
    | .full => (call.respond (.error .backpressure), .running)
    | .closed => (call.respond (.error (call.callClass.failure .exited)), .exited)

/-- A line answers the request, with a `result`, an `error`, both or neither. -/
def handleResponse (result : Option ρ) (error : Option UpstreamError) : EngineCall ρ × EngineState :=
  match result, error with
  | some result, none => (call.respond (.ok (some result)), .running)
  | none, some error => (call.respond (.error error), .running)
  | _, _ => (call.respond (.error (call.callClass.failure .protocol)), .faulted)

/-- What follows the loop: a pending request is failed, a queued one dropped. -/
def finish (state : EngineState) : EngineCall ρ :=
  if call.pending then
    call.respond (.error (call.callClass.failure (if state = .faulted then .protocol else .exited)))
  else if call.queued then call.respond (.error .exited)
  else call

end EngineCall

namespace EngineActor

/-- What may happen next. -/
inductive Event (ρ : Type)
  /-- `dispatch_call`, and whether the queue has room -/
  | dispatch (c : CallClass) (room : Bool)
  | timeout (id : ℕ)
  /-- the caller is cancelled -/
  | abandon (id : ℕ)
  /-- the loop takes `EngineCommand::Request` -/
  | request (id : ℕ) (frame : FrameOutcome)
  /-- the loop takes `EngineCommand::Cancel`, which only a call sends that has returned -/
  | cancel (id : ℕ)
  | response (id : ℕ) (result : Option ρ) (error : Option UpstreamError)
  /-- the loop ends: `stopped` by a shutdown or without a handle, `exited` with the writer or the output, `faulted`
  at a line it cannot frame or refuses -/
  | loopEnd (state : EngineState)
  | finish

def start : EngineActor ρ := ⟨[], .running, false⟩

variable (s : EngineActor ρ)

/-- The size of the table. -/
def pending : ℕ := s.calls.countP EngineCall.pending

/-- A call is queued, or fails at once. -/
def dispatchCall (c : CallClass) (room : Bool) : EngineActor ρ :=
  { s with calls := s.calls ++ [
      if s.ended then ⟨c, false, false, some (.error .notRunning)⟩
      else if room then ⟨c, true, false, none⟩
      else ⟨c, false, false, some (.error .backpressure)⟩] }

/-- A call for which `p` holds goes on, and the loop with it. -/
def update (id : ℕ) (p : EngineCall ρ → Bool) (f : EngineCall ρ → EngineCall ρ × EngineState) : EngineActor ρ :=
  match s.calls[id]? with
  | none => s
  | some call => if p call then { s with calls := s.calls.set id (f call).1, state := (f call).2 } else s

/-- One turn of `run_actor`, or of a caller. -/
def step (s : EngineActor ρ) : Event ρ → EngineActor ρ
  | .dispatch c room => s.dispatchCall c room
  | .timeout id =>
    s.update id (fun _ => true) fun call => (call.give (.error (call.callClass.failure .timeout)), s.state)
  | .abandon id => s.update id (fun _ => true) fun call => (call.give (.ok none), s.state)
  | .request id frame =>
    s.update id (fun call => s.state = .running ∧ call.queued) (·.handleRequest (128 ≤ s.pending) frame)
  | .cancel id => s.update id (fun call => s.state = .running ∧ call.pending ∧ call.outcome.isSome) fun call =>
    ({ call with held := false }, .running)
  | .response id result error =>
    s.update id (fun call => s.state = .running ∧ call.pending) (·.handleResponse result error)
  | .loopEnd state => if s.state = .running then { s with state } else s
  | .finish => if s.state = .running then s else { s with calls := s.calls.map (·.finish s.state), ended := true }

end EngineActor

/-! ### What every step keeps -/

/-- The request of a waiting call is held, a result is that of a written request, and one held or written fails as
its class may. -/
def EngineCall.Fair (call : EngineCall ρ) : Prop :=
  match call.outcome with
  | none => call.held = true
  | some (.ok result) => result.isSome = true → call.written = true
  | some (.error error) => call.held = true ∨ call.written = true → call.callClass.MayFail error

theorem CallClass.mayFail_failure (c : CallClass) {error : EngineError}
    (h : error ∈ [.timeout, .exited, .protocol]) : c.MayFail (c.failure error) := by
  cases c with
  | readOnly => exact .inr (.inr ⟨rfl, h⟩)
  | mutating => exact .inr (.inl ⟨rfl, rfl⟩)

namespace EngineCall

variable {call : EngineCall ρ}

/-- A call returns; its request is held as before, or no longer. -/
theorem Fair.give (h : call.Fair) {answer : CallAnswer ρ} {held : Bool} (hheld : held = true → call.held = true)
    (hanswer : Fair ⟨call.callClass, held, call.written, some answer⟩) : Fair { call.give answer with held } := by
  rcases call with ⟨c, was, written, _ | error | result⟩
  · exact hanswer
  · exact fun hsent => h (hsent.imp_left hheld)
  · exact h

/-- A request that was not written is refused with any error. -/
theorem Fair.refuse (h : call.Fair) (hqueued : call.queued = true) (error : EngineError) :
    (call.respond (.error error)).Fair := by
  refine h.give (by simp) fun hsent => ?_
  simp_all [queued]

/-- One that was written fails as its class may. -/
theorem Fair.fail (h : call.Fair) {error : EngineError} (herror : error ∈ [.timeout, .exited, .protocol])
    {held : Bool} (hheld : held = true → call.held = true) :
    Fair { call.give (.error (call.callClass.failure error)) with held } :=
  h.give hheld fun _ => call.callClass.mayFail_failure herror

theorem Fair.handleRequest (h : call.Fair) (hqueued : call.queued = true) (busy : Bool) (frame : FrameOutcome) :
    (call.handleRequest busy frame).1.Fair := by
  fun_cases call.handleRequest busy frame
  case case3 =>
    rcases call with ⟨c, held, written, _ | error | result⟩
    · exact h
    · exact fun _ => h (.inl (Bool.and_eq_true_iff.mp hqueued).1)
    · exact fun _ => rfl
  all_goals exact h.refuse hqueued _

theorem Fair.handleResponse (h : call.Fair) (hpending : call.pending = true) (result : Option ρ)
    (error : Option UpstreamError) : (call.handleResponse result error).1.Fair := by
  fun_cases call.handleResponse result error
  · exact h.give (by simp) fun _ => (Bool.and_eq_true_iff.mp hpending).2
  · next error => exact h.give (by simp) fun _ => .inl error.2
  · exact h.fail (by simp) (by simp)

theorem Fair.finish (h : call.Fair) (state : EngineState) : (call.finish state).Fair := by
  fun_cases call.finish state
  · exact h.fail (by split <;> simp) (by simp)
  · next hqueued => exact h.refuse hqueued _
  · exact h

theorem held_finish (call : EngineCall ρ) (state : EngineState) : (call.finish state).held = false := by
  fun_cases call.finish state
  · rfl
  · rfl
  · next hpending hqueued => simp_all [EngineCall.pending, queued]

end EngineCall

namespace EngineActor

structure Inv (s : EngineActor ρ) : Prop where
  fair : ∀ call ∈ s.calls, call.Fair
  bounded : s.pending ≤ 128
  closed : s.ended = true → s.state ≠ .running ∧ ∀ call ∈ s.calls, call.held = false

variable {s : EngineActor ρ}

theorem Inv.update (h : Inv s) {id : ℕ} {p : EngineCall ρ → Bool} {f : EngineCall ρ → EngineCall ρ × EngineState}
    (hfair : ∀ call, p call = true → call.Fair → (f call).1.Fair)
    (hpending : ∀ call, p call = true → (f call).1.pending = true → call.pending = true ∨ s.pending < 128)
    (hclosed : ∀ call, p call = true → s.state ≠ .running → (f call).1.held = call.held ∧ (f call).2 = s.state) :
    Inv (s.update id p f) := by
  fun_cases s.update id p f
  · exact h
  · next call hget hp =>
    obtain ⟨hid, rfl⟩ := List.getElem?_eq_some_iff.mp hget
    have hmem := List.getElem_mem hid
    refine ⟨fun other hother => ?_, ?_, fun hended => ?_⟩
    · rcases List.mem_or_eq_of_mem_set hother with hother | rfl
      · exact h.fair other hother
      · exact hfair _ hp (h.fair _ hmem)
    · have hle := h.bounded
      have hnew := hpending _ hp
      have hpos : s.calls[id].pending = true → 0 < s.pending := fun hcall =>
        List.countP_pos_iff.mpr ⟨_, hmem, hcall⟩
      simp only [pending, List.countP_set hid] at hle hnew hpos ⊢
      split <;> split <;> simp_all
      omega
    · obtain ⟨hstate, hgone⟩ := h.closed hended
      obtain ⟨hheld, hsame⟩ := hclosed _ hp hstate
      refine ⟨hsame ▸ hstate, fun other hother => ?_⟩
      rcases List.mem_or_eq_of_mem_set hother with hother | rfl
      · exact hgone other hother
      · exact hheld.trans (hgone _ hmem)
  · exact h

theorem Inv.dispatchCall (h : Inv s) (c : CallClass) (room : Bool) : Inv (s.dispatchCall c room) := by
  have hadd : ∀ call : EngineCall ρ, call.Fair → call.pending = false → (s.ended = true → call.held = false) →
      Inv { s with calls := s.calls ++ [call] } := by
    intro call hfair hpending hgone
    refine ⟨?_, ?_, fun hended => ⟨(h.closed hended).1, ?_⟩⟩
    · simpa [or_imp, forall_and] using ⟨h.fair, hfair⟩
    · simpa [pending, hpending] using h.bounded
    · simpa [or_imp, forall_and] using ⟨(h.closed hended).2, hgone hended⟩
  refine hadd _ ?_ ?_ ?_
  · split_ifs <;> simp [EngineCall.Fair]
  · split_ifs <;> rfl
  · intro hended
    rw [if_pos hended]

theorem Inv.step (h : Inv s) (e : Event ρ) : Inv (s.step e) := by
  cases e with
  | dispatch c room => exact h.dispatchCall c room
  | timeout id =>
    exact h.update (fun _ _ hcall => hcall.fail (by simp) fun hheld => hheld) (fun _ _ => .inl) fun _ _ _ => ⟨rfl, rfl⟩
  | abandon id =>
    refine h.update (fun _ _ hcall => ?_) (fun _ _ => .inl) fun _ _ _ => ⟨rfl, rfl⟩
    exact hcall.give (fun hheld => hheld) (by rintro ⟨⟩)
  | request id frame =>
    refine h.update (fun _ hp hcall => hcall.handleRequest (of_decide_eq_true hp).2 _ frame)
      (fun call _ hnew => .inr ?_) fun _ hp hstate => absurd (of_decide_eq_true hp).1 hstate
    by_contra hbusy
    simp [EngineCall.handleRequest, EngineCall.respond, EngineCall.pending, Nat.le_of_not_lt hbusy] at hnew
  | cancel id =>
    refine h.update (fun call hp hcall => ?_) (fun _ _ => by rintro ⟨⟩)
      fun _ hp hstate => absurd (of_decide_eq_true hp).1 hstate
    obtain ⟨-, hpending, hsome⟩ := of_decide_eq_true hp
    rcases call with ⟨c, held, written, _ | error | result⟩
    · cases hsome
    · exact fun _ => hcall (.inl (Bool.and_eq_true_iff.mp hpending).1)
    · exact hcall
  | response id result error =>
    exact h.update (fun _ hp hcall => hcall.handleResponse (of_decide_eq_true hp).2 result error)
      (fun _ hp _ => .inl (of_decide_eq_true hp).2) fun _ hp hstate => absurd (of_decide_eq_true hp).1 hstate
  | loopEnd state =>
    rw [EngineActor.step]
    split
    · next hrunning => exact ⟨h.fair, h.bounded, fun hended => absurd hrunning (h.closed hended).1⟩
    · exact h
  | finish =>
    rw [EngineActor.step]
    split
    · exact h
    · next hstate =>
      refine ⟨?_, ?_, fun _ => ⟨hstate, ?_⟩⟩
      · simpa using fun call hcall => (h.fair call hcall).finish s.state
      · simp [pending, List.countP_map, Function.comp_def, EngineCall.pending, EngineCall.held_finish]
      · simpa using fun call _ => call.held_finish s.state

/-- **Every call is answered, and truthfully.** At most 128 requests are pending, every call is treated fairly, and
once the actor has ended none waits. -/
theorem engine_calls_answered (events : List (Event ρ)) :
    let s := events.foldl step start
    s.pending ≤ 128 ∧ ∀ call ∈ s.calls, call.Fair ∧ (s.ended = true → call.outcome ≠ none) := by
  have h : Inv (events.foldl step start) := foldl_invariant Inv (fun _ e h => h.step e) events start
    ⟨by simp [start], by simp [start, pending], by simp [start]⟩
  refine ⟨h.bounded, fun call hcall => ⟨h.fair call hcall, fun hended hnone => ?_⟩⟩
  have hwaits := h.fair call hcall
  rw [EngineCall.Fair, hnone] at hwaits
  exact absurd hwaits (by simp [(h.closed hended).2 call hcall])

end EngineActor

end SignalConnector
