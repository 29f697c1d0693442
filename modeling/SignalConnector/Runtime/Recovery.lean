/-
# Is a restart that fails remembered?

A trigger of the watchdog must leave an engine to watch or something that leads
to another attempt, and one that did not bring a fresh engine must leave the
latter: an ended engine that the next tick sees (of an account slot only), or a
pending restart. Throttled triggers and failed deferred restarts arm one. A
trigger that a link flow suppresses does not, nor does the restart that
`watchdog_request_restart` executes itself: it empties the slot first, and when
it then fails with nothing armed, there is no stderr to read, nothing to ping
and no ended engine to see.
-/
import SignalConnector.Lib.Run
import SignalConnector.Runtime.Watchdog

namespace SignalConnector

/-- The engine a restart brings, if it does not fail. -/
def EngineSlot.RestartAnswer.brings (answer : EngineSlot.RestartAnswer) (slot : EngineSlot) : Option EngineState :=
  match slot.engine, answer.shutdown with
  | some _, .error _ => none
  | _, _ => answer.start

namespace RuntimeWorld

end RuntimeWorld

/-! ### What restarts do to the slot -/

namespace EngineSlot

variable {s : EngineSlot} {answer : RestartAnswer}

theorem restartEngine_cases (s : EngineSlot) (answer : RestartAnswer) :
    (∃ error, answer.brings s = none ∧ s.restartEngine answer = (.error error, ⟨s.engines, none⟩)) ∨
      ∃ state, answer.brings s = some state ∧ s.restartEngine answer = (.ok (), s.install state) := by
  obtain ⟨engines, engine⟩ := s
  obtain ⟨shutdown, start⟩ := answer
  cases engine <;> cases shutdown <;> cases start <;>
    first | exact .inl ⟨_, rfl, rfl⟩ | exact .inr ⟨_, rfl, rfl⟩

theorem isRunning_iff (s : EngineSlot) : s.isRunning = true ↔ ∃ e ∈ s.engine, s.isTerminal e = false := by
  unfold isRunning
  cases s.engine <;> simp

end EngineSlot

/-! ### The invariant -/

def WatchdogPc.clone : WatchdogPc → Option ℕ
  | .head | .restartDeferred _ => none
  | .select engine | .request _ _ engine | .restart _ engine | .deferred _ engine => engine
  | .probe engine => some engine

/-- The loop got here by the end of its clone. -/
def WatchdogPc.onCrash : WatchdogPc → Bool
  | .request .crash _ _ | .restart .crash _ => true
  | _ => false

/-- The loop has nothing of an engine in hand that could be a trigger. -/
def Watchdog.Idle (w : Watchdog) (slot : EngineSlot) : Prop :=
  match w.pc with
  | .head | .restartDeferred _ => True
  | .select engine => engine = none ∧ w.stderr = none
  | .deferred _ engine => ∀ e ∈ engine, slot.isTerminal e = true
  | _ => False

namespace RuntimeWorld

/-- The engines in the slot and in the loop were started; the loop acts on the end of one that did end, listens to a
clone that runs, and idles while an empty slot is to run. -/
structure Attended (w : RuntimeWorld) : Prop where
  slotKnown : ∀ e ∈ w.slot.engine, e < w.slot.engines.length
  cloneKnown : ∀ e ∈ w.watchdog.pc.clone, e < w.slot.engines.length
  ended : w.watchdog.pc.onCrash = true → ∀ e ∈ w.watchdog.pc.clone, w.slot.isTerminal e = true
  listening : ∀ engine, w.watchdog.pc = .select engine → ∀ e ∈ engine, w.slot.isTerminal e = false →
    w.watchdog.stderr = some e
  idle : w.wanted = true → w.slot.engine = none → w.watchdog.Idle w.slot

variable {w : RuntimeWorld}

theorem Attended.of_head (hslot : ∀ e ∈ w.slot.engine, e < w.slot.engines.length) (hpc : w.watchdog.pc = .head) :
    w.Attended where
  slotKnown := hslot
  cloneKnown := by simp [hpc, WatchdogPc.clone]
  ended := by simp [hpc, WatchdogPc.onCrash]
  listening := by simp [hpc]
  idle := by simp [Watchdog.Idle, hpc]

section Loop

variable {watchdog : Watchdog} {view : WatchdogView} {engine : Option ℕ} (hview : view.slot = w.slot)
  (hslot : ∀ e ∈ w.slot.engine, e < w.slot.engines.length) (hclone : ∀ e ∈ engine, e < w.slot.engines.length)

include hview hslot hclone

/-- After the look for an engine to probe. -/
theorem Attended.of_probeNext
    (hidle : w.wanted = true → w.slot.engine = none → ∀ e ∈ engine, w.slot.isTerminal e = true) :
    Attended { w with watchdog := watchdog.probeNext view engine } := by
  rcases watchdog.probeNext_cases view engine with ⟨-, h⟩ | ⟨e, he, hruns, h⟩
  · rw [h]
    exact .of_head hslot rfl
  · rw [h]
    refine ⟨hslot, fun e' he' => ?_, nofun, nofun, fun hwanted hempty => ?_⟩
    · cases he'
      exact hclone e he
    · have hended := hidle hwanted hempty e he
      rw [← hview, hruns] at hended
      cases hended

/-- After the pending restart of a tick. -/
theorem Attended.of_deferredCheck
    (hidle : w.wanted = true → w.slot.engine = none → ∀ e ∈ engine, w.slot.isTerminal e = true) :
    Attended { w with watchdog := watchdog.deferredCheck view engine } := by
  rcases watchdog.deferredCheck_cases view engine with ⟨armed, -, -, h⟩ | ⟨-, h⟩
  · rw [h]
    exact ⟨hslot, hclone, nofun, nofun, hidle⟩
  · rw [h]
    exact .of_probeNext hview hslot hclone hidle

/-- After `watchdog_request_restart`. -/
theorem Attended.of_endRequest {source : RestartSource} {restarted : Bool}
    (hended : source = .crash → ∀ e ∈ engine, w.slot.isTerminal e = true) :
    Attended { w with watchdog := watchdog.endRequest view source engine restarted } := by
  cases source with
  | crash => exact .of_deferredCheck hview hslot hclone fun _ _ => hended rfl
  | stderr | ping =>
    unfold Watchdog.endRequest
    cases restarted <;> exact .of_head hslot rfl

end Loop

/-- A trigger of the loop, which a slot that is to run and is empty does not give. -/
theorem Attended.of_beginRequest (h : w.Attended) {watchdog : Watchdog} {view : WatchdogView}
    {source : RestartSource} {reason : String} {engine : Option ℕ}
    (hclone : ∀ e ∈ engine, e < w.slot.engines.length)
    (hended : source = .crash → ∀ e ∈ engine, w.slot.isTerminal e = true)
    (hbusy : w.wanted = true → w.slot.engine ≠ none) :
    Attended { w with watchdog := watchdog.beginRequest view source reason engine } := by
  refine ⟨h.slotKnown, hclone, fun hcrash => ?_, nofun, fun hwanted hempty => absurd hempty (hbusy hwanted)⟩
  cases source with
  | crash => exact hended rfl
  | stderr | ping => cases hcrash

/-- Where the loop is not idle, a slot that is to run is not empty. -/
theorem Attended.busy (h : w.Attended) (hidle : ¬w.watchdog.Idle w.slot) : w.wanted = true → w.slot.engine ≠ none :=
  fun hwanted hempty => hidle (h.idle hwanted hempty)

theorem Attended.tick (h : w.Attended) {engine : Option ℕ} (hpc : w.watchdog.pc = .select engine) :
    Attended { w with watchdog := w.watchdog.tick w.view engine } := by
  have hclone : ∀ e ∈ engine, e < w.slot.engines.length := by
    have := h.cloneKnown
    rwa [hpc] at this
  have hnone : w.wanted = true → w.slot.engine = none → engine = none := by
    intro hwanted hempty
    have := h.idle hwanted hempty
    unfold Watchdog.Idle at this
    rw [hpc] at this
    exact this.1
  unfold Watchdog.tick
  dsimp only
  split
  · next hcrash =>
    obtain ⟨e, rfl, hended⟩ : ∃ e, engine = some e ∧ w.slot.isTerminal e = true := by
      cases engine with
      | none => simp at hcrash
      | some e => exact ⟨e, rfl, hcrash.2.1⟩
    refine h.of_beginRequest hclone (fun _ e' he' => ?_) fun hwanted hempty => ?_
    · cases he'
      exact hended
    · cases hnone hwanted hempty
  · refine .of_deferredCheck rfl h.slotKnown hclone fun hwanted hempty => ?_
    rw [hnone hwanted hempty]
    nofun

theorem Attended.decideRequest (h : w.Attended) {source : RestartSource} {reason : String} {engine : Option ℕ}
    (hpc : w.watchdog.pc = .request source reason engine) :
    Attended { w with watchdog := w.watchdog.decideRequest w.view source reason engine } := by
  have hclone : ∀ e ∈ engine, e < w.slot.engines.length := by
    have := h.cloneKnown
    rwa [hpc] at this
  have hended : source = .crash → ∀ e ∈ engine, w.slot.isTerminal e = true := by
    rintro rfl
    have := h.ended
    rw [hpc] at this
    exact this rfl
  have hbusy : w.wanted = true → w.slot.engine ≠ none := h.busy (by simp [Watchdog.Idle, hpc])
  have hrestart : Attended { w with watchdog := { w.watchdog with pc := .restart source engine } } := by
    refine ⟨h.slotKnown, hclone, fun hcrash => ?_, nofun, fun hwanted hempty => absurd hempty (hbusy hwanted)⟩
    cases source with
    | crash => exact hended rfl
    | stderr | ping => cases hcrash
  unfold Watchdog.decideRequest
  split
  · exact .of_endRequest rfl h.slotKnown hclone hended
  · dsimp only
    split
    · split
      · exact .of_endRequest rfl h.slotKnown hclone hended
      · exact hrestart
    · exact hrestart

/-! ### Every step keeps it -/

theorem Attended.watchdog (h : w.Attended) (input : WatchdogInput) : (w.step (.watchdog input)).Attended := by
  have hclone := h.cloneKnown
  have hsame : Attended { w with watchdog := w.watchdog, slot := w.slot } := h
  simp only [RuntimeWorld.step]
  unfold watchdogStep
  split
  · -- the head of the loop clones the slot and listens to what runs
    refine ⟨h.slotKnown, h.slotKnown, by rintro ⟨⟩, fun engine hpc e he hruns => ?_, fun _ hempty => ?_⟩
    · cases hpc
      change w.slot.engine.bind w.slot.pid = some e
      rw [show w.slot.engine = some e from he]
      simp [EngineSlot.pid, show w.slot.isTerminal e = false from hruns]
    · change w.slot.engine = none ∧ w.slot.engine.bind w.slot.pid = none
      rw [show w.slot.engine = none from hempty]
      exact ⟨rfl, rfl⟩
  · next engine fatal hpc =>
    rw [hpc] at hclone
    split
    · next hlistens =>
      cases fatal with
      | false => exact .of_head h.slotKnown rfl
      | true =>
        refine h.of_beginRequest hclone (by rintro ⟨⟩) (h.busy fun hidle => ?_)
        unfold Watchdog.Idle at hidle
        rw [hpc] at hidle
        rw [hidle.2] at hlistens
        cases hlistens
    · exact hsame
  · split
    · exact .of_head h.slotKnown rfl
    · exact hsame
  · exact .of_head h.slotKnown rfl
  · next hpc => exact h.tick hpc
  · next hpc => exact h.decideRequest hpc
  · next source engine answer hpc =>
    have hended := h.ended
    rw [hpc] at hclone hended
    have hcrash : source = .crash → ∀ e ∈ engine, w.slot.isTerminal e = true := by
      rintro rfl
      exact hended rfl
    rcases w.slot.restartEngine_cases answer with ⟨error, -, hfails⟩ | ⟨state, -, hstarts⟩
    · simp only [show w.view.slot = w.slot from rfl, hfails]
      exact .of_endRequest (w := { w with slot := ⟨w.slot.engines, none⟩ }) rfl (by rintro e ⟨⟩) hclone hcrash
    · simp only [show w.view.slot = w.slot from rfl, hstarts]
      refine .of_endRequest (w := { w with slot := w.slot.install state }) rfl ?_ ?_ ?_
      · intro e he
        cases he
        simp [EngineSlot.install]
      · intro e he
        have := hclone e he
        simp only [EngineSlot.install, List.length_append]
        omega
      · intro hsource e he
        exact (EngineSlot.isTerminal_install state (hclone e he)).trans (hcrash hsource e he)
  · next armed engine hpc =>
    rw [hpc] at hclone
    split
    · refine .of_probeNext rfl h.slotKnown hclone fun hwanted hempty => ?_
      have := h.idle hwanted hempty
      unfold Watchdog.Idle at this
      rwa [hpc] at this
    · exact ⟨h.slotKnown, by rintro e ⟨⟩, by rintro ⟨⟩, by rintro _ ⟨⟩, fun _ _ => trivial⟩
  · next armed answer hpc =>
    rcases w.slot.restartEngine_cases answer with ⟨error, -, hfails⟩ | ⟨state, -, hstarts⟩
    · simp only [show w.view.slot = w.slot from rfl, hfails]
      exact .of_head (by rintro e ⟨⟩) rfl
    · simp only [show w.view.slot = w.slot from rfl, hstarts]
      refine .of_head (fun e he => ?_) rfl
      cases he
      simp [EngineSlot.install]
  · next engine outcome hpc =>
    rw [hpc] at hclone
    cases outcome with
    | failed =>
      unfold Watchdog.probed
      dsimp only
      split
      · exact h.of_beginRequest hclone (by rintro ⟨⟩) (h.busy (by simp [Watchdog.Idle, hpc]))
      · exact .of_head h.slotKnown rfl
    | _ => exact .of_head h.slotKnown rfl
  · exact hsame

/-- An engine put into the slot from outside the loop. -/
theorem Attended.install (h : w.Attended) (state : EngineState) (wanted : Bool) (wakes : List WakePc) :
    Attended { w with slot := w.slot.install state, wanted, wakes } := by
  refine ⟨fun e he => ?_, fun e he => ?_, fun hcrash e he => ?_, fun engine hpc e he hruns => ?_, fun _ => nofun⟩
  · cases he
    simp [EngineSlot.install]
  · have := h.cloneKnown e he
    simp only [EngineSlot.install, List.length_append]
    omega
  · exact (EngineSlot.isTerminal_install state (h.cloneKnown e he)).trans (h.ended hcrash e he)
  · have hknown := h.cloneKnown
    rw [show w.watchdog.pc = .select engine from hpc] at hknown
    rw [EngineSlot.isTerminal_install state (hknown e he)] at hruns
    exact h.listening engine hpc e he hruns

/-- Nothing happens to the slot, and it is not less wanted than before. -/
theorem Attended.same (h : w.Attended) {wanted : Bool} (hwanted : wanted = true → w.slot.engine = none → w.wanted = true)
    (running : Bool) (links : LinkWorld) (receiveEvidence : ℕ) (wakes : List WakePc) :
    Attended { w with wanted, running, links, receiveEvidence, wakes } :=
  ⟨h.slotKnown, h.cloneKnown, h.ended, h.listening, fun hw hempty => h.idle (hwanted hw hempty) hempty⟩

theorem Attended.exit (h : w.Attended) (engine : ℕ) {state : EngineState} (hstate : state ≠ .running) :
    Attended { w with slot := w.slot.exit engine state } := by
  have hengines : (w.slot.exit engine state).engines.length = w.slot.engines.length := by
    unfold EngineSlot.exit
    split
    · rfl
    · exact List.length_set
  have hslot : (w.slot.exit engine state).engine = w.slot.engine := by
    unfold EngineSlot.exit
    split <;> rfl
  refine ⟨fun e he => ?_, fun e he => ?_, fun hcrash e he => ?_, fun clone hpc e he hruns => ?_,
    fun hwanted hempty => ?_⟩
  · exact hengines ▸ h.slotKnown e (hslot ▸ he)
  · exact hengines ▸ h.cloneKnown e he
  · exact EngineSlot.isTerminal_exit engine hstate (h.ended hcrash e he)
  · refine h.listening clone hpc e he ?_
    by_contra hended
    rw [Bool.not_eq_false] at hended
    have := EngineSlot.isTerminal_exit engine hstate hended
    rw [show (w.slot.exit engine state).isTerminal e = false from hruns] at this
    cases this
  · have hidle := h.idle hwanted (hslot ▸ hempty)
    unfold Watchdog.Idle at hidle ⊢
    dsimp only
    split at hidle
    · trivial
    · trivial
    · exact hidle
    · exact fun e he => EngineSlot.isTerminal_exit engine hstate (hidle e he)
    · exact hidle

theorem Attended.wakeStep (h : w.Attended) (number : ℕ) (answer : Option EngineState) :
    (w.wakeStep number answer).Attended := by
  have hsame : ∀ wakes wanted, (wanted = true → w.slot.engine = none → w.wanted = true) →
      Attended { w with slot := w.slot, wakes, wanted } := fun wakes wanted hwanted =>
    h.same hwanted w.running w.links w.receiveEvidence wakes
  unfold RuntimeWorld.wakeStep
  split
  · exact h
  · exact hsame _ _ fun hw _ => hw
  next pc _ _ =>
  dsimp only
  rcases ensureResidentStep_slot w.holdsLock (!w.wakes.any WakePc.holdsWake) w.slot answer pc with
    ⟨hslot, hstart⟩ | ⟨-, -, state, hslot⟩
  · split
    · next next slot heq =>
      rw [heq] at hslot hstart
      cases hslot
      refine hsame _ _ fun hw hempty => ?_
      rcases Bool.or_eq_true _ _ ▸ hw with hw | hpc
      · exact hw
      · exact absurd hempty (hstart next (eq_of_beq hpc) rfl)
    · next heq =>
      rw [heq] at hslot
      cases hslot
      exact hsame _ _ fun hw _ => hw
  · split
    · next heq =>
      rw [heq] at hslot
      cases hslot
      exact h.install _ _ _
    · next heq =>
      rw [heq] at hslot
      cases hslot
      exact h.install _ _ _

/-- **The invariant of the runtime.** Kept by every call and by every step of its tasks. -/
theorem Attended.step (h : w.Attended) (event : RuntimeEvent) : (w.step event).Attended := by
  have hwanted : w.wanted = true → w.slot.engine = none → w.wanted = true := fun hw _ => hw
  cases event with
  | start answer =>
    simp only [RuntimeWorld.step]
    rcases w.slot.start_cases answer with ⟨hrunning, hs⟩ | ⟨-, hs⟩ | ⟨state, -, -, hs⟩
    · simp only [hs]
      refine h.same (fun _ hempty => ?_) w.running w.links w.receiveEvidence w.wakes
      exact absurd hempty (EngineSlot.engine_ne_none_of_isRunning hrunning)
    · simp only [hs]
      exact h
    · simp only [hs]
      exact h.install state true w.wakes
  | stop =>
    simp only [RuntimeWorld.step]
    unfold EngineSlot.stop
    split
    · have hstopped : false = true → w.slot.engine = none → w.wanted = true := nofun
      exact h.same hstopped w.running w.links w.receiveEvidence w.wakes
    · exact ⟨nofun, h.cloneKnown, h.ended, h.listening, nofun⟩
  | setRunning running => exact h.same hwanted running w.links w.receiveEvidence w.wakes
  | slotForAccount =>
    simp only [RuntimeWorld.step]
    split
    · exact h.same hwanted w.running w.links w.receiveEvidence _
    · exact h
  | wake number answer => exact h.wakeStep number answer
  | watchdog input => exact h.watchdog input
  | link => exact h.same hwanted w.running _ w.receiveEvidence w.wakes
  | exit engine =>
    simp only [RuntimeWorld.step]
    split
    · exact h
    · next hstate => exact h.exit engine hstate
  | envelope => exact h.same hwanted w.running w.links _ w.wakes

theorem attended_init (config : WatchdogConfig) (accountSlot holdsLock : Bool) (links : LinkWorld) :
    (init config accountSlot holdsLock links).Attended :=
  .of_head nofun rfl

/-! ### Settled triggers -/

end RuntimeWorld

/-- **What the loop never does.** In every run it acts on a crash of an ended engine only, waits on a running one with
its stderr in hand, and has no engine in hand that could be a trigger while a slot that is to run is empty. -/
theorem watchdog_attends (config : WatchdogConfig) (accountSlot holdsLock : Bool) (links : LinkWorld)
    (events : List RuntimeEvent) : (events.foldl RuntimeWorld.step (.init config accountSlot holdsLock links)).Attended :=
  foldl_invariant RuntimeWorld.Attended (fun _ event h => h.step event) events _
    (RuntimeWorld.attended_init config accountSlot holdsLock links)

end SignalConnector
