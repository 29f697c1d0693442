/-
# Does a stopped slot stay stopped?

`stop` empties the slot, but it tells nobody: the watchdog may hold a clone
that it will take for crashed, a subscription with lines still in it, a ping
about to fail or a restart that falls due later, and a wake that was routed
before the stop goes on to `start`. Each of them puts a running engine into the
stopped slot.
-/
import SignalConnector.Runtime.Recovery

namespace SignalConnector

open List

/-- The event is a call of `start`, or the beginning of a wake that may lead to one. -/
def RuntimeEvent.callsStart : RuntimeEvent → Bool
  | .start _ | .slotForAccount => true
  | _ => false

/-- The wake may still call `start`. -/
def WakePc.mayStart (holdsLock : Bool) : WakePc → Bool
  | .look => holdsLock
  | .wait | .lookAgain | .start => true
  | .mark _ => false

/-- The loop, in a slot with no running engine, has a restart pending that no delivered envelope will clear. -/
def Watchdog.Live (w : Watchdog) (receiveEvidence : ℕ) : Prop :=
  ∃ armed ∈ w.pending, receiveEvidence ≤ armed.evidence

namespace RuntimeWorld

/-- Whatever the tasks under way go on to do, no engine runs in the slot unless somebody calls `start`. -/
def StaysStopped (w : RuntimeWorld) : Prop :=
  ∀ after : List RuntimeEvent, (∀ event ∈ after, event.callsStart = false) →
    (after.foldl step w).slot.isRunning = false

/-- The loop is at its head, waits without a subscription and a clone, or probes with no failure before. -/
def LoopQuiet (w : RuntimeWorld) : Prop :=
  match w.watchdog.pc with
  | .head => True
  | .select engine => w.watchdog.stderr = none ∧ (engine.isSome = true → w.accountSlot = false)
  | .probe _ => w.watchdog.pingFailures + 1 < watchdogMaxPingFailures
  | _ => False

/-- Nothing is left that could start an engine: none to bring back, no wake, no restart pending, no trigger in hand. -/
structure Quiet (w : RuntimeWorld) : Prop where
  slot : ∀ e ∈ w.slot.engine, w.slot.isTerminal e = true ∧ w.accountSlot = false
  wakes : ∀ pc ∈ w.wakes, pc.mayStart w.holdsLock = false
  pending : ¬w.watchdog.Live w.receiveEvidence
  loop : w.LoopQuiet

variable {w : RuntimeWorld} {engine : Option ℕ}

theorem Quiet.not_running (h : w.Quiet) : w.slot.isRunning = false := by
  rw [Bool.eq_false_iff, Ne, w.slot.isRunning_iff]
  rintro ⟨e, he, hruns⟩
  exact Bool.false_ne_true (hruns.symm.trans (h.slot e he).1)

/-! ### A quiet slot stays quiet -/

/-- At its head the loop has nothing in hand. -/
theorem Quiet.of_head (h : w.Quiet) {watchdog : Watchdog} (hpc : watchdog.pc = .head)
    (hpending : watchdog.pending = w.watchdog.pending ∨ watchdog.pending = none) :
    Quiet { w with watchdog } := by
  refine ⟨h.slot, h.wakes, ?_, by simp [LoopQuiet, hpc]⟩
  rintro ⟨armed, harmed, hlive⟩
  rcases hpending with hsame | hnone
  · exact h.pending ⟨armed, hsame ▸ harmed, hlive⟩
  · rw [show watchdog.pending = none from hnone] at harmed
    cases harmed

theorem pending_clearOnEvidence (hlive : ¬w.watchdog.Live w.receiveEvidence) :
    (w.watchdog.clearOnEvidence w.view).pending = none := by
  unfold Watchdog.clearOnEvidence
  split
  · rfl
  · next hold =>
    rw [Option.eq_none_iff_forall_not_mem]
    intro armed harmed
    rw [Option.mem_def.mp harmed] at hold
    exact hlive ⟨armed, harmed, Nat.le_of_not_lt fun hlt => hold (decide_eq_true hlt)⟩

theorem pending_endEpisode (watchdog : Watchdog) (view : WatchdogView) :
    (watchdog.endEpisode view).pending = watchdog.pending := by
  unfold Watchdog.endEpisode
  split <;> rfl

theorem Quiet.tick (h : w.Quiet) (hw : w.Attended) (hpc : w.watchdog.pc = .select engine) :
    Quiet { w with watchdog := w.watchdog.tick w.view engine } := by
  have hloop := h.loop
  simp only [LoopQuiet, hpc] at hloop
  have hnone : ((w.watchdog.clearOnEvidence w.view).endEpisode w.view).pending = none := by
    rw [pending_endEpisode, pending_clearOnEvidence h.pending]
  have hended : ∀ e ∈ engine, w.slot.isTerminal e = true := by
    intro e he
    by_contra hruns
    have hlistens := hw.listening engine hpc e he (Bool.eq_false_iff.mpr hruns)
    rw [hloop.1] at hlistens
    cases hlistens
  unfold Watchdog.tick
  dsimp only
  rw [if_neg]
  · rcases Watchdog.deferredCheck_cases ((w.watchdog.clearOnEvidence w.view).endEpisode w.view) w.view engine with
      ⟨armed, harmed, -⟩ | ⟨-, hnext⟩
    · rw [hnone] at harmed
      cases harmed
    · rw [hnext]
      rcases Watchdog.probeNext_cases ((w.watchdog.clearOnEvidence w.view).endEpisode w.view) w.view engine with
        ⟨-, hnext⟩ | ⟨e, he, hruns, -⟩
      · rw [hnext]
        exact h.of_head rfl (.inr hnone)
      · exact absurd (hended e he) (by rw [show w.slot.isTerminal e = false from hruns]; nofun)
  · rintro ⟨haccount, hcrash, -⟩
    have hsome : engine.isSome = true := by
      cases engine with
      | none => cases hcrash
      | some => rfl
    exact Bool.false_ne_true ((hloop.2 hsome).symm.trans haccount)

theorem Quiet.watchdog (h : w.Quiet) (hw : w.Attended) (input : WatchdogInput) :
    (w.step (.watchdog input)).Quiet := by
  have hloop := h.loop
  have hsame : Quiet { w with watchdog := w.watchdog, slot := w.slot } := h
  simp only [RuntimeWorld.step]
  unfold watchdogStep
  unfold LoopQuiet at hloop
  split
  · -- the clone is of an ended engine, or of none, so there is no subscription
    refine ⟨h.slot, h.wakes, h.pending, ?_, fun hsome => ?_⟩
    · change w.slot.engine.bind w.slot.pid = none
      rw [Option.bind_eq_none_iff]
      intro e he
      simp [EngineSlot.pid, (h.slot e he).1]
    · obtain ⟨e, he⟩ := Option.isSome_iff_exists.mp hsome
      exact (h.slot e he).2
  iterate 2
    · next hpc =>
      rw [hpc] at hloop
      simp only [hloop.1, Option.isSome_none, Bool.false_eq_true, if_false]
      exact hsame
  · exact h.of_head rfl (.inl rfl)
  · next hpc => exact h.tick hw hpc
  iterate 4
    · next hpc =>
      rw [hpc] at hloop
      exact hloop.elim
  · next engine outcome hpc =>
    rw [hpc] at hloop
    cases outcome with
    | failed =>
      unfold Watchdog.probed
      dsimp only
      rw [if_neg (Nat.not_le.mpr hloop)]
      exact h.of_head rfl (.inl rfl)
    | _ => exact h.of_head rfl (.inl rfl)
  · exact hsame

theorem Quiet.wakeStep (h : w.Quiet) (number : ℕ) (answer : Option EngineState) : (w.wakeStep number answer).Quiet := by
  have herase : Quiet { w with slot := w.slot, wakes := w.wakes.eraseIdx number } :=
    ⟨h.slot, fun pc hpc => h.wakes pc (mem_of_mem_eraseIdx hpc), h.pending, h.loop⟩
  unfold RuntimeWorld.wakeStep
  split
  · exact h
  · exact herase
  next pc hmark hpc =>
  have hnot := h.wakes pc (mem_of_getElem? hpc)
  cases pc with
  | look =>
    have hrefused : ensureResidentStep w.holdsLock (!w.wakes.any WakePc.holdsWake) w.slot answer .look =
        (.error dataDirOccupiedError, w.slot) := by
      simp [ensureResidentStep, h.not_running, show w.holdsLock = false from hnot]
    simp only [hrefused]
    exact herase
  | wait | lookAgain | start => cases hnot
  | mark woke => exact absurd rfl (hmark woke)

theorem Quiet.exit (h : w.Quiet) (engine : ℕ) {state : EngineState} (hstate : state ≠ .running) :
    Quiet { w with slot := w.slot.exit engine state } := by
  have hslot : (w.slot.exit engine state).engine = w.slot.engine := by
    unfold EngineSlot.exit
    split <;> rfl
  refine ⟨fun e he => ?_, h.wakes, h.pending, h.loop⟩
  obtain ⟨hended, haccount⟩ := h.slot e (hslot ▸ he)
  exact ⟨EngineSlot.isTerminal_exit engine hstate hended, haccount⟩

/-- **A quiet slot stays quiet.** Whatever happens but a call of `start`. -/
theorem Quiet.step (h : w.Quiet) (hw : w.Attended) {event : RuntimeEvent} (hevent : event.callsStart = false) :
    (w.step event).Quiet := by
  cases event with
  | start => cases hevent
  | stop =>
    simp only [RuntimeWorld.step]
    unfold EngineSlot.stop
    split
    · exact ⟨h.slot, h.wakes, h.pending, h.loop⟩
    · exact ⟨by rintro e ⟨⟩, h.wakes, h.pending, h.loop⟩
  | setRunning => exact ⟨h.slot, h.wakes, h.pending, h.loop⟩
  | slotForAccount => cases hevent
  | wake number answer => exact h.wakeStep number answer
  | watchdog input => exact h.watchdog hw input
  | link => exact ⟨h.slot, h.wakes, h.pending, h.loop⟩
  | exit engine =>
    simp only [RuntimeWorld.step]
    split
    · exact h
    · next hstate => exact h.exit engine hstate
  | envelope =>
    refine ⟨h.slot, h.wakes, ?_, h.loop⟩
    rintro ⟨armed, harmed, hlive⟩
    exact h.pending ⟨armed, harmed, Nat.le_of_succ_le hlive⟩

theorem Quiet.staysStopped (h : w.Quiet) (hw : w.Attended) : w.StaysStopped := by
  intro after hafter
  induction after generalizing w with
  | nil => exact h.not_running
  | cons event after ih =>
    have hevent := hafter event (mem_cons_self ..)
    exact ih (h.step hw hevent) (hw.step event) fun e he => hafter e (mem_cons_of_mem _ he)

/-! ### Anything left starts an engine -/

/-- The tasks under way may put a running engine into the slot. -/
def Reaches (w : RuntimeWorld) : Prop :=
  ∃ after : List RuntimeEvent, (∀ event ∈ after, event.callsStart = false) ∧
    (after.foldl step w).slot.isRunning = true

theorem Reaches.of_running (h : w.slot.isRunning = true) : w.Reaches :=
  ⟨[], fun _ hnil => absurd hnil not_mem_nil, h⟩

theorem Reaches.of_step (event : RuntimeEvent) (hevent : event.callsStart = false) (h : (w.step event).Reaches) :
    w.Reaches := by
  obtain ⟨after, hafter, hruns⟩ := h
  refine ⟨event :: after, fun e he => ?_, hruns⟩
  rcases mem_cons.mp he with rfl | he
  · exact hevent
  · exact hafter e he

/-- A step of the loop that leaves the slot alone. -/
theorem Reaches.of_watchdog (watchdog : Watchdog) (input : WatchdogInput)
    (hstep : watchdogStep w.view w.watchdog input = (watchdog, w.slot)) (h : Reaches { w with watchdog }) :
    w.Reaches := by
  refine .of_step (.watchdog input) rfl ?_
  simp only [RuntimeWorld.step, hstep]
  exact h

/-- A step of the loop that brings a running engine. -/
theorem Reaches.of_restart (watchdog : Watchdog)
    (hstep : watchdogStep w.view w.watchdog (.restarted ⟨.ok (), some .running⟩) =
      (watchdog, w.slot.install .running)) : w.Reaches := by
  refine .of_step (.watchdog (.restarted ⟨.ok (), some .running⟩)) rfl (.of_running ?_)
  simp only [RuntimeWorld.step, hstep]
  exact w.slot.isRunning_install_running

theorem restartEngine_brings (slot : EngineSlot) :
    slot.restartEngine ⟨.ok (), some .running⟩ = (.ok (), slot.install .running) := by
  obtain ⟨engines, engine⟩ := slot
  cases engine <;> rfl

/-- Link flows end and time passes, without anything else happening. -/
theorem Reaches.of_links (later : ℕ)
    (h : ∀ links : LinkWorld, links.lane.linkFlowActive links.nowMs = false → later ≤ links.nowMs →
      Reaches { w with links }) : w.Reaches := by
  -- the finish attempt in the lane is cancelled, and a session runs out
  have hsession : ∀ links : LinkWorld, links.lane.activeLinkFinish = none →
      Reaches { w with links } := by
    intro links hidle
    let expiry := (links.lane.link.map ActiveLinkSession.expiresAtMs).getD 0
    refine .of_step (.link (.elapse (later + expiry))) rfl (h _ ?_ ?_)
    · simp only [LinkWorld.step, LinkLane.linkFlowActive, hidle, Option.isSome_none, Bool.false_or,
        LinkLane.hasPendingLink]
      cases hlink : links.lane.link with
      | none => rfl
      | some session =>
        have hexpiry : expiry = session.expiresAtMs := by simp [expiry, hlink]
        simp only [Option.any_some, ActiveLinkSession.isExpired, hexpiry, Bool.not_eq_false']
        exact decide_eq_true (by omega)
    · simp only [LinkWorld.step]
      omega
  cases hactive : w.links.lane.activeLinkFinish with
  | none => exact hsession w.links hactive
  | some finish =>
    refine .of_step (.link (.cancelFinish finish.linkSessionId)) rfl (hsession _ ?_)
    simp [LinkWorld.step, LinkLane.clearLinkFinish, hactive, LinkLane.dropLinkFinish]

theorem Reaches.restart {source : RestartSource} (hpc : w.watchdog.pc = .restart source engine) :
    w.Reaches := by
  refine .of_restart ((w.watchdog.noteRestart w.view.nowMs).endRequest
    { w.view with slot := w.slot.install .running } source engine true) ?_
  simp only [watchdogStep, hpc, show w.view.slot = w.slot from rfl, restartEngine_brings]

theorem Reaches.restartDeferred {armed : PendingRestart} (hpc : w.watchdog.pc = .restartDeferred armed) :
    w.Reaches := by
  refine .of_restart { w.watchdog.noteRestart w.view.nowMs with
    pingFailures := 0, stderr := none, pc := .head } ?_
  simp only [watchdogStep, hpc, show w.view.slot = w.slot from rfl, restartEngine_brings]

/-- **A trigger that is asked for is executed** once the link flow is over and the backoff has passed. -/
theorem Reaches.request {source : RestartSource} {reason : String}
    (hpc : w.watchdog.pc = .request source reason engine) : w.Reaches := by
  let backoff := watchdogRestartBackoff w.config.watchdogLivenessBackoffBase w.watchdog.episode.restarts
    watchdogLivenessBackoffCap
  refine .of_links ((w.watchdog.lastRestart.getD 0) + backoff) fun links hflow hlater => ?_
  refine .of_watchdog { w.watchdog with pc := .restart source engine } .proceed ?_ (.restart rfl)
  simp only [watchdogStep, hpc, Watchdog.decideRequest, view, hflow, Bool.false_eq_true, if_false]
  cases hlast : w.watchdog.lastRestart with
  | none => rfl
  | some last =>
    rw [hlast] at hlater
    have hpassed : ¬links.nowMs < last + watchdogRestartBackoff w.config.watchdogLivenessBackoffBase
      w.watchdog.episode.restarts watchdogLivenessBackoffCap := Nat.not_lt.mpr hlater
    dsimp only
    rw [if_neg hpassed]

theorem Reaches.deferred {armed : PendingRestart}
    (hpc : w.watchdog.pc = .deferred armed engine) : w.Reaches := by
  refine .of_links 0 fun links hflow _ => ?_
  refine .of_watchdog { w.watchdog with pc := .restartDeferred armed } .proceed ?_ (.restartDeferred rfl)
  simp only [watchdogStep, hpc, view, hflow, Bool.false_eq_true, if_false]

/-- A fatal line in the subscription. -/
theorem Reaches.subscribed (hpc : w.watchdog.pc = .select engine)
    (hlistens : w.watchdog.stderr.isSome = true) : w.Reaches := by
  refine .of_watchdog (w.watchdog.beginRequest w.view .stderr "receive WebSocket error on stderr" engine)
    (.line true) ?_ (.request rfl)
  simp only [watchdogStep, hpc, hlistens, if_true]
  rfl

/-- **A pending restart fires**: once it is due and the link flow is over, unless an envelope clears it. -/
theorem Reaches.pending (hpc : w.watchdog.pc = .select engine)
    (hlive : w.watchdog.Live w.receiveEvidence) : w.Reaches := by
  obtain ⟨armed, harmed, hevidence⟩ := hlive
  rw [Option.mem_def] at harmed
  refine .of_links armed.dueAt fun links _ hdue => ?_
  have hkept : w.watchdog.clearOnEvidence { w with links }.view = w.watchdog := by
    unfold Watchdog.clearOnEvidence
    rw [harmed, if_neg]
    simp only [Option.any_some, decide_eq_true_eq]
    exact Nat.not_lt.mpr hevidence
  have hepisode : w.watchdog.endEpisode { w with links }.view = w.watchdog := by
    unfold Watchdog.endEpisode
    rw [harmed, if_neg]
    simp
  refine .of_watchdog { w.watchdog with pc := .deferred armed engine } .tick ?_ (.deferred rfl)
  simp only [watchdogStep, hpc, Watchdog.tick, hkept, hepisode, harmed, Option.isNone_some, Bool.false_eq_true,
    and_false, if_false, Watchdog.deferredCheck]
  split
  · rfl
  · next hnot => exact absurd hdue hnot

/-- The clone of an account slot's engine that ended. -/
theorem Reaches.crashed {e : ℕ} (hpc : w.watchdog.pc = .select (some e)) (haccount : w.accountSlot = true)
    (hended : w.slot.isTerminal e = true) : w.Reaches := by
  by_cases hlive : w.watchdog.Live w.receiveEvidence
  · exact .pending hpc hlive
  · refine .of_watchdog (((w.watchdog.clearOnEvidence w.view).endEpisode w.view).beginRequest w.view .crash
      "engine process exited" (some e)) .tick ?_ (.request rfl)
    have hnone : ((w.watchdog.clearOnEvidence w.view).endEpisode w.view).pending = none := by
      rw [pending_endEpisode, pending_clearOnEvidence hlive]
    simp only [watchdogStep, hpc, Watchdog.tick]
    rw [if_pos]
    · rfl
    · exact ⟨haccount, hended, by rw [hnone]; rfl⟩

/-- The clone of an account slot's engine: it will end, if it has not. -/
theorem Reaches.cloned {e : ℕ} (hpc : w.watchdog.pc = .select (some e)) (haccount : w.accountSlot = true) :
    w.Reaches := by
  cases hended : w.slot.isTerminal e with
  | true => exact .crashed hpc haccount hended
  | false =>
    refine .of_step (.exit e .exited) rfl ?_
    simp only [RuntimeWorld.step, reduceCtorEq, if_false, EngineSlot.exit, hended, Bool.false_eq_true]
    refine .crashed hpc haccount ?_
    have hin : e < w.slot.engines.length := by
      by_contra hout
      simp [EngineSlot.isTerminal, getElem?_eq_none (Nat.le_of_not_lt hout)] at hended
    simp [EngineSlot.isTerminal, getElem?_set_self hin]

theorem Reaches.pinging {e : ℕ} (hpc : w.watchdog.pc = .probe e)
    (hfailures : watchdogMaxPingFailures ≤ w.watchdog.pingFailures + 1) : w.Reaches := by
  refine .of_watchdog ({ w.watchdog with pingFailures := w.watchdog.pingFailures + 1 }.beginRequest w.view .ping
    "receive liveness ping failed repeatedly" (some e)) (.probed .failed) ?_ (.request rfl)
  simp only [watchdogStep, hpc, Watchdog.probed, hfailures, if_true]
  rfl

/-- The loop comes back to its head, with what is pending, or starts an engine on the way. -/
theorem Reaches.of_next (h : ∀ watchdog : Watchdog, watchdog.pending = w.watchdog.pending →
      watchdog.pc = .select w.slot.engine → Reaches { w with watchdog }) : w.Reaches := by
  have hhead : ∀ watchdog : Watchdog, watchdog.pending = w.watchdog.pending → watchdog.pc = .head →
      Reaches { w with watchdog } := by
    intro watchdog hpending hpc
    refine .of_watchdog { watchdog with stderr := w.slot.engine.bind w.slot.pid, pc := .select w.slot.engine }
      .proceed ?_ (h _ hpending rfl)
    simp only [watchdogStep, hpc, view]
  cases hpc : w.watchdog.pc with
  | head => exact hhead w.watchdog rfl hpc
  | select =>
    refine .of_watchdog { w.watchdog with pc := .head } .sweep ?_ (hhead _ rfl rfl)
    simp only [watchdogStep, hpc]
    rfl
  | request => exact .request hpc
  | restart => exact .restart hpc
  | deferred => exact .deferred hpc
  | restartDeferred => exact .restartDeferred hpc
  | probe =>
    refine .of_watchdog { w.watchdog with pc := .head } (.probed .linkFlow) ?_ (hhead _ rfl rfl)
    simp only [watchdogStep, hpc, Watchdog.probed]
    rfl

/-! ### Wakes -/

theorem Reaches.of_wake {number : ℕ} {pc : WakePc} (next : WakePc) (hpc : w.wakes[number]? = some pc)
    (hmark : ∀ woke, pc ≠ .mark woke)
    (hstep : ensureResidentStep w.holdsLock (!w.wakes.any WakePc.holdsWake) w.slot none pc = (.ok next, w.slot))
    (h : ∀ wanted, Reaches { w with wakes := w.wakes.set number next, wanted }) : w.Reaches := by
  refine .of_step (.wake number none) rfl ?_
  simp only [RuntimeWorld.step, RuntimeWorld.wakeStep, hpc]
  cases pc with
  | mark woke => exact absurd rfl (hmark woke)
  | look | wait | lookAgain | start =>
    simp only [hstep]
    exact h _

theorem Reaches.wakeStart (number : ℕ) (hstopped : w.slot.isRunning = false)
    (hpc : w.wakes[number]? = some .start) : w.Reaches := by
  refine .of_step (.wake number (some .running)) rfl (.of_running ?_)
  simp only [RuntimeWorld.step, RuntimeWorld.wakeStep, hpc, ensureResidentStep, EngineSlot.start, hstopped,
    Bool.false_eq_true, if_false]
  exact w.slot.isRunning_install_running

theorem Reaches.wakeLookAgain (number : ℕ) (hstopped : w.slot.isRunning = false)
    (hpc : w.wakes[number]? = some .lookAgain) : w.Reaches := by
  refine .of_wake .start hpc nofun (by simp [ensureResidentStep, hstopped]) fun wanted => ?_
  refine .wakeStart number hstopped ?_
  exact getElem?_set_self (List.getElem?_eq_some_iff.mp hpc).1

/-- A waiting wake gets the lock once those before it have returned, if none starts an engine. -/
theorem Reaches.wakeWait (hstopped : w.slot.isRunning = false) (hpc : .wait ∈ w.wakes) : w.Reaches := by
  induction hlength : w.wakes.length generalizing w with
  | zero =>
    rw [length_eq_zero_iff.mp hlength] at hpc
    cases hpc
  | succ n ih =>
    by_cases hfree : w.wakes.any WakePc.holdsWake = false
    · obtain ⟨number, hnumber⟩ := mem_iff_getElem?.mp hpc
      refine .of_wake .lookAgain hnumber nofun (by simp [ensureResidentStep, hfree]) fun wanted => ?_
      refine .wakeLookAgain number hstopped ?_
      exact getElem?_set_self (List.getElem?_eq_some_iff.mp hnumber).1
    · rw [Bool.not_eq_false, any_eq_true] at hfree
      obtain ⟨pc, hholder, hholds⟩ := hfree
      obtain ⟨number, hnumber⟩ := mem_iff_getElem?.mp hholder
      cases pc with
      | look | wait => cases hholds
      | lookAgain => exact .wakeLookAgain number hstopped hnumber
      | start => exact .wakeStart number hstopped hnumber
      | mark =>
        obtain ⟨hin, hat⟩ := List.getElem?_eq_some_iff.mp hnumber
        refine .of_step (.wake number none) rfl ?_
        simp only [RuntimeWorld.step, RuntimeWorld.wakeStep, hnumber]
        refine ih hstopped ?_ ?_
        · obtain ⟨other, hother⟩ := mem_iff_getElem?.mp hpc
          refine mem_eraseIdx_iff_getElem?.mpr ⟨other, fun hsame => ?_, hother⟩
          rw [hsame, hnumber] at hother
          cases hother
        · rw [length_eraseIdx_of_lt hin, hlength, Nat.add_sub_cancel]

theorem Reaches.wake (hstopped : w.slot.isRunning = false) {pc : WakePc} (hpc : pc ∈ w.wakes)
    (hmay : pc.mayStart w.holdsLock = true) : w.Reaches := by
  obtain ⟨number, hnumber⟩ := mem_iff_getElem?.mp hpc
  cases pc with
  | look =>
    refine .of_wake .wait hnumber nofun ?_ fun wanted => .wakeWait hstopped ?_
    · simp [ensureResidentStep, hstopped, show w.holdsLock = true from hmay]
    · exact mem_of_getElem? (getElem?_set_self (List.getElem?_eq_some_iff.mp hnumber).1)
  | wait => exact .wakeWait hstopped hpc
  | lookAgain => exact .wakeLookAgain number hstopped hnumber
  | start => exact .wakeStart number hstopped hnumber
  | mark => cases hmay

/-! ### The two sides -/

/-- What is not quiet starts an engine. -/
theorem reaches_of_not_quiet (h : ¬w.Quiet) : w.Reaches := by
  cases hstopped : w.slot.isRunning with
  | true => exact .of_running hstopped
  | false =>
    by_contra hnever
    refine h ⟨fun e he => ?_, fun pc hpc => ?_, fun hlive => ?_, ?_⟩
    · have hended : w.slot.isTerminal e = true := by
        by_contra hruns
        have := w.slot.isRunning_iff.mpr ⟨e, he, Bool.eq_false_iff.mpr hruns⟩
        rw [hstopped] at this
        cases this
      refine ⟨hended, Bool.eq_false_iff.mpr fun haccount => hnever (.of_next fun watchdog _ hpc => ?_)⟩
      rw [Option.mem_def.mp he] at hpc
      exact .crashed hpc haccount hended
    · exact Bool.eq_false_iff.mpr fun hmay => hnever (.wake hstopped hpc hmay)
    · refine hnever (.of_next fun watchdog hpending hpc => .pending hpc ?_)
      obtain ⟨armed, harmed, hevidence⟩ := hlive
      exact ⟨armed, hpending ▸ harmed, hevidence⟩
    · unfold LoopQuiet
      split
      · trivial
      · next engine hpc =>
        refine ⟨?_, fun hsome => ?_⟩
        · by_contra hlistens
          exact hnever (.subscribed hpc (Option.isSome_iff_ne_none.mpr hlistens))
        · obtain ⟨e, rfl⟩ := Option.isSome_iff_exists.mp hsome
          exact Bool.eq_false_iff.mpr fun haccount => hnever (.cloned hpc haccount)
      · next e hpc => exact Nat.lt_of_not_le fun hfailures => hnever (.pinging hpc hfailures)
      · next hhead hselect hprobe =>
        cases hpc : w.watchdog.pc with
        | head => exact hhead hpc
        | select engine => exact hselect engine hpc
        | request => exact hnever (.request hpc)
        | restart => exact hnever (.restart hpc)
        | deferred => exact hnever (.deferred hpc)
        | restartDeferred => exact hnever (.restartDeferred hpc)
        | probe e => exact hprobe e hpc

end RuntimeWorld

/-- **When a stopped slot stays stopped**: the tasks under way start no engine in it, iff nothing is left that
could. -/
theorem stopped_means_stopped_iff (config : WatchdogConfig) (accountSlot holdsLock : Bool) (links : LinkWorld)
    (before : List RuntimeEvent) :
    (before.foldl RuntimeWorld.step (.init config accountSlot holdsLock links)).StaysStopped ↔
      (before.foldl RuntimeWorld.step (.init config accountSlot holdsLock links)).Quiet := by
  have hattended : (before.foldl RuntimeWorld.step (.init config accountSlot holdsLock links)).Attended :=
    foldl_invariant RuntimeWorld.Attended (fun w event h => h.step event) before _
      (RuntimeWorld.attended_init config accountSlot holdsLock links)
  constructor
  · intro hstays
    by_contra hloud
    obtain ⟨after, hafter, hruns⟩ := RuntimeWorld.reaches_of_not_quiet hloud
    exact Bool.false_ne_true ((hstays after hafter).symm.trans hruns)
  · exact fun hquiet => hquiet.staysStopped hattended

/-- The watchdog clones the engine of a slot that is then stopped: the next tick takes it for crashed and starts one. -/
theorem tick_after_stop_restarts :
    let stopped := List.foldl RuntimeWorld.step
      (.init ⟨30000, 300000, 10000⟩ true true (.init "default" 0))
      [.start (some .running), .watchdog .proceed, .stop, .link .clearLink, .link .dropLinkFinish,
        .exit 0 .stopped]
    let after : List RuntimeEvent :=
      [.watchdog .tick, .watchdog .proceed, .watchdog (.restarted ⟨.ok (), some .running⟩)]
    stopped.slot.engine = none ∧ after.all (fun event => !event.callsStart) = true ∧
      (after.foldl RuntimeWorld.step stopped).slot.isRunning = true := by
  decide

end SignalConnector
