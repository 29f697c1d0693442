/-
# Is a resident slot a working slot?

When `ensure_resident` returns, the slot's engine should run, its workers be
alive and the slot be marked, until a demotion or a stop of it begins; and
demotions should leave `max_resident` slots resident. What comes between is that a demotion
aborts the workers for good, that its shutdown and the stops take the engine
later than they begin, with wakes free to return in the meantime, and that
every demotion task counts once and works off its own excess.
-/
import SignalConnector.Lib.Run
import SignalConnector.Pool.Slots

namespace SignalConnector

open List

namespace PoolSlot

/-- A slot assured of its residency has a running engine, the mark and its workers: what `build_slot` gave it. -/
def Working (s : PoolSlot) : Prop :=
  s.assured = true → s.engine.isRunning = true ∧ s.resident = true ∧ .receivePersistence ∈ s.workers ∧
    .outbox ∈ s.workers ∧ (s.demoted = true → ∀ worker ∈ Worker.buildSlot, worker ∈ s.workers)

/-- A working slot, whose workers are those of `build_slot` up to its first demotion and lack the outbox
worker from then on. -/
structure Sound (s : PoolSlot) : Prop where
  working : s.Working
  built : s.demoted = false → s.workers = Worker.buildSlot
  aborted : s.demoted = true → .outbox ∉ s.workers

/-! ### What happens to one slot -/

variable {s : PoolSlot}

theorem sound_buildSlot (holdsLock : Bool) (lastUsed : ℕ) : (buildSlot holdsLock lastUsed).Sound where
  working := nofun
  built := fun _ => rfl
  aborted := nofun

theorem sound_demote (s : PoolSlot) : s.demote.Sound where
  working := nofun
  built := nofun
  aborted := fun _ houtbox => by simp [demote, Worker.isStopped] at houtbox

namespace Sound

theorem touch (h : s.Sound) (now : ℕ) : (s.touch now).Sound := ⟨h.working, h.built, h.aborted⟩

theorem setResident (h : s.Sound) : s.setResident.Sound where
  working := fun hassured =>
    have hworking := h.working hassured
    ⟨hworking.1, rfl, hworking.2.2⟩
  built := h.built
  aborted := h.aborted

/-- An engine may be replaced while no running one is lost. -/
theorem withEngine (h : s.Sound) {engine : EngineSlot}
    (hengine : s.engine.isRunning = true → engine.isRunning = true) : { s with engine }.Sound where
  working := fun hassured =>
    have hworking := h.working hassured
    ⟨hengine hworking.1, hworking.2⟩
  built := h.built
  aborted := h.aborted

theorem start (h : s.Sound) (answer : Option EngineState) : (s.start answer).Sound := by
  refine h.withEngine fun hrunning => ?_
  rcases s.engine.start_cases answer with ⟨-, hstart⟩ | ⟨-, hstart⟩ | ⟨state, -, hnot, -⟩
  · rw [hstart]
    exact hrunning
  · rw [hstart]
    exact hrunning
  · exact absurd hrunning (ne_true_of_eq_false hnot)

theorem wake (h : s.Sound) (holdsLock free : Bool) (answer : Option EngineState) (pc : WakePc) :
    { s with engine := (ensureResidentStep holdsLock free s.engine answer pc).2 }.Sound := by
  refine h.withEngine fun hrunning => ?_
  rcases ensureResidentStep_slot holdsLock free s.engine answer pc with ⟨hsame, -⟩ | ⟨-, hnot, -⟩
  · rw [hsame]
    exact hrunning
  · exact absurd hrunning (ne_true_of_eq_false hnot)

theorem beginStop (h : s.Sound) (clears : Bool) : (s.beginStop clears).Sound := ⟨nofun, h.built, h.aborted⟩

theorem assure (h : s.Sound) (hrunning : s.engine.isRunning = true) (hnever : s.demoted = false) :
    s.assure.Sound where
  working := fun _ => by
    have hbuilt : s.assure.workers = Worker.buildSlot := h.built hnever
    rw [hbuilt]
    exact ⟨hrunning, rfl, by decide, by decide, fun _ _ hworker => hworker⟩
  built := h.built
  aborted := h.aborted

theorem takeEngine (h : s.Sound) (hassured : s.assured = false) : s.takeEngine.Sound where
  working := fun hnot => absurd hnot (ne_true_of_eq_false hassured)
  built := h.built
  aborted := h.aborted

end Sound

/-- A wake that returns for a slot without a running engine, or for one that was demoted. -/
theorem working_assure_iff (h : s.Sound) : s.assure.Working ↔ s.engine.isRunning = true ∧ s.demoted = false := by
  constructor
  · intro hworking
    obtain ⟨hrunning, -, -, houtbox, -⟩ := hworking rfl
    refine ⟨hrunning, ?_⟩
    by_contra hdemoted
    exact h.aborted (eq_true_of_ne_false hdemoted) houtbox
  · rintro ⟨hrunning, hnever⟩
    exact (h.assure hrunning hnever).working

theorem not_isRunning_takeEngine (s : PoolSlot) : s.takeEngine.engine.isRunning = false := by
  unfold takeEngine EngineSlot.stop
  dsimp only
  split
  · next hnone => simp [EngineSlot.isRunning, hnone]
  · rfl

/-- The engine of a slot is taken after a wake returned for it. -/
theorem working_takeEngine_iff (h : s.Sound) : s.takeEngine.Working ↔ s.assured = false := by
  constructor
  · intro hworking
    by_contra hassured
    have hrunning := (hworking (eq_true_of_ne_false hassured)).1
    rw [not_isRunning_takeEngine] at hrunning
    cases hrunning
  · exact fun hassured => (h.takeEngine hassured).working

end PoolSlot

namespace PoolWorld

variable {w : PoolWorld} {i : ℕ} {f : PoolSlot → PoolSlot}

/-! ### The slots of the pool -/

def Sound (w : PoolWorld) : Prop := ∀ slot ∈ w.slots, slot.Sound

@[simp] theorem slots_modifySlot : (w.modifySlot i f).slots = w.slots.modify i f := rfl

@[simp] theorem slots_enforceWindow (keep : ℕ) : (w.enforceWindow keep).slots = w.slots := by
  unfold enforceWindow
  split <;> rfl

theorem modify_eq_set {slot : PoolSlot} (h : w.slots[i]? = some slot) :
    w.slots.modify i f = w.slots.set i (f slot) := by
  rw [modify_eq_set_getElem?, h]
  rfl

theorem mem_modify {slot : PoolSlot} (h : w.slots[i]? = some slot) : f slot ∈ w.slots.modify i f := by
  rw [modify_eq_set h]
  exact mem_set (List.getElem?_eq_some_iff.mp h).1 _

theorem Sound.modify (h : w.Sound) (hf : ∀ slot ∈ w.slots[i]?, slot.Sound → (f slot).Sound) :
    ∀ slot ∈ w.slots.modify i f, slot.Sound := by
  intro slot hslot
  cases hi : w.slots[i]? with
  | none =>
    rw [modify_eq_set_getElem?, hi] at hslot
    exact h slot hslot
  | some old =>
    rw [modify_eq_set hi] at hslot
    rcases mem_or_eq_of_mem_set hslot with hold | rfl
    · exact h slot hold
    · exact hf old hi (h old (mem_of_getElem? hi))

/-! ### Steps that do not get in each other's way -/

/-- The step leaves every slot working, and a demotion leaves at least `maxResident` slots resident. -/
def ResidentsWork (w : PoolWorld) (event : PoolEvent) : Prop :=
  (∀ slot ∈ (w.step event).slots, slot.Working) ∧
    ∀ task, event = .demotion task → (w.step event).residentCount < w.residentCount →
      w.maxResident ≤ (w.step event).residentCount

/-- A wake returns only while the engine runs and for a slot never demoted; no shutdown or stop takes an engine after
a wake; a demotion happens only while too many slots are resident. -/
def Undisturbed (w : PoolWorld) : PoolEvent → Prop
  | .wake call _ =>
    match w.wakes[call]? with
    | some (i, some (.mark _)) => ∀ slot ∈ w.slots[i]?, slot.engine.isRunning = true ∧ slot.demoted = false
    | _ => True
  | .shutdown task => ∀ i ∈ w.shutdowns[task]?, ∀ slot ∈ w.slots[i]?, slot.assured = false
  | .stopping call =>
    match w.stops[call]? with
    | some ⟨_, i :: _, true⟩ => ∀ slot ∈ w.slots[i]?, slot.assured = false
    | _ => True
  | .demotion task =>
    match w.demotions[task]? with
    | some ⟨keep, some (_ + 1, i :: _)⟩ =>
      w.slots[i]?.any (w.isDemotable keep i) = true → w.maxResident < w.residentCount
    | _ => True
  | _ => True

/-! ### One step -/

theorem Sound.wakeStep (h : w.Sound) {call : ℕ} {answer : Option EngineState}
    (hok : w.Undisturbed (.wake call answer)) : (w.wakeStep call answer).Sound := by
  unfold Undisturbed at hok
  unfold PoolWorld.wakeStep
  split
  · next i woke hcall =>
    simp only [hcall] at hok
    have hassured := h.modify fun slot hslot hsound => hsound.assure (hok slot hslot).1 (hok slot hslot).2
    dsimp only
    split
    · intro slot hslot
      rw [slots_enforceWindow] at hslot
      exact hassured slot hslot
    · exact hassured
  · split
    · next slot hslot =>
      refine h.modify fun other hother hsound => ?_
      obtain rfl : slot = other := Option.some.inj (hslot.symm.trans hother)
      exact hsound.wake _ _ _ _
    · exact h
  · exact h

theorem Sound.demotionStep (h : w.Sound) (task : ℕ) : (w.demotionStep task).Sound := by
  unfold PoolWorld.demotionStep
  split
  · exact h
  · split
    · exact h.modify fun slot _ _ => slot.sound_demote
    · exact h
  · exact h

theorem Sound.stoppingStep (h : w.Sound) {call : ℕ} (hok : w.Undisturbed (.stopping call)) :
    (w.stoppingStep call).Sound := by
  unfold Undisturbed at hok
  unfold PoolWorld.stoppingStep
  split
  · exact h.modify fun _ _ hsound => hsound.beginStop _
  · next hcall =>
    simp only [hcall] at hok
    exact h.modify fun slot hslot hsound => hsound.takeEngine (hok slot hslot)
  · exact h

theorem Sound.startingStep (h : w.Sound) (call : ℕ) (answer : Option EngineState) :
    (w.startingStep call answer).Sound := by
  unfold PoolWorld.startingStep
  split
  · split
    · split
      · exact h
      · exact h.modify fun _ _ hsound => hsound.start _
    · exact h
  · exact h.modify fun _ _ hsound => hsound.setResident
  · exact h

/-- **One step.** An undisturbed step keeps the slots sound. -/
theorem Sound.step (h : w.Sound) {event : PoolEvent} (hok : w.Undisturbed event) : (w.step event).Sound := by
  cases event with
  | ensureResident => exact h.modify fun _ _ hsound => hsound.touch _
  | wake => exact h.wakeStep hok
  | noteActivity =>
    intro slot hslot
    rw [PoolWorld.step, slots_enforceWindow] at hslot
    exact h.modify (fun _ _ hsound => (hsound.touch _).setResident) slot hslot
  | demotion task => exact h.demotionStep task
  | shutdown =>
    unfold PoolWorld.step
    dsimp only
    split
    · next i htask => exact h.modify fun slot hslot hsound => hsound.takeEngine (hok i htask slot hslot)
    · exact h
  | stop => exact h
  | stopping => exact h.stoppingStep hok
  | start => exact h
  | starting call answer => exact h.startingStep call answer
  | elapse => exact h

/-! ### The size of the window -/

theorem countP_resident_demote {slot : PoolSlot} (hslot : w.slots[i]? = some slot)
    (hresident : slot.resident = true) : (w.slots.modify i .demote).countP (·.resident) + 1 = w.residentCount := by
  obtain ⟨hi, hget⟩ := List.getElem?_eq_some_iff.mp hslot
  have hpos : 0 < w.slots.countP (·.resident) :=
    countP_pos_iff.mpr ⟨slot, mem_of_getElem? hslot, hresident⟩
  rw [modify_eq_set hslot, countP_set hi, hget, hresident]
  simp only [PoolSlot.demote, residentCount]
  simp
  omega

theorem demotionStep_cases (w : PoolWorld) (task : ℕ) :
    ((w.demotionStep task).residentCount = w.residentCount ∧ w.Undisturbed (.demotion task)) ∨
      (w.demotionStep task).residentCount + 1 = w.residentCount ∧
        (w.Undisturbed (.demotion task) ↔ w.maxResident < w.residentCount) := by
  unfold Undisturbed PoolWorld.demotionStep
  dsimp only
  rcases htask : w.demotions[task]? with _ | ⟨keep, _ | ⟨_ | excess, _ | ⟨i, rest⟩⟩⟩
  case some.some.succ.cons =>
    by_cases hany : w.slots[i]?.any (w.isDemotable keep i) = true
    · obtain ⟨slot, hslot, hdemotable⟩ := (Option.any_eq_true _ _).mp hany
      have hresident : slot.resident = true := by
        simp only [isDemotable, Bool.and_eq_true] at hdemotable
        exact hdemotable.1.1
      refine .inr ⟨?_, ⟨fun h => h hany, fun h _ => h⟩⟩
      dsimp only
      rw [if_pos hany]
      exact countP_resident_demote hslot hresident
    · refine .inl ⟨?_, fun h => absurd h hany⟩
      dsimp only
      rw [if_neg hany]
      rfl
  all_goals exact .inl ⟨rfl, trivial⟩

/-! ### Steps that disturb -/

theorem not_working_of_disturbed (h : w.Sound) {event : PoolEvent} (hdisturbed : ¬w.Undisturbed event) :
    ¬w.ResidentsWork event := by
  rintro ⟨hworking, hwindow⟩
  apply hdisturbed
  cases event with
  | wake call answer =>
    unfold Undisturbed
    dsimp only
    split
    · next i woke hcall =>
      intro slot hslot
      refine (PoolSlot.working_assure_iff (h slot (mem_of_getElem? hslot))).mp (hworking _ ?_)
      have hslots : (w.wakeStep call answer).slots = w.slots.modify i .assure := by
        unfold wakeStep
        simp only [hcall]
        split
        · rw [slots_enforceWindow]
          rfl
        · rfl
      rw [PoolWorld.step, hslots]
      exact mem_modify hslot
    · trivial
  | shutdown =>
    intro i htask slot hslot
    refine (PoolSlot.working_takeEngine_iff (h slot (mem_of_getElem? hslot))).mp (hworking _ ?_)
    rw [Option.mem_def] at htask
    simp only [PoolWorld.step, htask]
    exact mem_modify hslot
  | stopping =>
    unfold Undisturbed
    dsimp only
    split
    · next clears i rest hcall =>
      intro slot hslot
      refine (PoolSlot.working_takeEngine_iff (h slot (mem_of_getElem? hslot))).mp (hworking _ ?_)
      simp only [PoolWorld.step, stoppingStep, hcall]
      exact mem_modify hslot
    · trivial
  | demotion task =>
    have hkept := hwindow task rfl
    rcases w.demotionStep_cases task with ⟨-, hundisturbed⟩ | ⟨hcount, hiff⟩
    · exact hundisturbed
    · rw [PoolWorld.step] at hkept
      exact hiff.mpr (by omega)
  | _ => trivial

theorem Sound.residentsWork (h : w.Sound) {event : PoolEvent} (hok : w.Undisturbed event) :
    w.ResidentsWork event := by
  refine ⟨fun slot hslot => (h.step hok slot hslot).working, ?_⟩
  rintro task rfl hless
  rw [PoolWorld.step] at hless ⊢
  rcases w.demotionStep_cases task with ⟨hsame, -⟩ | ⟨hcount, hiff⟩
  · omega
  · have := hiff.mp hok
    omega

theorem sound_discover (maxResident demoteIdleAfter nowMs : ℕ) (slots : List (Bool × ℕ)) :
    (discover maxResident demoteIdleAfter nowMs slots).Sound := by
  intro slot hslot
  obtain ⟨_, -, rfl⟩ := mem_map.mp hslot
  exact PoolSlot.sound_buildSlot _ _

end PoolWorld

/-- **When resident slots are working slots**: after every step of every interleaving, iff the steps do not get in
each other's way. -/
theorem residents_work_iff (maxResident demoteIdleAfter nowMs : ℕ) (slots : List (Bool × ℕ))
    (events : List PoolEvent) :
    Along PoolWorld.step PoolWorld.ResidentsWork (.discover maxResident demoteIdleAfter nowMs slots) events ↔
      Along PoolWorld.step PoolWorld.Undisturbed (.discover maxResident demoteIdleAfter nowMs slots) events := by
  refine Along.iff_of_invariant PoolWorld.Sound ?_ ?_ events _
    (PoolWorld.sound_discover _ _ _ _) (Along.of_forall (fun (_ : PoolWorld) (_ : PoolEvent) => trivial) _ _)
  · exact fun w event h _ hok => ⟨h.step hok, h.residentsWork hok⟩
  · exact fun w event h hdisturbed => PoolWorld.not_working_of_disturbed h hdisturbed

/-- The steps of a wake that starts the engine. -/
def coldWake (call : ℕ) : List PoolEvent :=
  [.wake call none, .wake call none, .wake call none, .wake call (some .running), .wake call none]

/-- An idle account is demoted when another wakes. Woken again its slot has an engine and the mark, but no outbox
worker and no one to persist what is received. -/
theorem woken_slot_lacks_workers :
    let w := List.foldl PoolWorld.step (.discover 1 60000 0 [(true, 0), (true, 0)])
      (.ensureResident 0 :: coldWake 0 ++ .elapse 60000 :: .ensureResident 1 :: coldWake 1 ++
        [.demotion 0, .demotion 0, .shutdown 0, .ensureResident 0] ++ coldWake 2)
    ∃ slot ∈ w.slots[0]?, slot.assured = true ∧ slot.engine.isRunning = true ∧ slot.resident = true ∧
      slot.workers = [.backgroundSync, .avatarRefresh] := by
  decide

end SignalConnector
