/-
# Do deletes linearize against sends?

No send should be dispatched once a delete of its account has started its
upstream delete, and no account row should go while a send is dispatched and
not completed. The mutex gives both for host requests that run to their end: a
send that has it finds no delete under way, and a delete that has it finds no
send. What the mutex does not cover are the outbox worker, which dispatches
without it, a dispatched send that the stall budget drops, and sends after a
delete that ended early and left the account in place.
-/
import SignalConnector.Lib.Run
import SignalConnector.Host.Barrier

namespace SignalConnector

open List

namespace AccountTask

/-- The task has the mutex. -/
def holds : AccountTask → Bool
  | .send .wait | .send .abandoned | .send .ended | .delete .wait | .delete .ended | .outbox _ => false
  | _ => true

/-- A host send that found its account. -/
def prepared : AccountTask → Bool
  | .send .dispatch | .send .inFlight | .send .complete => true
  | _ => false

/-- A delete on its way behind the start of its upstream delete. -/
def begun : AccountTask → Bool
  | .delete pc => pc.begun
  | _ => false

/-- A delete that removed the row. -/
def removed : AccountTask → Bool
  | .delete (.discard _) => true
  | _ => false

/-- Dispatched upstream, the completion not written. -/
def inFlight : AccountTask → Bool
  | .send .inFlight | .send .complete | .send .abandoned | .outbox .inFlight | .outbox .complete => true
  | _ => false

/-- A send of the outbox worker on its way. -/
def posts : AccountTask → Bool
  | .outbox pc => pc ≠ .ended
  | _ => false

/-- A delete that has the mutex. -/
def deletes (task : AccountTask) : Bool :=
  match task with
  | .delete _ => task.holds
  | _ => false

theorem holds_of_prepared {task : AccountTask} (h : task.prepared = true) : task.holds = true := by
  cases task with
  | send pc => cases pc <;> first | rfl | cases h
  | outbox => cases h
  | delete => cases h

theorem holds_of_begun {task : AccountTask} (h : task.begun = true) : task.holds = true := by
  cases task with
  | delete pc => cases pc <;> first | rfl | cases h
  | send => cases h
  | outbox => cases h

theorem cases_of_inFlight {task : AccountTask} (h : task.inFlight = true) :
    task.prepared = true ∨ task.posts = true ∨ task = .send .abandoned := by
  cases task with
  | send pc => cases pc <;> simp_all [inFlight, prepared]
  | outbox pc => cases pc <;> simp_all [inFlight, posts]
  | delete => cases h

end AccountTask

namespace BarrierWorld

variable {w w' : BarrierWorld} {k : ℕ} {task task' : AccountTask}

/-! ### What is asked -/

/-- The event dispatches a send of the host or of the outbox worker. -/
def Dispatches (w : BarrierWorld) : BarrierEvent → Prop
  | .advance k _ => w.tasks[k]? = some (.send .dispatch) ∨ w.tasks[k]? = some (.outbox .dispatch)
  | _ => False

def RemovesRow (w : BarrierWorld) (event : BarrierEvent) : Prop := w.row = true ∧ (w.step event).row = false

/-- No send is dispatched behind the start of an upstream delete, nor in flight when the row goes. -/
def Linearized (w : BarrierWorld) (event : BarrierEvent) : Prop :=
  (w.Dispatches event → w.started = false) ∧ (w.RemovesRow event → ∀ task ∈ w.tasks, task.inFlight = false)

/-- The outbox worker takes up a send only before any upstream delete and while no delete has the mutex, a delete
the mutex only while that worker has no send on its way; no host request dispatches behind a delete cut short, and
the stall budget drops no send in flight. -/
def KeptApart (w : BarrierWorld) : BarrierEvent → Prop
  | .outbox => w.started = false ∧ ∀ task ∈ w.tasks, task.deletes = false
  | .advance k _ => (w.tasks[k]? = some (.delete .wait) → ∀ task ∈ w.tasks, task.posts = false) ∧
      (w.tasks[k]? = some (.send .dispatch) → w.cutShort = false)
  | .abandon k => ∀ task ∈ w.tasks[k]?, task.inFlight = false
  | _ => True

instance (w : BarrierWorld) (event : BarrierEvent) : Decidable (w.KeptApart event) := by
  cases event <;> unfold KeptApart <;> infer_instance

/-! ### What the mutex guards -/

/-- The account is not found any more, and will not be. -/
def Gone (w : BarrierWorld) : Prop := if w.pooled then w.slot = false else w.row = false

/-- Only one task has the mutex, and a send that has it has its account; behind the start of an upstream delete there
is one on its way, one cut short, or no account; and one that removed the row leaves at most the slot. -/
structure Guarded (w : BarrierWorld) : Prop where
  mutex : ∀ (k : ℕ) (task : AccountTask), w.tasks[k]? = some task → task.holds = true → w.holder = some k
  there : ∀ (k : ℕ) (task : AccountTask), w.tasks[k]? = some task → task.prepared = true →
    w.slot = true ∧ w.row = true
  removed : ∀ (k : ℕ) (task : AccountTask), w.tasks[k]? = some task → task.removed = true →
    w.pooled = true ∨ w.Gone
  settled : w.started = true →
    w.cutShort = true ∨ w.Gone ∨ ∃ (k : ℕ) (task : AccountTask), w.tasks[k]? = some task ∧ task.begun = true

theorem guarded_linked (pooled : Bool) : (linked pooled).Guarded where
  mutex := nofun
  there := nofun
  removed := nofun
  settled := nofun

theorem not_gone (h : w.slot = true ∧ w.row = true) : ¬w.Gone := by
  unfold Gone
  split <;> simp [h]

theorem Guarded.eq_of_holds (h : w.Guarded) {j : ℕ} (hj : w.tasks[j]? = some task') (hk : w.tasks[k]? = some task)
    (hholds' : task'.holds = true) (hholds : task.holds = true) : j = k ∧ task' = task := by
  obtain rfl : j = k := Option.some.inj ((h.mutex j task' hj hholds').symm.trans (h.mutex k task hk hholds))
  exact ⟨rfl, Option.some.inj (hj.symm.trans hk)⟩

/-- **One task moves.** It has the mutex if it should, takes it from no other, and only with the mutex makes the
account go. -/
theorem Guarded.move (h : w.Guarded) (hk : w.tasks[k]? = some task) (htasks : w'.tasks = w.tasks.set k task')
    (hpooled : w'.pooled = w.pooled) (hholder : task'.holds = true → w'.holder = some k)
    (hothers : ∀ j, j ≠ k → w.holder = some j → w'.holder = some j) (hstable : w.Gone → w'.Gone)
    (hkeeps : w.slot = true ∧ w.row = true → (w'.slot = true ∧ w'.row = true) ∨ w.holder = some k)
    (hthere : task'.prepared = true → w'.slot = true ∧ w'.row = true)
    (hremoved : task'.removed = true → w'.pooled = true ∨ w'.Gone) (hkept : w.cutShort = true → w'.cutShort = true)
    (hsettled : w'.started = true → w'.cutShort = true ∨ w'.Gone ∨ task'.begun = true ∨
      (w.started = true ∧ task.begun = false)) : w'.Guarded := by
  have hin : k < w.tasks.length := (List.getElem?_eq_some_iff.mp hk).1
  have hself : w'.tasks[k]? = some task' := by rw [htasks, getElem?_set_self hin]
  have hcases : ∀ j t, w'.tasks[j]? = some t → (j = k ∧ t = task') ∨ (j ≠ k ∧ w.tasks[j]? = some t) := by
    intro j t hj
    by_cases hjk : j = k
    · subst hjk
      exact .inl ⟨rfl, Option.some.inj (hj.symm.trans hself)⟩
    · rw [htasks, getElem?_set_ne (Ne.symm hjk)] at hj
      exact .inr ⟨hjk, hj⟩
  refine ⟨fun j t hj hholds => ?_, fun j t hj hprepared => ?_, fun j t hj hr => ?_, fun hs => ?_⟩
  · rcases hcases j t hj with ⟨rfl, rfl⟩ | ⟨hjk, hj⟩
    · exact hholder hholds
    · exact hothers j hjk (h.mutex j t hj hholds)
  · rcases hcases j t hj with ⟨rfl, rfl⟩ | ⟨hjk, hj⟩
    · exact hthere hprepared
    · rcases hkeeps (h.there j t hj hprepared) with hthere | hheld
      · exact hthere
      · have hheld' := h.mutex j t hj (AccountTask.holds_of_prepared hprepared)
        exact absurd (Option.some.inj (hheld'.symm.trans hheld)) hjk
  · rcases hcases j t hj with ⟨rfl, rfl⟩ | ⟨-, hj⟩
    · exact hremoved hr
    · rw [hpooled]
      exact (h.removed j t hj hr).imp_right hstable
  · rcases hsettled hs with hc | hg | hb | ⟨hs, hnot⟩
    · exact .inl hc
    · exact .inr (.inl hg)
    · exact .inr (.inr ⟨k, task', hself, hb⟩)
    · rcases h.settled hs with hc | hg | ⟨j, t, hj, hb⟩
      · exact .inl (hkept hc)
      · exact .inr (.inl (hstable hg))
      · have hjk : k ≠ j := by
          rintro rfl
          rw [Option.some.inj (hk.symm.trans hj), hb] at hnot
          cases hnot
        refine .inr (.inr ⟨j, t, ?_, hb⟩)
        rw [htasks, getElem?_set_ne hjk]
        exact hj

/-! ### The moves of a task -/

/-- A move that concerns nothing but the task. -/
theorem Guarded.set (h : w.Guarded) (hk : w.tasks[k]? = some task)
    (hholds : task'.holds = true → task.holds = true)
    (hthere : task'.prepared = true → w.slot = true ∧ w.row = true) (hremoved : task'.removed = false)
    (hleft : task.begun = true → task'.begun = true) : (w.set k task').Guarded := by
  refine h.move hk rfl rfl (fun hh => h.mutex k task hk (hholds hh)) (fun _ _ hheld => hheld) id .inl hthere
    (fun hr => absurd hr (ne_true_of_eq_false hremoved)) id fun hs => .inr (.inr ?_)
  by_cases hb : task.begun = true
  · exact .inl (hleft hb)
  · exact .inr ⟨hs, eq_false_of_ne_true hb⟩

theorem Guarded.lock (h : w.Guarded) (hk : w.tasks[k]? = some task) (hfree : w.holder = none)
    (hprepared : task'.prepared = false) (hbegun : task.begun = false) (hremoved : task'.removed = false) :
    { w.set k task' with holder := some k }.Guarded :=
  h.move hk rfl rfl (fun _ => rfl) (fun _ _ hheld => by rw [hfree] at hheld; cases hheld) id .inl
    (fun hp => absurd hp (ne_true_of_eq_false hprepared)) (fun hr => absurd hr (ne_true_of_eq_false hremoved)) id
    fun hs => .inr (.inr (.inr ⟨hs, hbegun⟩))

theorem released_of_ne {j : ℕ} (hj : j ≠ k) (hheld : w.holder = some j) : w.released k = some j := by
  unfold released
  rw [hheld, if_neg fun h => hj (Option.some.inj h)]

theorem Guarded.leaveSend {pc pc' : SendPc} (h : w.Guarded) (hk : w.tasks[k]? = some (.send pc))
    (hleft : (AccountTask.send pc').holds = false) : (w.leaveSend k pc').Guarded :=
  h.move hk rfl rfl (fun hh => absurd hh (ne_true_of_eq_false hleft)) (fun _ => released_of_ne) id .inl
    (fun hp => absurd (AccountTask.holds_of_prepared hp) (ne_true_of_eq_false hleft)) nofun id
    fun hs => .inr (.inr (.inr ⟨hs, rfl⟩))

/-- A delete ends early: if its upstream delete was under way, it was cut short. -/
theorem Guarded.endDelete {pc : DeletePc} (h : w.Guarded) (hk : w.tasks[k]? = some (.delete pc)) :
    (w.endDelete k pc.begun).Guarded := by
  refine h.move hk rfl rfl nofun (fun _ => released_of_ne) id .inl nofun nofun
    (fun hc => by simp only [BarrierWorld.endDelete, hc, Bool.true_or]) fun hs => ?_
  by_cases hb : pc.begun = true
  · exact .inl (by simp only [BarrierWorld.endDelete, hb, Bool.or_true])
  · exact .inr (.inr (.inr ⟨hs, eq_false_of_ne_true hb⟩))

/-! ### The steps -/

theorem Guarded.sendStep {pc : SendPc} (h : w.Guarded) (hk : w.tasks[k]? = some (.send pc))
    (answer : TaskAnswer) : (w.sendStep k answer pc).Guarded := by
  cases pc with
  | wait =>
    rw [BarrierWorld.sendStep]
    split
    · next hfree => exact h.lock hk hfree rfl rfl rfl
    · exact h
  | prepare =>
    rw [BarrierWorld.sendStep]
    split
    · next hfound => exact h.set hk (fun _ => rfl) (fun _ => ⟨hfound.1, hfound.2.1⟩) rfl nofun
    · exact h.leaveSend hk rfl
  | dispatch | inFlight => exact h.set hk (fun _ => rfl) (fun _ => h.there k _ hk rfl) rfl nofun
  | complete => exact h.leaveSend hk rfl
  | abandoned | ended => exact h

theorem Guarded.outboxStep {pc : SendPc} (h : w.Guarded) (hk : w.tasks[k]? = some (.outbox pc))
    (answer : TaskAnswer) : (w.outboxStep k answer pc).Guarded := by
  have hset : ∀ next, (w.set k (.outbox next)).Guarded := fun next => h.set hk nofun nofun rfl nofun
  cases pc with
  | prepare | dispatch | inFlight | complete => exact hset _
  | _ => exact h

/-- The row goes: outside the pool the account with it, under the mutex. -/
theorem Guarded.removeRow {upstream : Bool} (h : w.Guarded)
    (hk : w.tasks[k]? = some (.delete (.complete upstream))) :
    { w.set k (.delete (.discard upstream)) with row := false }.Guarded := by
  have hheld : w.holder = some k := h.mutex k _ hk rfl
  refine h.move hk rfl rfl (fun _ => hheld) (fun _ _ hheld => hheld) ?_ (fun _ => .inr hheld) nofun ?_ id
    fun hs => .inr (.inr ?_)
  · cases hp : w.pooled <;> simp [Gone, BarrierWorld.set, hp]
  · intro _
    cases hp : w.pooled with
    | true => exact .inl hp
    | false => exact .inr (by simp [Gone, BarrierWorld.set, hp])
  · cases upstream with
    | true => exact .inl rfl
    | false => exact .inr ⟨hs, rfl⟩

/-- A delete is done: the account is gone. -/
theorem Guarded.discard {upstream : Bool} (h : w.Guarded) (hk : w.tasks[k]? = some (.delete (.discard upstream))) :
    { w.endDelete k false with slot := w.slot && !w.pooled }.Guarded := by
  have hheld : w.holder = some k := h.mutex k _ hk rfl
  have hgone : { w.endDelete k false with slot := w.slot && !w.pooled }.Gone := by
    unfold Gone
    dsimp only [BarrierWorld.endDelete, BarrierWorld.set]
    rcases h.removed k _ hk rfl with hp | hg
    · simp [hp]
    · unfold Gone at hg
      split at hg <;> simp_all
  refine h.move hk rfl rfl nofun (fun _ => released_of_ne) (fun _ => hgone) (fun _ => .inr hheld) nofun nofun
    (fun hc => ?_) fun _ => .inr (.inl hgone)
  simpa [BarrierWorld.endDelete] using hc

theorem Guarded.deleteStep {pc : DeletePc} (h : w.Guarded) (hk : w.tasks[k]? = some (.delete pc))
    (answer : TaskAnswer) : (w.deleteStep k answer pc).Guarded := by
  cases pc with
  | wait =>
    rw [BarrierWorld.deleteStep]
    split
    · next hfree => exact h.lock hk hfree rfl rfl rfl
    · exact h
  | plan =>
    rw [BarrierWorld.deleteStep]
    split
    · exact h.set hk (fun _ => rfl) nofun rfl nofun
    · exact h.endDelete hk
  | engine =>
    rw [BarrierWorld.deleteStep]
    split
    · exact h.endDelete hk
    · split <;> exact h.set hk (fun _ => rfl) nofun rfl nofun
  | upstream =>
    exact h.move hk rfl rfl (fun _ => h.mutex k _ hk rfl) (fun _ _ hheld => hheld) id .inl nofun nofun id
      fun _ => .inr (.inr (.inl rfl))
  | inFlight =>
    rw [BarrierWorld.deleteStep]
    split
    · exact h.set hk (fun _ => rfl) nofun rfl (fun _ => rfl)
    · exact h.endDelete hk
  | complete upstream =>
    rw [BarrierWorld.deleteStep]
    split
    · exact h.removeRow hk
    · cases upstream <;> exact h.endDelete hk
  | discard => exact h.discard hk
  | ended => exact h

/-- A new task has nothing yet. -/
theorem Guarded.append {marks : ℕ} (h : w.Guarded) (hholds : task.holds = false) (hremoved : task.removed = false) :
    { w with marks, tasks := w.tasks ++ [task] }.Guarded := by
  have hcases : ∀ (j : ℕ) (t : AccountTask), (w.tasks ++ [task])[j]? = some t → w.tasks[j]? = some t ∨ t = task := by
    intro j t hj
    rw [getElem?_append] at hj
    split at hj
    · exact .inl hj
    · exact .inr (mem_singleton.mp (mem_of_getElem? hj))
  refine ⟨fun j t hj ht => ?_, fun j t hj ht => ?_, fun j t hj ht => ?_, fun hs => ?_⟩
  · rcases hcases j t hj with hj | rfl
    · exact h.mutex j t hj ht
    · exact absurd ht (ne_true_of_eq_false hholds)
  · rcases hcases j t hj with hj | rfl
    · exact h.there j t hj ht
    · exact absurd (AccountTask.holds_of_prepared ht) (ne_true_of_eq_false hholds)
  · rcases hcases j t hj with hj | rfl
    · exact h.removed j t hj ht
    · exact absurd ht (ne_true_of_eq_false hremoved)
  · refine (h.settled hs).imp_right fun hrest => hrest.imp_right ?_
    rintro ⟨j, t, hj, hb⟩
    refine ⟨j, t, ?_, hb⟩
    dsimp only
    rw [getElem?_append_left (List.getElem?_eq_some_iff.mp hj).1]
    exact hj

theorem Guarded.ingest (h : w.Guarded) : (w.step .ingest).Guarded := by
  have hgone : (w.step .ingest).Gone ↔ w.Gone := by
    cases hp : w.pooled <;> simp [Gone, BarrierWorld.step, hp]
  refine ⟨h.mutex, fun k task hk ht => ?_, fun k task hk ht => ?_, fun hs => ?_⟩
  · obtain ⟨hslot, hrow⟩ := h.there k task hk ht
    exact ⟨hslot, by simp [BarrierWorld.step, hrow]⟩
  · rw [hgone]
    exact h.removed k task hk ht
  · rw [hgone]
    exact h.settled hs

/-- **One step.** Whatever happens, the mutex keeps guarding. -/
theorem Guarded.step (h : w.Guarded) (event : BarrierEvent) : (w.step event).Guarded := by
  cases event with
  | send =>
    unfold BarrierWorld.step
    dsimp only
    split
    · exact h.append rfl rfl
    · exact h
  | delete | outbox => exact h.append rfl rfl
  | ingest => exact h.ingest
  | advance k answer =>
    unfold BarrierWorld.step advance
    dsimp only
    split
    · next hk => exact h.sendStep hk answer
    · next hk => exact h.outboxStep hk answer
    · next hk => exact h.deleteStep hk answer
    · exact h
  | abandon =>
    unfold BarrierWorld.step abandon
    dsimp only
    split
    · next pc hk => exact h.leaveSend hk (by cases pc <;> rfl)
    · next hk =>
      split
      · exact h
      · exact h.endDelete hk
    · exact h

/-! ### Who dispatches and who removes -/

theorem sendStep_spec (w : BarrierWorld) (k : ℕ) (answer : TaskAnswer) (pc : SendPc) :
    w.sendStep k answer pc = w ∨ (∃ pc', pc' ≠ .abandoned ∧
        (w.sendStep k answer pc).tasks = w.tasks.set k (.send pc')) ∧
      (w.sendStep k answer pc).started = w.started ∧ (w.sendStep k answer pc).row = w.row := by
  cases pc with
  | wait =>
    rw [sendStep]
    split
    · exact .inr ⟨⟨.prepare, by decide, rfl⟩, rfl, rfl⟩
    · exact .inl rfl
  | prepare =>
    rw [sendStep]
    split
    · exact .inr ⟨⟨.dispatch, by decide, rfl⟩, rfl, rfl⟩
    · exact .inr ⟨⟨.ended, by decide, rfl⟩, rfl, rfl⟩
  | dispatch => exact .inr ⟨⟨.inFlight, by decide, rfl⟩, rfl, rfl⟩
  | inFlight => exact .inr ⟨⟨.complete, by decide, rfl⟩, rfl, rfl⟩
  | complete => exact .inr ⟨⟨.ended, by decide, rfl⟩, rfl, rfl⟩
  | _ => exact .inl rfl

theorem outboxStep_spec (w : BarrierWorld) (k : ℕ) (answer : TaskAnswer) (pc : SendPc) :
    w.outboxStep k answer pc = w ∨ pc ≠ .ended ∧ ∃ pc', w.outboxStep k answer pc = w.set k (.outbox pc') := by
  cases pc with
  | prepare | dispatch | inFlight | complete => exact .inr ⟨by decide, _, rfl⟩
  | _ => exact .inl rfl

theorem deleteStep_spec (w : BarrierWorld) (k : ℕ) (answer : TaskAnswer) (pc : DeletePc) :
    w.deleteStep k answer pc = w ∨ (pc ≠ .ended ∧ ∃ pc', (w.deleteStep k answer pc).tasks =
        w.tasks.set k (.delete pc')) ∧
      ((w.deleteStep k answer pc).row = w.row ∨ ∃ upstream, pc = .complete upstream) := by
  cases pc with
  | wait =>
    rw [deleteStep]
    split
    · exact .inr ⟨⟨nofun, _, rfl⟩, .inl rfl⟩
    · exact .inl rfl
  | engine =>
    rw [deleteStep]
    split
    · exact .inr ⟨⟨nofun, _, rfl⟩, .inl rfl⟩
    · split <;> exact .inr ⟨⟨nofun, _, rfl⟩, .inl rfl⟩
  | complete upstream =>
    rw [deleteStep]
    split <;> exact .inr ⟨⟨nofun, _, rfl⟩, .inr ⟨upstream, rfl⟩⟩
  | upstream | discard => exact .inr ⟨⟨nofun, _, rfl⟩, .inl rfl⟩
  | ended => exact .inl rfl
  | _ =>
    rw [deleteStep]
    split <;> exact .inr ⟨⟨nofun, _, rfl⟩, .inl rfl⟩

theorem delete_of_removesRow {event : BarrierEvent} (hrow : w.RemovesRow event) :
    ∃ (k : ℕ) (upstream : Bool), w.tasks[k]? = some (.delete (.complete upstream)) := by
  obtain ⟨hthere, hgone⟩ := hrow
  have hsame : (w.step event).row ≠ w.row := by
    rw [hthere, hgone]
    exact Bool.false_ne_true
  cases event with
  | send =>
    unfold BarrierWorld.step at hsame
    dsimp only at hsame
    split at hsame <;> exact absurd rfl hsame
  | delete | outbox => exact absurd rfl hsame
  | ingest => simp [BarrierWorld.step, hthere] at hgone
  | abandon k =>
    unfold BarrierWorld.step abandon at hsame
    dsimp only at hsame
    split at hsame
    · exact absurd rfl hsame
    · split at hsame <;> exact absurd rfl hsame
    · exact absurd rfl hsame
  | advance k answer =>
    unfold BarrierWorld.step advance at hsame
    dsimp only at hsame
    split at hsame
    · next pc _ =>
      rcases w.sendStep_spec k answer pc with hkeep | ⟨-, -, hkeep⟩
      · exact absurd (congrArg row hkeep) hsame
      · exact absurd hkeep hsame
    · next pc _ =>
      rcases w.outboxStep_spec k answer pc with hkeep | ⟨-, pc', hkeep⟩
      all_goals exact absurd (congrArg row hkeep) hsame
    · next pc hk =>
      rcases w.deleteStep_spec k answer pc with hkeep | ⟨-, hkeep | ⟨upstream, rfl⟩⟩
      · exact absurd (congrArg row hkeep) hsame
      · exact absurd hkeep hsame
      · exact ⟨k, upstream, hk⟩
    · exact absurd rfl hsame

/-! ### Runs that are kept apart -/

/-- While the outbox worker has a send on its way no delete has the mutex or started before; none was dropped in
flight. -/
structure Apart (w : BarrierWorld) : Prop where
  outbox : ∀ task ∈ w.tasks, task.posts = true → w.started = false ∧ ∀ other ∈ w.tasks, other.deletes = false
  dropped : AccountTask.send .abandoned ∉ w.tasks

/-- One task moves, or is new. -/
theorem Apart.move (h : w.Apart) (hmem : ∀ t ∈ w'.tasks, t ∈ w.tasks ∨ t = task')
    (hdropped : task' ≠ .send .abandoned)
    (hposts : task'.posts = true → w.started = false ∧ ∀ other ∈ w.tasks, other.deletes = false)
    (hquiet : (∀ t ∈ w'.tasks, t.posts = false) ∨ task'.deletes = false ∧ w'.started = w.started) : w'.Apart := by
  refine ⟨fun t ht hp => ?_, fun hd => ?_⟩
  · rcases hquiet with hnone | ⟨hdeletes, hstarted⟩
    · rw [hnone t ht] at hp
      cases hp
    · have hclear : w.started = false ∧ ∀ other ∈ w.tasks, other.deletes = false := by
        rcases hmem t ht with ht | rfl
        · exact h.outbox t ht hp
        · exact hposts hp
      refine ⟨hstarted.trans hclear.1, fun other hother => ?_⟩
      rcases hmem other hother with hother | rfl
      · exact hclear.2 other hother
      · exact hdeletes
  · rcases hmem _ hd with hd | hd
    · exact h.dropped hd
    · exact hdropped hd.symm

theorem Apart.advance (h : w.Apart) {answer : TaskAnswer} (hok : w.KeptApart (.advance k answer)) :
    (w.advance k answer).Apart := by
  unfold BarrierWorld.advance
  split
  · next pc _ =>
    rcases w.sendStep_spec k answer pc with hkeep | ⟨⟨pc', hpc, htasks⟩, hstarted, -⟩
    · rwa [hkeep]
    · exact h.move (htasks ▸ fun _ => mem_or_eq_of_mem_set) (fun heq => hpc (AccountTask.send.inj heq)) nofun
        (.inr ⟨rfl, hstarted⟩)
  · next pc hk =>
    rcases w.outboxStep_spec k answer pc with hkeep | ⟨hpc, pc', hkeep⟩
    · rwa [hkeep]
    · rw [hkeep]
      exact h.move (fun _ => mem_or_eq_of_mem_set) nofun
        (fun _ => h.outbox _ (mem_of_getElem? hk) (decide_eq_true hpc)) (.inr ⟨rfl, rfl⟩)
  · next pc hk =>
    rcases w.deleteStep_spec k answer pc with hkeep | ⟨⟨hpc, pc', htasks⟩, -⟩
    · rwa [hkeep]
    · have hmem : ∀ t ∈ (w.deleteStep k answer pc).tasks, t ∈ w.tasks ∨ t = .delete pc' :=
        htasks ▸ fun _ => mem_or_eq_of_mem_set
      -- the delete takes the mutex, or had it already
      have hquiet : ∀ t ∈ w.tasks, t.posts = false := by
        by_cases hwait : pc = .wait
        · exact hok.1 (by rw [hk, hwait])
        · intro t ht
          by_contra hp
          have hidle := (h.outbox t ht (eq_true_of_ne_false hp)).2 _ (mem_of_getElem? hk)
          cases pc <;> simp_all [AccountTask.deletes, AccountTask.holds]
      refine h.move hmem nofun nofun (.inl fun t ht => ?_)
      rcases hmem t ht with ht | rfl
      · exact hquiet t ht
      · rfl
  · exact h

theorem Apart.abandon (h : w.Apart) (hok : w.KeptApart (.abandon k)) : (w.abandon k).Apart := by
  unfold BarrierWorld.abandon
  split
  · next pc hk =>
    refine h.move (fun _ => mem_or_eq_of_mem_set) ?_ nofun (.inr ⟨rfl, rfl⟩)
    have hidle := hok _ hk
    cases pc <;> simp_all [SendPc.dropped, AccountTask.inFlight]
  · split
    · exact h
    · exact h.move (fun _ => mem_or_eq_of_mem_set) nofun nofun (.inr ⟨rfl, rfl⟩)
  · exact h

theorem Apart.step (h : w.Apart) {event : BarrierEvent} (hok : w.KeptApart event) : (w.step event).Apart := by
  have hnew : ∀ {tasks : List AccountTask} {t t' : AccountTask}, t ∈ tasks ++ [t'] → t ∈ tasks ∨ t = t' :=
    fun ht => (mem_append.mp ht).imp_right mem_singleton.mp
  cases event with
  | send =>
    unfold BarrierWorld.step
    dsimp only
    split
    · exact h.move (fun _ => hnew) nofun nofun (.inr ⟨rfl, rfl⟩)
    · exact h
  | delete => exact h.move (fun _ => hnew) nofun nofun (.inr ⟨rfl, rfl⟩)
  | outbox => exact h.move (fun _ => hnew) nofun (fun _ => hok) (.inr ⟨rfl, rfl⟩)
  | ingest => exact ⟨h.outbox, h.dropped⟩
  | advance => exact h.advance hok
  | abandon => exact h.abandon hok

/-- What is kept apart is linearized. -/
theorem Guarded.linearized (h : w.Guarded) (hapart : w.Apart) {event : BarrierEvent} (hok : w.KeptApart event) :
    w.Linearized event := by
  refine ⟨fun hd => ?_, fun hrow task htask => ?_⟩
  · cases event with
    | advance k answer =>
      rcases hd with hk | hk
      · -- a host send that has the mutex and its account finds no delete but one cut short
        by_contra hs
        rcases h.settled (eq_true_of_ne_false hs) with hc | hg | ⟨j, t, hj, hb⟩
        · rw [hok.2 hk] at hc
          cases hc
        · exact not_gone (h.there k _ hk rfl) hg
        · obtain ⟨-, rfl⟩ := h.eq_of_holds hj hk (AccountTask.holds_of_begun hb) rfl
          cases hb
      · exact (hapart.outbox _ (mem_of_getElem? hk) rfl).1
    | _ => cases hd
  · by_contra hflight
    obtain ⟨k, upstream, hk⟩ := delete_of_removesRow hrow
    obtain ⟨j, hj⟩ := mem_iff_getElem?.mp htask
    rcases AccountTask.cases_of_inFlight (eq_true_of_ne_false hflight) with hp | hp | rfl
    · obtain ⟨-, rfl⟩ := h.eq_of_holds hj hk (AccountTask.holds_of_prepared hp) rfl
      cases hp
    · have hidle := (hapart.outbox task htask hp).2 _ (mem_of_getElem? hk)
      cases hidle
    · exact hapart.dropped htask

end BarrierWorld

/-- **Deletes linearize against sends** in every run in which the outbox worker and the deletes keep apart, no host
send follows a delete cut short, and none in flight is dropped. -/
theorem deletes_linearize (pooled : Bool) (events : List BarrierEvent)
    (happart : Along BarrierWorld.step BarrierWorld.KeptApart (.linked pooled) events) :
    Along BarrierWorld.step BarrierWorld.Linearized (.linked pooled) events :=
  Along.imp (fun w => w.Guarded ∧ w.Apart) (fun _ event hok h => ⟨h.1.step event, h.2.step hok⟩)
    (fun _ _ hok h => h.1.linearized h.2 hok) events _ happart
    ⟨BarrierWorld.guarded_linked pooled, nofun, nofun⟩

/-- A send of the outbox worker and one of the host end; a second of the host, behind the delete, finds no account. -/
def sendsThenDelete : List BarrierEvent :=
  [.outbox, .send, .advance 1 .ok, .advance 1 .ok, .advance 1 .ok, .advance 0 .ok, .advance 0 .ok, .advance 0 .ok,
    .send, .delete, .advance 1 .ok, .advance 1 .ok, .advance 0 .ok, .advance 3 .ok, .advance 3 .ok, .advance 3 .ok,
    .advance 3 .ok, .advance 3 .ok, .advance 3 .ok, .ingest, .advance 3 .ok, .advance 2 .ok, .advance 2 .ok]

theorem sends_then_delete_linearize : Along BarrierWorld.step BarrierWorld.KeptApart (.linked true) sendsThenDelete ∧
    Along BarrierWorld.step BarrierWorld.Linearized (.linked true) sendsThenDelete ∧
    (sendsThenDelete.foldl BarrierWorld.step (.linked true)).tasks =
      [.outbox .ended, .send .ended, .send .ended, .delete .ended] :=
  ⟨by decide, deletes_linearize true sendsThenDelete (by decide), by decide⟩

/-- The outbox worker dispatches a prepared retry while the upstream delete runs, and the row goes with the send in
flight; it goes too with a host send in flight that the stall budget dropped. -/
theorem outbox_dispatches_into_delete :
    (let w := List.foldl BarrierWorld.step (.linked false)
      [.outbox, .advance 0 .ok, .delete, .advance 1 .ok, .advance 1 .ok, .advance 1 .ok, .advance 1 .ok]
    let w' := List.foldl BarrierWorld.step w [.advance 0 .ok, .advance 1 .ok, .advance 1 .ok]
    w.started = true ∧ w.tasks = [.outbox .dispatch, .delete .inFlight] ∧
      w'.row = false ∧ w'.tasks = [.outbox .inFlight, .delete (.discard true)]) ∧
    let w := List.foldl BarrierWorld.step (.linked false)
      [.send, .advance 0 .ok, .advance 0 .ok, .advance 0 .ok, .abandon 0, .delete, .advance 1 .ok, .advance 1 .ok,
        .advance 1 .ok, .advance 1 .ok, .advance 1 .ok, .advance 1 .ok]
    w.row = false ∧ w.tasks = [.send .abandoned, .delete (.discard true)] := by
  decide

/-- **One request at a time.** No two host requests of the account are past the mutex, and one that prepared a send
finds the account's row. -/
theorem host_requests_exclusive (pooled : Bool) (events : List BarrierEvent) :
    let w := events.foldl BarrierWorld.step (.linked pooled)
    (∀ (j k : ℕ) (task other : AccountTask), w.tasks[j]? = some task → w.tasks[k]? = some other →
      task.holds = true → other.holds = true → j = k) ∧
    ∀ (k : ℕ) (task : AccountTask), w.tasks[k]? = some task → task.prepared = true → w.row = true := by
  have h : (events.foldl BarrierWorld.step (.linked pooled)).Guarded :=
    foldl_invariant BarrierWorld.Guarded (fun _ event h => h.step event) events _ (BarrierWorld.guarded_linked pooled)
  exact ⟨fun j k task other htask hother hj hk => (h.eq_of_holds htask hother hj hk).1,
    fun k task hk hp => (h.there k task hk hp).2⟩

end SignalConnector
