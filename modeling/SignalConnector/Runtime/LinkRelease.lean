/-
# Does a finished link attempt give its lane back?

The lane names the attempt that took it until the attempt gives it back by
hand, or a cancellation or a stop empties it. While it names an attempt, other
attempts are refused and the watchdog restarts nothing, so an attempt that
returned must not be named. Of the ways out of `finish_link` one forgets the
lane: the `?` on the store read behind the account ceiling. Whoever holds the
lane, a commit takes the session, and only `begin_link` makes another.
-/
import SignalConnector.Lib.Run
import SignalConnector.Runtime.Link

namespace SignalConnector

/-- The attempt is between taking the lane and giving it back. -/
def FinishPc.inLane : FinishPc → Bool
  | .peek | .refused _ | .ceiling | .waiting | .answered _ => true
  | _ => false

def FinishPc.isReturned : FinishPc → Bool
  | .returned _ => true
  | _ => false

namespace LinkWorld

def Names (w : LinkWorld) (attempt : ℕ) : Prop := ∃ finish ∈ w.lane.activeLinkFinish, finish.attempt = attempt

def Returned (w : LinkWorld) (attempt : ℕ) : Prop := ∃ made ∈ w.attempts[attempt]?, made.2.isReturned = true

def InFlight (w : LinkWorld) (attempt : ℕ) : Prop := ∃ made ∈ w.attempts[attempt]?, made.2.isReturned = false

end LinkWorld

/-- The lane names no attempt that returned; a finish is refused only for one in flight, and with none in flight and
no session pending the watchdog is not held up. -/
structure LaneReleased (w : LinkWorld) : Prop where
  exited : ∀ attempt, w.Returned attempt → ¬w.Names attempt
  refused : ∀ attempt, w.Names attempt → w.InFlight attempt
  flowEnds : w.lane.hasPendingLink w.nowMs = false → (∀ attempt, ¬w.InFlight attempt) →
    w.lane.linkFlowActive w.nowMs = false

/-- The read behind the ceiling does not fail an attempt while the lane names it. -/
def CeilingReadable (w : LinkWorld) : LinkEvent → Prop
  | .advance attempt (.ceiling (.error _)) =>
    (∃ made ∈ w.attempts[attempt]?, made.2 = .ceiling) → ¬w.Names attempt
  | _ => True

/-! ### What a step does to the lane -/

namespace LinkLane

variable (lane : LinkLane) (linkSessionId : String) (nowMs : ℕ)

theorem active_requireActiveLink :
    (lane.requireActiveLink linkSessionId nowMs).2.activeLinkFinish = lane.activeLinkFinish := by
  unfold requireActiveLink
  split
  · split
    · split <;> rfl
    · rfl
  · rfl

theorem active_takeLinkSession :
    (lane.takeLinkSession linkSessionId nowMs).2.activeLinkFinish = lane.activeLinkFinish := by
  have hsame := active_requireActiveLink lane linkSessionId nowMs
  unfold takeLinkSession
  split <;> next h => rwa [h] at hsame

theorem active_ensureLinkAvailable :
    (lane.ensureLinkAvailable nowMs).2.activeLinkFinish = lane.activeLinkFinish := by
  unfold ensureLinkAvailable
  split <;> rfl

theorem active_beginLink (deviceName deviceLinkUri sessionId : String) :
    (lane.beginLink deviceName deviceLinkUri sessionId nowMs).2.activeLinkFinish = lane.activeLinkFinish := by
  have hsame := active_ensureLinkAvailable lane nowMs
  unfold beginLink
  split
  · rfl
  · split <;> next h => rwa [h] at hsame

theorem active_completeLinkSessionWithId (proxyGroup : String) (store : CommitStore) :
    (lane.completeLinkSessionWithId linkSessionId proxyGroup nowMs store).2.2.activeLinkFinish =
      lane.activeLinkFinish := by
  have hrequire := active_requireActiveLink lane linkSessionId nowMs
  unfold completeLinkSessionWithId
  split
  · next h => rwa [h] at hrequire
  · next lane₁ h =>
    rw [h] at hrequire
    have htake := (active_takeLinkSession lane₁ linkSessionId nowMs).trans hrequire
    split
    · exact hrequire
    · exact htake
    · split
      · exact hrequire
      · exact hrequire
      · split <;> next h => rwa [h] at htake

/-- The lane is given back: it does not name the session any more, and named what it names before. -/
theorem mem_clearLinkFinish {finish : ActiveLinkFinish}
    (h : finish ∈ (lane.clearLinkFinish linkSessionId).2.activeLinkFinish) :
    finish ∈ lane.activeLinkFinish ∧ finish.linkSessionId ≠ linkSessionId := by
  unfold clearLinkFinish at h
  split at h
  · cases h
  · next hother =>
    refine ⟨h, fun hsame => hother ?_⟩
    rw [Option.mem_def] at h
    rw [h]
    exact decide_eq_true hsame

end LinkLane

/-- **One step of an attempt, seen from the lane.** Who is named afterwards came in now or was named before; the
attempt itself only while it has the lane, or if the ceiling could not be read. -/
theorem finishLinkStep_lane (proxyGroup linkSessionId : String) (attempt nowMs : ℕ) (lane : LinkLane)
    (pc : FinishPc) (input : FinishInput) (finish : ActiveLinkFinish)
    (h : finish ∈ (finishLinkStep proxyGroup linkSessionId attempt nowMs lane pc input).2.2.activeLinkFinish) :
    finish = ⟨linkSessionId, attempt⟩ ∧
        (finishLinkStep proxyGroup linkSessionId attempt nowMs lane pc input).1.inLane = true ∨
      finish ∈ lane.activeLinkFinish ∧ (finish.linkSessionId = linkSessionId → pc.inLane = true →
        (finishLinkStep proxyGroup linkSessionId attempt nowMs lane pc input).1.inLane = true ∨
          pc = .ceiling ∧ ∃ error, input = .ceiling (.error error)) := by
  unfold finishLinkStep at h ⊢
  split at h
  · exact .inr ⟨h, fun _ => nofun⟩
  · exact .inr ⟨h, fun _ => nofun⟩
  · split at h
    · next hbusy => exact .inr ⟨by simpa [hbusy] using h, fun _ => nofun⟩
    · next hfree =>
      simp only [Option.mem_def, Option.some.injEq] at h
      exact .inl ⟨h.symm, by simp [hfree, FinishPc.inLane]⟩
  · have hsame := lane.active_requireActiveLink linkSessionId nowMs
    split at h
    · next hrequire =>
      rw [hrequire] at hsame
      exact .inr ⟨hsame ▸ h, fun _ _ => .inl rfl⟩
    · next hrequire =>
      rw [hrequire] at hsame
      exact .inr ⟨hsame ▸ h, fun _ _ => .inl rfl⟩
  · obtain ⟨hnamed, hother⟩ := lane.mem_clearLinkFinish linkSessionId h
    exact .inr ⟨hnamed, fun hsession => absurd hsession hother⟩
  · next count =>
    unfold groupAtAccountCeiling at h ⊢
    cases count with
    | error error => exact .inr ⟨h, fun _ _ => .inr ⟨rfl, error, rfl⟩⟩
    | ok n =>
      by_cases hfull : maxAccountsPerEngine ≤ n
      · simp only [hfull, decide_true] at h ⊢
        exact .inr ⟨h, fun _ _ => .inl rfl⟩
      · simp only [hfull, decide_false] at h ⊢
        exact .inr ⟨h, fun _ _ => .inl rfl⟩
  · exact .inr ⟨h, fun _ _ => .inl rfl⟩
  · have hgiven := @LinkLane.mem_clearLinkFinish lane linkSessionId finish
    split at h
    · next hclear =>
      rw [hclear] at hgiven
      exact .inr ⟨(hgiven h).1, fun hsession => absurd hsession (hgiven h).2⟩
    · next hclear =>
      rw [hclear] at hgiven
      exact .inr ⟨(hgiven h).1, fun hsession => absurd hsession (hgiven h).2⟩
  · next store =>
    have hsame := lane.active_completeLinkSessionWithId linkSessionId nowMs proxyGroup store
    split at h <;> next hcommit =>
      rw [hcommit] at hsame
      exact .inr ⟨hsame ▸ h, fun _ => nofun⟩
  · exact .inr ⟨h, fun _ => nofun⟩
  · exact .inr ⟨h, fun _ => nofun⟩
  · exact .inr ⟨h, fun _ => nofun⟩
  · exact .inr ⟨h, fun _ hin => .inl hin⟩

/-! ### Whole runs -/

namespace LinkWorld

/-- Whom the lane names is between taking it and giving it back. -/
def LaneHeld (w : LinkWorld) : Prop :=
  ∀ finish ∈ w.lane.activeLinkFinish,
    ∃ pc, w.attempts[finish.attempt]? = some (finish.linkSessionId, pc) ∧ pc.inLane = true

variable {w : LinkWorld}

theorem LaneHeld.of_active {lane : LinkLane} {nowMs : ℕ} (h : w.LaneHeld)
    (hsub : ∀ finish ∈ lane.activeLinkFinish, finish ∈ w.lane.activeLinkFinish) :
    LaneHeld { w with lane, nowMs } :=
  fun finish hfinish => h finish (hsub finish hfinish)

theorem LaneHeld.advance {attempt : ℕ} {input : FinishInput} (h : w.LaneHeld)
    (hread : CeilingReadable w (.advance attempt input)) : (w.advance attempt input).LaneHeld := by
  unfold LinkWorld.advance
  split
  · exact h
  next linkSessionId pc hmade =>
  intro finish hfinish
  dsimp only at hfinish ⊢
  have hlt : attempt < w.attempts.length := (List.getElem?_eq_some_iff.mp hmade).1
  rcases finishLinkStep_lane _ _ _ _ _ _ _ _ hfinish with ⟨rfl, hin⟩ | ⟨hnamed, hstays⟩
  · exact ⟨_, List.getElem?_set_self hlt, hin⟩
  · obtain ⟨pc', hpc', hin'⟩ := h finish hnamed
    by_cases hself : finish.attempt = attempt
    · rw [hself, hmade] at hpc'
      obtain ⟨hsession, rfl⟩ := Prod.mk.inj (Option.some.inj hpc')
      rcases hstays hsession.symm hin' with hin | ⟨rfl, error, rfl⟩
      · subst hsession
        rw [hself, List.getElem?_set_self hlt]
        exact ⟨_, rfl, hin⟩
      · exact absurd ⟨finish, hnamed, hself⟩ (hread ⟨_, hmade, rfl⟩)
    · rw [List.getElem?_set_ne (Ne.symm hself)]
      exact ⟨pc', hpc', hin'⟩

/-- Every step keeps it, unless the ceiling cannot be read. -/
theorem LaneHeld.step {event : LinkEvent} (h : w.LaneHeld) (hread : CeilingReadable w event) :
    (w.step event).LaneHeld := by
  cases event with
  | ensureLinkAvailable => exact h.of_active fun f hf => w.lane.active_ensureLinkAvailable w.nowMs ▸ hf
  | beginLink deviceName deviceLinkUri sessionId =>
    exact h.of_active fun f hf => w.lane.active_beginLink w.nowMs deviceName deviceLinkUri sessionId ▸ hf
  | finishLink =>
    intro finish hfinish
    obtain ⟨pc, hpc, hin⟩ := h finish hfinish
    exact ⟨pc, (List.getElem?_append_left (List.getElem?_eq_some_iff.mp hpc).1).trans hpc, hin⟩
  | advance => exact h.advance hread
  | cancelFinish linkSessionId => exact h.of_active fun f hf => (w.lane.mem_clearLinkFinish linkSessionId hf).1
  | cancelLink linkSessionId =>
    exact h.of_active fun f hf => w.lane.active_takeLinkSession linkSessionId w.nowMs ▸ hf
  | clearLink => exact h.of_active fun f hf => hf
  | dropLinkFinish => exact h.of_active fun f hf => nomatch hf
  | elapse => exact h.of_active fun f hf => hf

theorem LaneHeld.released (h : w.LaneHeld) : LaneReleased w := by
  have hflight : ∀ attempt, w.Names attempt → w.InFlight attempt := by
    rintro attempt ⟨finish, hfinish, rfl⟩
    obtain ⟨pc, hpc, hin⟩ := h finish hfinish
    refine ⟨_, hpc, ?_⟩
    cases pc <;> first | rfl | cases hin
  refine ⟨fun attempt hreturned hnamed => ?_, hflight, fun hpending hnone => ?_⟩
  · obtain ⟨made, hmade, hdone⟩ := hreturned
    obtain ⟨made', hmade', hnot⟩ := hflight attempt hnamed
    cases Option.mem_unique hmade hmade'
    exact Bool.false_ne_true (hnot.symm.trans hdone)
  · unfold LinkLane.linkFlowActive
    rw [hpending, Bool.or_false, Option.isSome_eq_false_iff, Option.isNone_iff_eq_none,
      Option.eq_none_iff_forall_not_mem]
    exact fun finish hfinish => hnone finish.attempt (hflight _ ⟨finish, hfinish, rfl⟩)

/-- An attempt that the ceiling fails is gone and still named. -/
theorem not_released_of_unreadable {event : LinkEvent} (hread : ¬CeilingReadable w event) :
    ¬LaneReleased (w.step event) := by
  unfold CeilingReadable at hread
  split at hread
  swap
  · exact absurd trivial hread
  next attempt error =>
  rw [Classical.not_imp, not_not] at hread
  obtain ⟨⟨made, hmade, hpc⟩, hnamed⟩ := hread
  obtain ⟨linkSessionId, pc⟩ := made
  cases hpc
  rw [Option.mem_def] at hmade
  intro hreleased
  refine hreleased.exited attempt ?_ ?_
  · have hlt : attempt < w.attempts.length := (List.getElem?_eq_some_iff.mp hmade).1
    refine ⟨(linkSessionId, .returned (.error (.store error))), ?_, rfl⟩
    simp only [LinkWorld.step, LinkWorld.advance, hmade]
    exact List.getElem?_set_self hlt
  · obtain ⟨finish, hfinish, hself⟩ := hnamed
    refine ⟨finish, ?_, hself⟩
    simp only [LinkWorld.step, LinkWorld.advance, hmade]
    exact hfinish

end LinkWorld

/-- **When every finished attempt releases the lane**: the store never fails the ceiling's read for an attempt the
lane still names. -/
theorem link_lane_released_iff (proxyGroup : String) (nowMs : ℕ) (events : List LinkEvent) :
    Along LinkWorld.step (fun w event => LaneReleased (w.step event)) (LinkWorld.init proxyGroup nowMs) events ↔
      Along LinkWorld.step CeilingReadable (LinkWorld.init proxyGroup nowMs) events := by
  have hkept : Along LinkWorld.step (fun _ _ => True) (LinkWorld.init proxyGroup nowMs) events :=
    Along.of_forall (fun _ _ => trivial) _ _
  refine Along.iff_of_invariant LinkWorld.LaneHeld (fun w event hheld _ hread => ?_)
    (fun w event _ hread => LinkWorld.not_released_of_unreadable hread) events _ nofun hkept
  exact ⟨hheld.step hread, (hheld.step hread).released⟩

/-- The store fails once behind the ceiling: the attempt returns, and the lane still refuses the next one and holds
the watchdog up. -/
theorem failed_ceiling_read_keeps_lane :
    let w := List.foldl LinkWorld.step (LinkWorld.init "default" 0)
      [.beginLink "desk" "sgnl://link?uuid=1" "s1", .finishLink "s1", .advance 0 (.engine true),
        .advance 0 .proceed, .advance 0 .proceed, .advance 0 (.ceiling (.error .unavailable)), .elapse 300000,
        .finishLink "s2", .advance 1 (.engine true), .advance 1 .proceed]
    w.attempts.map Prod.snd = [.returned (.error (.store .unavailable)),
        .returned (.error (linkInProgressError "a link finish request is already active"))] ∧
      w.lane.hasPendingLink w.nowMs = false ∧ w.lane.linkFlowActive w.nowMs = true := by
  decide

/-! ### A session commits once -/

namespace LinkLane

variable (lane : LinkLane) (linkSessionId : String) (nowMs : ℕ)

def sessions : ℕ := lane.link.toList.length

theorem sessions_clearLinkFinish : (lane.clearLinkFinish linkSessionId).2.sessions = lane.sessions := by
  unfold clearLinkFinish
  split <;> rfl

theorem sessions_requireActiveLink : (lane.requireActiveLink linkSessionId nowMs).2.sessions ≤ lane.sessions := by
  fun_cases lane.requireActiveLink linkSessionId nowMs <;> simp [sessions, clearLink]

/-- What a commit writes it pays for with the session. -/
theorem sessions_completeLinkSessionWithId (proxyGroup : String) (store : CommitStore) :
    let r := lane.completeLinkSessionWithId linkSessionId proxyGroup nowMs store
    r.2.1.toList.length + r.2.2.sessions ≤ lane.sessions := by
  unfold completeLinkSessionWithId takeLinkSession requireActiveLink
  repeat' split
  all_goals grind [sessions, clearLink]

theorem sessions_finishLinkStep (proxyGroup : String) (attempt : ℕ) (pc : FinishPc) (input : FinishInput) :
    let r := finishLinkStep proxyGroup linkSessionId attempt nowMs lane pc input
    r.2.1.toList.length + r.2.2.sessions ≤ lane.sessions := by
  fun_cases finishLinkStep proxyGroup linkSessionId attempt nowMs lane pc input
  case case14 store _ _ _ heq | case15 store _ _ _ heq =>
    simpa [heq] using lane.sessions_completeLinkSessionWithId linkSessionId nowMs proxyGroup store
  all_goals grind [sessions_requireActiveLink, sessions_clearLinkFinish, sessions]

end LinkLane

namespace LinkWorld

open LinkLane

/-- The event is a `begin_link` that is not refused. -/
def begins (w : LinkWorld) : LinkEvent → Bool
  | .beginLink deviceName deviceLinkUri sessionId =>
    (w.lane.beginLink deviceName deviceLinkUri sessionId w.nowMs).1.isOk
  | _ => false

/-- The sessions begun along a run. -/
def begun (w : LinkWorld) : List LinkEvent → ℕ
  | [] => 0
  | event :: events => (if w.begins event then 1 else 0) + (w.step event).begun events

/-- The rows written, and the session that may still pay for one. -/
def spent (w : LinkWorld) : ℕ := w.committed.length + w.lane.sessions

theorem spent_step (w : LinkWorld) (event : LinkEvent) :
    (w.step event).spent ≤ w.spent + if w.begins event then 1 else 0 := by
  cases event with
  | advance attempt input =>
    simp only [step, advance]
    split
    · exact Nat.le_add_right _ _
    · next linkSessionId pc _ =>
      rw [spent, List.length_append, add_assoc]
      exact Nat.add_le_add_left (w.lane.sessions_finishLinkStep linkSessionId w.nowMs w.proxyGroup attempt pc input) _
  | beginLink => grind [step, spent, begins, beginLink, sessions, ensureLinkAvailable, clearLink, Except.toBool]
  | _ =>
    refine Nat.add_le_add_left ?_ _
    grind [step, takeLinkSession, sessions_requireActiveLink, sessions_clearLinkFinish, ensureLinkAvailable,
      dropLinkFinish, sessions, clearLink]

theorem spent_foldl (w : LinkWorld) (events : List LinkEvent) :
    (events.foldl step w).spent ≤ w.spent + w.begun events := by
  induction events generalizing w with
  | nil => exact Nat.le_refl _
  | cons event events ih =>
    have hstep := w.spent_step event
    have hrest := ih (w.step event)
    rw [List.foldl_cons, begun]
    omega

end LinkWorld

/-- **A link session is used once.** In every interleaving the attempts write no more rows than sessions began. -/
theorem link_sessions_used_once (proxyGroup : String) (nowMs : ℕ) (events : List LinkEvent) :
    (events.foldl LinkWorld.step (.init proxyGroup nowMs)).committed.length ≤
      (LinkWorld.init proxyGroup nowMs).begun events := by
  have hspent := LinkWorld.spent_foldl (.init proxyGroup nowMs) events
  rw [show (LinkWorld.init proxyGroup nowMs).spent = 0 from rfl, Nat.zero_add] at hspent
  exact (Nat.le_add_right _ _).trans hspent

end SignalConnector
