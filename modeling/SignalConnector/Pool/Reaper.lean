/-
# Does the reaper spare the links under way?

A slot of the pool is made when a link starts and is marked provisioned when
its finish has returned to the registry, after the row was committed and the
contacts were synced. Every thirty seconds `reap_uncommitted_links` discards
the slots that are not provisioned, were not used for five minutes and have no
session pending. A session lives for five minutes too and is consumed by the
commit, so it protects neither a finish that waits for the phone past them nor
one whose row is committed and whose sync is still running.
-/
import SignalConnector.Lib.CheckThenAct
import SignalConnector.Runtime.Link

namespace SignalConnector

/-- `ABANDONED_LINK_TTL`. -/
def abandonedLinkTtlMs : ℕ := 300000

/-- A slot of the pool with the links of its supervisor. `settled` are the finish attempts whose answer the
registry has dealt with. -/
structure LinkSlot where
  accountId : String
  links : LinkWorld
  settled : List ℕ
  provisioned : Bool
  lastUsed : ℕ
  present : Bool
  deriving DecidableEq

/-- What happens to a slot, the reaper apart. -/
inductive SlotEvent
  /-- a step of a link call on the supervisor, or of the clock -/
  | link (event : LinkEvent)
  /-- the rest of `ProxyGroupRuntime::finish_link`, behind the supervisor's answer -/
  | settle (attempt : ℕ)
  /-- `touch`: the link was started, or a request addresses the account -/
  | touch
  /-- `cancel_link` of a link that is not committed, or a link start that failed -/
  | rollback
  deriving DecidableEq

namespace LinkSlot

/-- `provision_slot`. -/
def provision (accountId proxyGroup : String) (nowMs : ℕ) : LinkSlot where
  accountId
  links := .init proxyGroup nowMs
  settled := []
  provisioned := false
  lastUsed := nowMs
  present := true

variable (s : LinkSlot)

/-- Since the last use. -/
def idleFor : ℕ := s.links.nowMs - s.lastUsed

/-- `discard`: the slot leaves the pool and its supervisor is shut down. -/
def discard : LinkSlot :=
  { s with present := false, links := (s.links.step .clearLink).step .dropLinkFinish }

/-- `finish_link` of the registry once answered: a link under the slot's own id is marked provisioned and used, one
on another account is rolled back, an error leaves the slot. -/
def settle (attempt : ℕ) : LinkSlot :=
  match s.links.attempts[attempt]? with
  | some (_, .returned result) =>
    if attempt ∈ s.settled then s
    else
      match result with
      | .ok accountId =>
        if accountId = s.accountId then
          { s with settled := attempt :: s.settled, provisioned := true, lastUsed := s.links.nowMs }
        else { s.discard with settled := attempt :: s.settled }
      | .error _ => { s with settled := attempt :: s.settled }
  | _ => s

/-- One event of the slot. -/
def step (s : LinkSlot) : SlotEvent → LinkSlot
  | .link event => { s with links := s.links.step event }
  | .settle attempt => s.settle attempt
  | .touch => { s with lastUsed := s.links.nowMs }
  | .rollback => s.discard

/-! ### The reaper -/

/-- The reaper's first look: in the pool, not provisioned, and idle for long. -/
def Abandoned : Prop := s.present = true ∧ s.provisioned = false ∧ abandonedLinkTtlMs ≤ s.idleFor
  deriving Decidable

/-- The reaper's second look: no session is pending. -/
def Sessionless : Prop := s.links.lane.hasPendingLink s.links.nowMs = false
  deriving Decidable

/-- `reap_uncommitted_links` on one slot, interleaved with what else happens to it. -/
def reaperStep : LinkSlot × Look → Option SlotEvent → LinkSlot × Look :=
  lookStep step Abandoned Sessionless discard

def Present : Prop := s.present = true

/-- A finish for the slot is in flight, or the row of its account is committed. -/
def Linking : Prop :=
  (∃ attempt < s.links.attempts.length, attempt ∉ s.settled) ∨ s.accountId ∈ s.links.committed

theorem not_present_discard : ¬s.discard.Present := Bool.false_ne_true

/-- What left the pool does not come back. -/
theorem present_of_step (event : SlotEvent) (h : (s.step event).Present) : s.Present := by
  cases event with
  | link => exact h
  | touch => exact h
  | rollback => cases h
  | settle =>
    simp only [step, settle] at h
    split at h
    · split at h
      · exact h
      · split at h
        · split at h
          · exact h
          · cases h
        · exact h
    · exact h

end LinkSlot

/-- From when the slot is abandoned and then without a pending session until it leaves the pool, no finish is in
flight and no row committed. -/
def LinkedInTime (s : LinkSlot) (history : List SlotEvent) : Prop :=
  ∀ p₁ p₂ p₃, p₁ <+: p₂ → p₂ <+: p₃ → p₃ <+: history → (p₁.foldl LinkSlot.step s).Abandoned →
    (p₂.foldl LinkSlot.step s).Sessionless → (p₃.foldl LinkSlot.step s).Present →
      ¬(p₃.foldl LinkSlot.step s).Linking

/-- **When the reaper spares the links under way**: iff the links are made in time. -/
theorem reaper_spares_links_iff (accountId proxyGroup : String) (nowMs : ℕ) (history : List SlotEvent) :
    (∀ run : List (Option SlotEvent), run.reduceOption = history →
        Along LinkSlot.reaperStep (ActsSafely LinkSlot.Present LinkSlot.Linking)
          (LinkSlot.provision accountId proxyGroup nowMs, .idle) run) ↔
      LinkedInTime (LinkSlot.provision accountId proxyGroup nowMs) history :=
  acts_safely_iff LinkSlot.present_of_step LinkSlot.not_present_discard _ history

/-- What the store answers to a link that commits. -/
def freshCommit (accountId : String) : CommitStore where
  unfinishedAccountDeleteState := .ok none
  boundHere := .ok false
  countAccountsInGroup := .ok 0
  written := some accountId
  upsertAccount := .ok accountId
  setAccountAci := .ok ()
  accountSummary := .ok ()

/-- The phone approves late; the row is committed, and with the sync under way the reaper discards the slot. -/
theorem committed_link_reaped :
    let before := List.foldl LinkSlot.reaperStep (LinkSlot.provision "a" "default" 0, .idle)
      [some (.link (.beginLink "desk" "sgnl://link?uuid=1" "s1")), some .touch, some (.link (.finishLink "s1")),
        some (.link (.advance 0 (.engine true))), some (.link (.advance 0 .proceed)),
        some (.link (.advance 0 .proceed)), some (.link (.advance 0 (.ceiling (.ok 0)))),
        some (.link (.elapse 299000)), some (.link (.advance 0 (.upstream (.ok (some (some "+15550100")))))),
        some (.link (.advance 0 .proceed)), some (.link (.advance 0 (.commit (freshCommit "a")))),
        some (.link (.elapse 1000)), none, none]
    before.2 = .twice ∧ before.1.present = true ∧ before.1.links.committed = ["a"] ∧
      before.1.links.attempts = [("s1", .summary "a")] ∧ (LinkSlot.reaperStep before none).1.present = false := by
  decide

end SignalConnector
