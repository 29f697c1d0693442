/-
# Looking twice and then acting

A task looks at a system twice and, if both looks please it, acts on it. The
system moves between the looks and before the act, so what the task saw need
not hold any more when it acts. Whatever the interleaving, the act comes after
two moments of the system's own history at which the looks hold; and every such
choice of moments is an interleaving.
-/
import SignalConnector.Lib.Run

namespace SignalConnector

open List

variable {σ α : Type}

/-- How far the task is. -/
inductive Look
  | idle | once | twice
  deriving DecidableEq

/-- One step: `some a` of the system, `none` of the task. -/
def lookStep (step : σ → α → σ) (first second : σ → Prop) [DecidablePred first] [DecidablePred second]
    (act : σ → σ) : σ × Look → Option α → σ × Look
  | (s, look), some a => (step s a, look)
  | (s, .idle), none => (s, if first s then .once else .idle)
  | (s, .once), none => (s, if second s then .twice else .idle)
  | (s, .twice), none => (act s, .idle)

theorem reduceOption_map_some : ∀ l : List α, (l.map some).reduceOption = l
  | [] => rfl
  | a :: l => by rw [map_cons, reduceOption_cons_of_some, reduceOption_map_some l]

/-! ### What the task has seen -/

/-- What the task has seen by the time the system has done `done`. -/
def Seen (step : σ → α → σ) (first second : σ → Prop) (s : σ) (done : List α) : Look → Prop
  | .idle => True
  | .once => ∃ p₁, p₁ <+: done ∧ first (p₁.foldl step s)
  | .twice => ∃ p₁ p₂, p₁ <+: p₂ ∧ p₂ <+: done ∧ first (p₁.foldl step s) ∧ second (p₂.foldl step s)

theorem Seen.more {step : σ → α → σ} {first second : σ → Prop} {s : σ} {done : List α} {look : Look}
    (h : Seen step first second s done look) (a : α) : Seen step first second s (done ++ [a]) look := by
  have hmore := prefix_append done [a]
  cases look with
  | idle => trivial
  | once =>
    obtain ⟨p₁, hp₁, hfirst⟩ := h
    exact ⟨p₁, hp₁.trans hmore, hfirst⟩
  | twice =>
    obtain ⟨p₁, p₂, h₁₂, hp₂, hfirst, hsecond⟩ := h
    exact ⟨p₁, p₂, h₁₂, hp₂.trans hmore, hfirst, hsecond⟩

/-! ### Safe acts -/

section Acting

variable {step : σ → α → σ} {first second present bad : σ → Prop} [DecidablePred first] [DecidablePred second]
  {act : σ → σ}

/-- The task does not act on a system that is there and must not be acted on. -/
def ActsSafely (present bad : σ → Prop) (w : σ × Look) (event : Option α) : Prop :=
  event = none → w.2 = .twice → present w.1 → ¬bad w.1

theorem foldl_lookStep_map (look : Look) : ∀ (l : List α) (s : σ),
    (l.map some).foldl (lookStep step first second act) (s, look) = (l.foldl step s, look)
  | [], _ => rfl
  | _ :: l, _ => foldl_lookStep_map look l _

/-- On a system that is gone nothing can go wrong. -/
theorem actsSafely_of_gone (hstep : ∀ s a, present (step s a) → present s) (hact : ∀ s, ¬present (act s)) :
    ∀ (run : List (Option α)) (s : σ) (look : Look), ¬present s →
      Along (lookStep step first second act) (ActsSafely present bad) (s, look) run
  | [], _, _, _ => trivial
  | event :: run, s, look, hgone => by
    refine ⟨fun _ _ hpresent => absurd hpresent hgone, ?_⟩
    cases event with
    | some a => exact actsSafely_of_gone hstep hact run _ look fun h => hgone (hstep s a h)
    | none =>
      cases look with
      | idle => exact actsSafely_of_gone hstep hact run s _ hgone
      | once => exact actsSafely_of_gone hstep hact run s _ hgone
      | twice => exact actsSafely_of_gone hstep hact run _ _ (hact s)

theorem actsSafely_of_history (hstep : ∀ s a, present (step s a) → present s) (hact : ∀ s, ¬present (act s))
    {s : σ} {history : List α}
    (hsafe : ∀ p₁ p₂ p₃, p₁ <+: p₂ → p₂ <+: p₃ → p₃ <+: history → first (p₁.foldl step s) →
      second (p₂.foldl step s) → present (p₃.foldl step s) → ¬bad (p₃.foldl step s)) :
    ∀ (run : List (Option α)) (done : List α) (look : Look), done ++ run.reduceOption = history →
      Seen step first second s done look →
      Along (lookStep step first second act) (ActsSafely present bad) (done.foldl step s, look) run
  | [], _, _, _, _ => trivial
  | some a :: run, done, look, hhistory, hseen => by
    refine ⟨nofun, ?_⟩
    have hrest := actsSafely_of_history hstep hact hsafe run (done ++ [a]) look
      (by rw [← hhistory]; simp [reduceOption_cons_of_some]) (hseen.more a)
    rw [foldl_append] at hrest
    exact hrest
  | none :: run, done, look, hhistory, hseen => by
    have hrest : done ++ run.reduceOption = history := by
      rw [← hhistory, reduceOption_cons_of_none]
    cases look with
    | idle =>
      refine ⟨nofun, ?_⟩
      simp only [lookStep]
      split
      · next hfirst =>
        exact actsSafely_of_history hstep hact hsafe run done .once hrest ⟨done, prefix_rfl, hfirst⟩
      · exact actsSafely_of_history hstep hact hsafe run done .idle hrest trivial
    | once =>
      obtain ⟨p₁, hp₁, hfirst⟩ := hseen
      refine ⟨nofun, ?_⟩
      simp only [lookStep]
      split
      · next hsecond =>
        exact actsSafely_of_history hstep hact hsafe run done .twice hrest
          ⟨p₁, done, hp₁, prefix_rfl, hfirst, hsecond⟩
      · exact actsSafely_of_history hstep hact hsafe run done .idle hrest trivial
    | twice =>
      obtain ⟨p₁, p₂, h₁₂, hp₂, hfirst, hsecond⟩ := hseen
      refine ⟨fun _ _ hpresent => hsafe p₁ p₂ done h₁₂ hp₂ ⟨_, hrest⟩ hfirst hsecond hpresent, ?_⟩
      exact actsSafely_of_gone hstep hact run _ _ (hact _)

/-- **When looking twice is enough**, where what is gone stays gone and an act removes: no act is wrong in any
interleaving iff no three moments in order have the first look hold, the second look hold, and an act wrong. -/
theorem acts_safely_iff (hstep : ∀ s a, present (step s a) → present s) (hact : ∀ s, ¬present (act s)) (s : σ)
    (history : List α) : (∀ run : List (Option α), run.reduceOption = history →
        Along (lookStep step first second act) (ActsSafely present bad) (s, .idle) run) ↔
      ∀ p₁ p₂ p₃, p₁ <+: p₂ → p₂ <+: p₃ → p₃ <+: history → first (p₁.foldl step s) →
        second (p₂.foldl step s) → present (p₃.foldl step s) → ¬bad (p₃.foldl step s) := by
  constructor
  · rintro hall p₁ p₂ p₃ ⟨d₁, rfl⟩ ⟨d₂, rfl⟩ ⟨d₃, rfl⟩ hfirst hsecond hpresent
    have hrun := hall (p₁.map some ++ none :: (d₁.map some ++ none :: (d₂.map some ++ none :: d₃.map some)))
      (by simp [reduceOption_append, reduceOption_cons_of_none, reduceOption_map_some])
    rw [Along.append_iff, foldl_lookStep_map] at hrun
    have h₁ := hrun.2.2
    simp only [lookStep, hfirst, if_true] at h₁
    rw [Along.append_iff, foldl_lookStep_map, ← foldl_append] at h₁
    have h₂ := h₁.2.2
    simp only [lookStep, hsecond, if_true] at h₂
    rw [Along.append_iff, foldl_lookStep_map, ← foldl_append] at h₂
    exact h₂.2.1 rfl rfl hpresent
  · exact fun hsafe run hrun => actsSafely_of_history hstep hact hsafe run [] .idle hrun trivial

end Acting

end SignalConnector
