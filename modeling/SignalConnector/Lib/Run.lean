/-
# Runs of a step function

A run of a system is a list of inputs, and the state it ends in is the fold of
the step function over them. What every step preserves every run preserves
(`foldl_invariant`); and a property that a run ends with but did not start with
was switched on by one of its steps and never off again (`exists_last_switch`).
`Along` says that every step of a run is taken in a state that allows it.
-/
import Mathlib

namespace SignalConnector

variable {σ α : Type} {step : σ → α → σ}

theorem foldl_invariant (P : σ → Prop) (hstep : ∀ s a, P s → P (step s a)) :
    ∀ (l : List α) (s : σ), P s → P (l.foldl step s)
  | [], _, hs => hs
  | a :: l, s, hs => foldl_invariant P hstep l (step s a) (hstep s a hs)

/-- The step at which `P` was switched on for good. -/
theorem exists_last_switch (P : σ → Prop) {s : σ} (h₀ : ¬P s) (l : List α) (h₁ : P (l.foldl step s)) :
    ∃ before a after, l = before ++ a :: after ∧ ¬P (before.foldl step s) ∧
      ∀ mid, mid <+: after → P ((before ++ a :: mid).foldl step s) := by
  induction l using List.reverseRecOn with
  | nil => exact absurd h₁ h₀
  | append_singleton l a ih =>
    by_cases hl : P (l.foldl step s)
    · obtain ⟨before, b, after, rfl, hoff, hon⟩ := ih hl
      refine ⟨before, b, after ++ [a], by simp, hoff, fun mid hmid => ?_⟩
      rcases List.prefix_concat_iff.mp hmid with rfl | hmid
      · simpa using h₁
      · exact hon mid hmid
    · refine ⟨l, a, [], by simp, hl, fun mid hmid => ?_⟩
      rw [List.prefix_nil.mp hmid]
      exact h₁

/-! ### Runs whose steps are all allowed -/

/-- Every step of the run from `s` is taken in a state that allows it. -/
def Along (step : σ → α → σ) (allowed : σ → α → Prop) : σ → List α → Prop
  | _, [] => True
  | s, a :: l => allowed s a ∧ Along step allowed (step s a) l

instance Along.decidable (step : σ → α → σ) (allowed : σ → α → Prop) [∀ s a, Decidable (allowed s a)] :
    ∀ s l, Decidable (Along step allowed s l)
  | _, [] => .isTrue trivial
  | s, a :: l =>
    have := Along.decidable step allowed (step s a) l
    inferInstanceAs (Decidable (allowed s a ∧ Along step allowed (step s a) l))

theorem Along.of_forall {allowed : σ → α → Prop} (h : ∀ s a, allowed s a) :
    ∀ (l : List α) (s : σ), Along step allowed s l
  | [], _ => trivial
  | a :: l, s => ⟨h s a, Along.of_forall h l (step s a)⟩

theorem Along.congr {allowed shown : σ → α → Prop} (h : ∀ s a, shown s a ↔ allowed s a) :
    ∀ (l : List α) (s : σ), Along step shown s l ↔ Along step allowed s l
  | [], _ => Iff.rfl
  | a :: l, s => and_congr (h s a) (Along.congr h l (step s a))

theorem Along.append_iff {allowed : σ → α → Prop} : ∀ (l₁ l₂ : List α) (s : σ), Along step allowed s (l₁ ++ l₂) ↔
      Along step allowed s l₁ ∧ Along step allowed (l₁.foldl step s) l₂
  | [], _, _ => (and_iff_right trivial).symm
  | a :: l₁, l₂, s => by
    rw [List.cons_append, Along, Along, Along.append_iff l₁ l₂, and_assoc, List.foldl_cons]

/-- A run that writes a list down: every entry is allowed by those before it. -/
theorem Along.iff_splits {allowed : List α → α → Prop} :
    ∀ (l s : List α), Along (fun before a => before ++ [a]) allowed s l ↔
      ∀ before a after, l = before ++ a :: after → allowed (s ++ before) a
  | [], s => by simp [Along]
  | a :: l, s => by
    rw [Along, Along.iff_splits l]
    constructor
    · rintro ⟨ha, hl⟩ before b after hsplit
      rcases before with _ | ⟨c, before⟩
      · obtain ⟨rfl, rfl⟩ := List.cons.inj hsplit
        rwa [List.append_nil]
      · obtain ⟨rfl, rfl⟩ := List.cons.inj hsplit
        simpa using hl before b after rfl
    · intro h
      refine ⟨by simpa using h [] a l rfl, fun before b after hsplit => ?_⟩
      simpa using h (a :: before) b after (by rw [hsplit]; rfl)

theorem Along.and {p q : σ → α → Prop} :
    ∀ (l : List α) (s : σ), Along step p s l → Along step q s l → Along step (fun s a => p s a ∧ q s a) s l
  | [], _, _, _ => trivial
  | a :: l, s, hp, hq => ⟨⟨hp.1, hq.1⟩, Along.and l (step s a) hp.2 hq.2⟩

theorem Along.mono {allowed shown : σ → α → Prop} (h : ∀ s a, allowed s a → shown s a) :
    ∀ (l : List α) (s : σ), Along step allowed s l → Along step shown s l
  | [], _, _ => trivial
  | a :: l, s, hl => ⟨h s a hl.1, Along.mono h l (step s a) hl.2⟩

/-- Under an invariant that the allowed steps keep, what every allowed step shows holds along the run. -/
theorem Along.imp {allowed shown : σ → α → Prop} (P : σ → Prop)
    (hstep : ∀ s a, allowed s a → P s → P (step s a)) (himp : ∀ s a, allowed s a → P s → shown s a) :
    ∀ (l : List α) (s : σ), Along step allowed s l → P s → Along step shown s l
  | [], _, _, _ => trivial
  | a :: l, s, h, hs => ⟨himp s a h.1 hs, Along.imp P hstep himp l (step s a) h.2 (hstep s a h.1 hs)⟩

/-- Where a step shows what it should iff allowed, and then keeps the invariant, a run shows it throughout
iff every step is allowed. -/
theorem Along.iff_of_step {kept allowed shown : σ → α → Prop} (Inv : σ → Prop)
    (hstep : ∀ s a, Inv s → kept s a → (shown s a ↔ allowed s a))
    (hkeep : ∀ s a, Inv s → kept s a → shown s a → Inv (step s a)) :
    ∀ (l : List α) (s : σ), Inv s → Along step kept s l → (Along step shown s l ↔ Along step allowed s l)
  | [], _, _, _ => Iff.rfl
  | a :: l, s, hs, hl => by
    refine and_congr_left' (hstep s a hs hl.1) |>.trans (and_congr_right fun ha => ?_)
    have hnext := hkeep s a hs hl.1 ((hstep s a hs hl.1).mpr ha)
    exact Along.iff_of_step Inv hstep hkeep l (step s a) hnext hl.2

/-- The same, where an allowed step keeps the invariant and shows what it should, and one that is not allowed does
not show it. -/
theorem Along.iff_of_invariant {kept allowed shown : σ → α → Prop} (Inv : σ → Prop)
    (hkeep : ∀ s a, Inv s → kept s a → allowed s a → Inv (step s a) ∧ shown s a)
    (hbreak : ∀ s a, Inv s → ¬allowed s a → ¬shown s a) :
    ∀ (l : List α) (s : σ), Inv s → Along step kept s l → (Along step shown s l ↔ Along step allowed s l) := by
  have hiff : ∀ s a, Inv s → kept s a → (shown s a ↔ allowed s a) := fun s a hs ha =>
    ⟨fun hshown => by_contra fun hnot => hbreak s a hs hnot hshown, fun hallowed => (hkeep s a hs ha hallowed).2⟩
  exact Along.iff_of_step Inv hiff fun s a hs ha hshown => (hkeep s a hs ha ((hiff s a hs ha).mp hshown)).1

/-! ### Repeating a step -/

/-- Takes steps until the one that is taken where `last` says so. -/
def repeatUntil (next : σ → σ) (last : σ → Bool) : ℕ → σ → Option σ
  | 0, _ => none
  | fuel + 1, s => if last s then some (next s) else repeatUntil next last fuel (next s)

/-- A loop whose steps shrink the state and keep its goal ends there, if the last step goes there. -/
theorem repeatUntil_iff {next : σ → σ} {last : σ → Bool} (goal : σ → σ) (size : σ → ℕ)
    (hlast : ∀ s, last s = true → next s = goal s)
    (hnext : ∀ s, last s = false → goal (next s) = goal s ∧ size (next s) < size s) {s t : σ} :
    (∃ fuel, repeatUntil next last fuel s = some t) ↔ t = goal s := by
  constructor
  · rintro ⟨fuel, h⟩
    induction fuel generalizing s with
    | zero => cases h
    | succ fuel ih =>
      rw [repeatUntil] at h
      split at h
      · next hs => exact (Option.some.inj h).symm.trans (hlast s hs)
      · next hs => exact (ih h).trans (hnext s (Bool.eq_false_iff.mpr hs)).1
  · rintro rfl
    have hends : ∀ fuel s, size s < fuel → repeatUntil next last fuel s = some (goal s) := by
      intro fuel
      induction fuel with
      | zero => exact fun s h => absurd h (Nat.not_lt_zero _)
      | succ fuel ih =>
        intro s h
        rw [repeatUntil]
        split
        · next hs => rw [hlast s hs]
        · next hs =>
          obtain ⟨hgoal, hless⟩ := hnext s (Bool.eq_false_iff.mpr hs)
          rw [ih (next s) (by omega), hgoal]
    exact ⟨_, hends _ s (Nat.lt_succ_self _)⟩

end SignalConnector
