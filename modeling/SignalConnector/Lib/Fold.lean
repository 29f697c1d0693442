/-
# Folds that may fail

A loop whose body may answer an error is a `foldlM` in `Except`. When every
successful round acts on a projection of the state as a pure function does, so
does the whole loop (`foldlM_project`); when every successful round preserves a
property, so does the loop (`foldlM_preserves`); and an invariant may speak of
the rounds behind it (`foldlM_invariant`).
-/
import Mathlib

namespace SignalConnector

open List

variable {ε σ τ α β γ : Type}

/-- A successful sequence of two computations ran both. -/
theorem exists_of_bind_ok {x : Except ε α} {f : α → Except ε β} {b : β} (h : x >>= f = .ok b) :
    ∃ a, x = .ok a ∧ f a = .ok b := by
  cases x with
  | error => cases h
  | ok a => exact ⟨a, rfl, h⟩

theorem exists_of_map_ok {x : Except ε α} {f : α → β} {b : β} (h : x.map f = .ok b) : ∃ a, x = .ok a ∧ f a = b := by
  cases x with
  | error => cases h
  | ok a => exact ⟨a, rfl, Except.ok.inj h⟩

/-- What a successful pass over a list answered, and for what. -/
theorem mem_of_mapM_ok {f : α → Except ε β} : ∀ {l : List α} {l' : List β}, l.mapM f = .ok l' →
      (∀ b ∈ l', ∃ a ∈ l, f a = .ok b) ∧ ∀ a ∈ l, ∃ b ∈ l', f a = .ok b
  | [], l', h => by
    cases h
    exact ⟨nofun, nofun⟩
  | a :: l, l', h => by
    rw [mapM_cons] at h
    obtain ⟨b, hb, h⟩ := exists_of_bind_ok h
    obtain ⟨rest, hrest, h⟩ := exists_of_bind_ok h
    cases h
    obtain ⟨hback, hforth⟩ := mem_of_mapM_ok hrest
    refine ⟨fun b' hb' => ?_, fun a' ha' => ?_⟩
    · rcases mem_cons.mp hb' with rfl | hb'
      · exact ⟨a, mem_cons_self, hb⟩
      · obtain ⟨a', ha', heq⟩ := hback b' hb'
        exact ⟨a', mem_cons_of_mem _ ha', heq⟩
    · rcases mem_cons.mp ha' with rfl | ha'
      · exact ⟨b, mem_cons_self, hb⟩
      · obtain ⟨b', hb', heq⟩ := hforth a' ha'
        exact ⟨b', mem_cons_of_mem _ hb', heq⟩

theorem foldlM_project {step : σ → α → Except ε σ} (π : σ → τ) (g : τ → α → τ)
    (hstep : ∀ s a s', step s a = .ok s' → π s' = g (π s) a) :
    ∀ (l : List α) (s s' : σ), l.foldlM step s = .ok s' → π s' = l.foldl g (π s)
  | [], s, s', h => by
    cases h
    rfl
  | a :: l, s, s', h => by
    rw [foldlM_cons] at h
    obtain ⟨s₁, h₁, h₂⟩ := exists_of_bind_ok h
    rw [foldlM_project π g hstep l s₁ s' h₂, hstep s a s₁ h₁, foldl_cons]

theorem foldlM_preserves {step : σ → α → Except ε σ} (P : σ → Prop)
    (hstep : ∀ s a s', P s → step s a = .ok s' → P s') :
    ∀ (l : List α) (s s' : σ), P s → l.foldlM step s = .ok s' → P s'
  | [], s, s', hs, h => by
    cases h
    exact hs
  | a :: l, s, s', hs, h => by
    rw [foldlM_cons] at h
    obtain ⟨s₁, h₁, h₂⟩ := exists_of_bind_ok h
    exact foldlM_preserves P hstep l s₁ s' (hstep s a s₁ hs h₁) h₂

/-- An invariant that knows which rounds are behind it. -/
theorem foldlM_invariant {step : σ → α → Except ε σ} (Inv : List α → σ → Prop) {l : List α} {s s' : σ}
    (hstart : Inv [] s)
    (hstep : ∀ before a after s s', l = before ++ a :: after → Inv before s → step s a = .ok s' →
      Inv (before ++ [a]) s') (h : l.foldlM step s = .ok s') : Inv l s' := by
  have hgo : ∀ (after before : List α) (s : σ), l = before ++ after → Inv before s →
      after.foldlM step s = .ok s' → Inv l s' := by
    intro after
    induction after with
    | nil =>
      intro before s hl hs h
      cases h
      rwa [hl, append_nil]
    | cons a after ih =>
      intro before s hl hs h
      rw [foldlM_cons] at h
      obtain ⟨s₁, h₁, h₂⟩ := exists_of_bind_ok h
      exact ih (before ++ [a]) s₁ (by simpa using hl) (hstep before a after s s₁ hl hs h₁) h₂
  exact hgo l [] s rfl hstart h

/-- Mapping round by round is mapping once by the folded function. -/
theorem foldl_map_rows (f : α → β → β) : ∀ (l : List α) (rows : List β),
      l.foldl (fun rows a => rows.map (f a)) rows = rows.map fun x => l.foldl (fun x a => f a x) x
  | [], rows => by simp
  | a :: l, rows => by
    rw [foldl_cons, foldl_map_rows f l, map_map]
    rfl

end SignalConnector
