/-
# Programs whose calls may fail

A program reads and writes a state and makes calls on it that may fail; a
failed call leaves the state as it was and ends the program, with all that was
written before it in place. `runFault` makes the call with a given number fail.
To know what a failure leaves behind it is enough to know the states in which
the calls are made (`AtCalls`), and for an invariant that every call keeps
(`Preserves`) nothing but the calls themselves.
-/
import Mathlib

namespace SignalConnector

inductive Prog (σ ε α : Type) : Type 1
  | done (a : α)
  /-- reads and writes of the state that cannot fail -/
  | act {β : Type} (f : σ → β × σ) (next : β → Prog σ ε α)
  | call {β : Type} (f : σ → Except ε (β × σ)) (next : β → Prog σ ε α)

namespace Prog

variable {σ ε α β : Type}

def bind : Prog σ ε α → (α → Prog σ ε β) → Prog σ ε β
  | done a, k => k a
  | act f next, k => act f fun b => (next b).bind k
  | call f next, k => call f fun b => (next b).bind k

instance : Monad (Prog σ ε) where
  pure := done
  bind := bind

theorem bind_eq (p : Prog σ ε α) (k : α → Prog σ ε β) : p >>= k = p.bind k := rfl

theorem bind_done : ∀ p : Prog σ ε α, p.bind done = p
  | done _ => rfl
  | act f next => congrArg (act f) (funext fun b => bind_done (next b))
  | call f next => congrArg (call f) (funext fun b => bind_done (next b))

theorem bind_bind {γ : Type} (k : α → Prog σ ε β) (k' : β → Prog σ ε γ) : ∀ p : Prog σ ε α,
    (p.bind k).bind k' = p.bind fun a => (k a).bind k'
  | done _ => rfl
  | act f next => congrArg (act f) (funext fun b => bind_bind k k' (next b))
  | call f next => congrArg (call f) (funext fun b => bind_bind k k' (next b))

instance : LawfulMonad (Prog σ ε) :=
  LawfulMonad.mk' _ (fun p => bind_done p) (fun _ _ => rfl) fun p k k' => bind_bind k k' p

/-- The answer and the state left behind. -/
def run : Prog σ ε α → σ → Except ε α × σ
  | done a, s => (.ok a, s)
  | act f next, s => (next (f s).1).run (f s).2
  | call f next, s =>
    match f s with
    | .ok (b, s) => (next b).run s
    | .error e => (.error e, s)

/-- The run in which the call with this number fails. -/
def runFault (fault : ε) : Prog σ ε α → ℕ → σ → Except ε α × σ
  | done a, _, s => (.ok a, s)
  | act f next, n, s => (next (f s).1).runFault fault n (f s).2
  | call _ _, 0, s => (.error fault, s)
  | call f next, n + 1, s =>
    match f s with
    | .ok (b, s) => (next b).runFault fault n s
    | .error e => (.error e, s)

def calls : Prog σ ε α → σ → ℕ
  | done _, _ => 0
  | act f next, s => (next (f s).1).calls (f s).2
  | call f next, s =>
    match f s with
    | .ok (b, s) => (next b).calls s + 1
    | .error _ => 1

/-! ### Sequences -/

theorem run_bind (k : α → Prog σ ε β) : ∀ (p : Prog σ ε α) (s : σ), (p.bind k).run s =
      match p.run s with
      | (.ok a, s) => (k a).run s
      | (.error e, s) => (.error e, s)
  | done _, _ => rfl
  | act f next, s => run_bind k (next (f s).1) (f s).2
  | call f next, s => by
    simp only [bind, run]
    cases f s with
    | error => rfl
    | ok r => exact run_bind k (next r.1) r.2

/-- A sequence that answers has had an answer from its first part. -/
theorem exists_of_run_bind {p : Prog σ ε α} {k : α → Prog σ ε β} {b : β} {s s' : σ}
    (h : (p >>= k).run s = (.ok b, s')) : ∃ a u, p.run s = (.ok a, u) ∧ (k a).run u = (.ok b, s') := by
  rw [bind_eq, run_bind] at h
  rcases hp : p.run s with ⟨_ | a, u⟩
  · rw [hp] at h
    cases h
  · rw [hp] at h
    exact ⟨a, u, rfl, h⟩

theorem calls_bind (k : α → Prog σ ε β) : ∀ (p : Prog σ ε α) (s : σ), (p.bind k).calls s =
      p.calls s + match p.run s with
        | (.ok a, s) => (k a).calls s
        | (.error _, _) => 0
  | done _, _ => by simp [bind, calls, run]
  | act f next, s => calls_bind k (next (f s).1) (f s).2
  | call f next, s => by
    simp only [bind, calls, run]
    cases f s with
    | error => rfl
    | ok r =>
      simp only [calls_bind k (next r.1) r.2]
      omega

/-! ### Failures -/

variable (fault : ε)

/-- A failure of the first part is one of the whole. -/
theorem runFault_bind_of_error {k : α → Prog σ ε β} {e : ε} {s' : σ} : ∀ (p : Prog σ ε α) (n : ℕ) (s : σ),
    p.runFault fault n s = (.error e, s') → (p.bind k).runFault fault n s = (.error e, s')
  | done _, _, _, h => nomatch h
  | act f next, n, s, h => runFault_bind_of_error (next (f s).1) n (f s).2 h
  | call _ _, 0, _, h => by
    obtain ⟨he, rfl⟩ := Prod.mk.inj h
    cases he
    rfl
  | call f next, n + 1, s, h => by
    simp only [bind, runFault] at h ⊢
    cases hf : f s with
    | error =>
      rw [hf] at h
      obtain ⟨he, rfl⟩ := Prod.mk.inj h
      cases he
      rfl
    | ok r =>
      rw [hf] at h
      exact runFault_bind_of_error (next r.1) n r.2 h

/-- A failure past the first part is one of the second. -/
theorem runFault_bind_of_calls_le {k : α → Prog σ ε β} {a : α} {s' : σ} : ∀ (p : Prog σ ε α) (n : ℕ) (s : σ),
    p.calls s ≤ n → p.run s = (.ok a, s') → (p.bind k).runFault fault n s = (k a).runFault fault (n - p.calls s) s'
  | done _, _, _, _, h => by
    obtain ⟨ha, rfl⟩ := Prod.mk.inj h
    cases ha
    rfl
  | act f next, n, s, hn, h => runFault_bind_of_calls_le (next (f s).1) n (f s).2 hn h
  | call f next, n, s, hn, h => by
    simp only [calls, run] at hn h ⊢
    cases hf : f s with
    | error => simp [hf] at h
    | ok r =>
      simp only [hf] at hn h ⊢
      obtain ⟨m, rfl⟩ : ∃ m, n = m + 1 := ⟨n - 1, by omega⟩
      simp only [bind, runFault, hf]
      rw [runFault_bind_of_calls_le (next r.1) m r.2 (by omega) h]
      congr 1
      omega

/-- The property holds of every state in which the run makes a call. -/
def AtCalls (P : σ → Prop) : Prog σ ε α → σ → Prop
  | done _, _ => True
  | act f next, s => AtCalls P (next (f s).1) (f s).2
  | call f next, s => P s ∧ ∀ b s', f s = .ok (b, s') → AtCalls P (next b) s'

theorem AtCalls.mono {P Q : σ → Prop} (h : ∀ s, P s → Q s) : ∀ {p : Prog σ ε α} {s : σ}, p.AtCalls P s →
    p.AtCalls Q s
  | .done _, _, _ => trivial
  | .act f _, s, hp => mono (p := _) (s := (f s).2) h hp
  | .call _ _, s, hp => ⟨h s hp.1, fun b s' hf => mono h (hp.2 b s' hf)⟩

/-- A failed call leaves one of the states in which the run makes a call. -/
theorem runFault_of_lt_calls {P : σ → Prop} : ∀ (p : Prog σ ε α) (n : ℕ) (s : σ), n < p.calls s → p.AtCalls P s →
    ∃ e s', p.runFault fault n s = (.error e, s') ∧ P s'
  | done _, _, _, h, _ => absurd h (Nat.not_lt_zero _)
  | act f next, n, s, h, hp => runFault_of_lt_calls (next (f s).1) n (f s).2 h hp
  | call _ _, 0, s, _, hp => ⟨fault, s, rfl, hp.1⟩
  | call f next, n + 1, s, h, hp => by
    simp only [calls, runFault] at h ⊢
    cases hf : f s with
    | error e => exact ⟨e, s, rfl, hp.1⟩
    | ok r =>
      simp only [hf] at h ⊢
      exact runFault_of_lt_calls (next r.1) n r.2 (by omega) (hp.2 r.1 r.2 hf)

/-- A failing run leaves one of these states as well. -/
theorem AtCalls.of_runFault {P : σ → Prop} {e : ε} {s' : σ} : ∀ {p : Prog σ ε α} {n : ℕ} {s : σ},
    p.AtCalls P s → p.runFault fault n s = (.error e, s') → P s'
  | .done _, _, _, _, h => nomatch h
  | .act f _, _, s, hp, h => of_runFault (s := (f s).2) hp h
  | .call _ _, 0, _, hp, h => (Prod.mk.inj h).2 ▸ hp.1
  | .call f _, n + 1, s, hp, h => by
    simp only [runFault] at h
    rcases hf : f s with e | r
    · rw [hf] at h
      exact (Prod.mk.inj h).2 ▸ hp.1
    · rw [hf] at h
      exact of_runFault (hp.2 r.1 r.2 hf) h

/-- A run that answers has not come to the call that fails. -/
theorem run_of_runFault {a : α} {s' : σ} : ∀ {p : Prog σ ε α} {n : ℕ} {s : σ},
    p.runFault fault n s = (.ok a, s') → p.calls s ≤ n ∧ p.run s = (.ok a, s')
  | .done _, _, _, h => ⟨Nat.zero_le _, h⟩
  | .act f _, _, s, h => run_of_runFault (s := (f s).2) h
  | .call _ _, 0, _, h => nomatch h
  | .call f _, n + 1, s, h => by
    simp only [runFault, calls, run] at h ⊢
    rcases hf : f s with e | r
    · rw [hf] at h
      cases h
    · rw [hf] at h
      obtain ⟨hcalls, hrun⟩ := run_of_runFault h
      exact ⟨Nat.succ_le_succ hcalls, hrun⟩

theorem atCalls_bind {P : σ → Prop} {k : α → Prog σ ε β} : ∀ (p : Prog σ ε α) (s : σ), p.AtCalls P s →
    (∀ a s', p.run s = (.ok a, s') → (k a).AtCalls P s') → (p.bind k).AtCalls P s
  | done a, s, _, hk => hk a s rfl
  | act f next, s, hp, hk => atCalls_bind (next (f s).1) (f s).2 hp hk
  | call f next, s, hp, hk => by
    refine ⟨hp.1, fun b s' hf => atCalls_bind (next b) s' (hp.2 b s' hf) fun a s'' hrun => hk a s'' ?_⟩
    simp only [run, hf]
    exact hrun

/-! ### Invariants -/

/-- Every action and every call of the program keeps the property. -/
def Preserves (I : σ → Prop) : Prog σ ε α → Prop
  | done _ => True
  | act f next => (∀ s, I s → I (f s).2) ∧ ∀ b, (next b).Preserves I
  | call f next => (∀ s b s', I s → f s = .ok (b, s') → I s') ∧ ∀ b, (next b).Preserves I

namespace Preserves

variable {I : σ → Prop}

theorem bind {k : α → Prog σ ε β} : ∀ {p : Prog σ ε α}, p.Preserves I → (∀ a, (k a).Preserves I) →
    (p.bind k).Preserves I
  | .done a, _, hk => hk a
  | .act _ _, hp, hk => ⟨hp.1, fun b => bind (hp.2 b) hk⟩
  | .call _ _, hp, hk => ⟨hp.1, fun b => bind (hp.2 b) hk⟩

theorem atCalls : ∀ {p : Prog σ ε α}, p.Preserves I → ∀ {s : σ}, I s → p.AtCalls I s
  | .done _, _, _, _ => trivial
  | .act _ _, hp, s, hs => atCalls (hp.2 _) (hp.1 s hs)
  | .call _ _, hp, s, hs => ⟨hs, fun b s' hf => atCalls (hp.2 b) (hp.1 s b s' hs hf)⟩

theorem run : ∀ {p : Prog σ ε α}, p.Preserves I → ∀ {s : σ}, I s → I (p.run s).2
  | .done _, _, _, hs => hs
  | .act _ _, hp, s, hs => run (hp.2 _) (hp.1 s hs)
  | .call f _, hp, s, hs => by
    simp only [Prog.run]
    cases hf : f s with
    | error => exact hs
    | ok r => exact run (hp.2 r.1) (hp.1 s r.1 r.2 hs hf)

end Preserves

/-! ### Answers -/

/-- Every answer of the program has the property. -/
def Returns (Q : α → Prop) : Prog σ ε α → Prop
  | done a => Q a
  | act _ next => ∀ b, (next b).Returns Q
  | call _ next => ∀ b, (next b).Returns Q

theorem returns_bind {Q : β → Prop} {k : α → Prog σ ε β} (hk : ∀ a, (k a).Returns Q) :
    ∀ p : Prog σ ε α, (p.bind k).Returns Q
  | done a => hk a
  | act _ next => fun b => returns_bind hk (next b)
  | call _ next => fun b => returns_bind hk (next b)

theorem Returns.of_run {Q : α → Prop} {a : α} {s' : σ} : ∀ {p : Prog σ ε α} {s : σ}, p.Returns Q →
    p.run s = (.ok a, s') → Q a
  | .done _, _, hp, h => by
    cases h
    exact hp
  | .act f _, s, hp, h => of_run (hp (f s).1) h
  | .call f _, s, hp, h => by
    simp only [run] at h
    cases hf : f s with
    | error => simp [hf] at h
    | ok r =>
      rw [hf] at h
      exact of_run (hp r.1) h

end Prog

end SignalConnector
