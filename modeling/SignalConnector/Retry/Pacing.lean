/-
# The pace of automatic retries

The beats of the retry curve grow by 19/10, rounded down, up to a cap of 15
minutes that the fifteenth beat is the first to meet. From there on the window
of 24 hours is spent before 128 claims are made, so the ceiling on attempts is
never what retires a row that keeps to the curve.
-/
import SignalConnector.Store.RetryQueue

namespace SignalConnector

/-! ### The curve -/

/-- The beat of attempt `n + 1`, without the cap. -/
def retryCurve : ℕ → ℕ
  | 0 => retryBackoffBaseMs
  | n + 1 => retryCurve n * 19 / 10

/-- The delays the loop multiplies. -/
def retryBackoffFactors : ℕ → ℕ → List ℕ
  | 0, _ => []
  | rounds + 1, delay =>
    let next := min (delay * 19) (2 ^ 64 - 1) / 10
    delay :: if retryBackoffMaxMs ≤ next then [] else retryBackoffFactors rounds next

theorem monotone_retryCurve : Monotone retryCurve := monotone_nat_of_le_succ fun n => by
  rw [retryCurve]
  omega

theorem max_le_retryCurve_iff {n : ℕ} : retryBackoffMaxMs ≤ retryCurve n ↔ 14 ≤ n := by
  have hbelow : retryCurve 13 < retryBackoffMaxMs := by decide
  have hmet : retryBackoffMaxMs ≤ retryCurve 14 := by decide
  refine ⟨fun h => ?_, fun h => hmet.trans (monotone_retryCurve h)⟩
  by_contra hn
  have hle : retryCurve n ≤ retryCurve 13 := monotone_retryCurve (by omega)
  omega

theorem factors_lt : ∀ {rounds delay : ℕ}, delay < retryBackoffMaxMs →
    ∀ d ∈ retryBackoffFactors rounds delay, d < retryBackoffMaxMs
  | 0, _, _, _, hd => absurd hd List.not_mem_nil
  | rounds + 1, delay, h, d, hd => by
    rcases List.mem_cons.mp hd with rfl | hd
    · exact h
    · split at hd
      · cases hd
      · next hnext => exact factors_lt (Nat.not_le.mp hnext) d hd

/-- Below the cap the loop goes on along the curve. -/
theorem retryBackoffLoop_eq : ∀ {rounds n : ℕ}, retryCurve n < retryBackoffMaxMs →
    retryBackoffLoop rounds (retryCurve n) = min (retryCurve (n + rounds)) retryBackoffMaxMs
  | 0, _, _ => rfl
  | rounds + 1, n, h => by
    have hexact : min (retryCurve n * 19) (2 ^ 64 - 1) / 10 = retryCurve (n + 1) := by
      unfold retryBackoffMaxMs at h
      rw [retryCurve]
      omega
    rw [retryBackoffLoop, hexact]
    split
    · next hmet =>
      have hlater : retryCurve (n + 1) ≤ retryCurve (n + (rounds + 1)) := monotone_retryCurve (by omega)
      exact (min_eq_right (hmet.trans hlater)).symm
    · next hbelow =>
      rw [retryBackoffLoop_eq (Nat.not_le.mp hbelow)]
      congr 2
      omega

theorem retryBackoffDelayMs_eq (n : ℕ) : retryBackoffDelayMs (n + 1) = min (retryCurve n) retryBackoffMaxMs := by
  have hstart : retryBackoffLoop n (retryCurve 0) = _ := retryBackoffLoop_eq (by decide)
  rwa [Nat.zero_add] at hstart

theorem retryBackoffDelayMs_eq_max_iff (n : ℕ) : retryBackoffDelayMs (n + 1) = retryBackoffMaxMs ↔ 15 ≤ n + 1 := by
  rw [retryBackoffDelayMs_eq, min_eq_right_iff, max_le_retryCurve_iff]
  omega

/-! ### The window -/

/-- The row was first scheduled at `settledAt 0`, each of its `count` automatic claims came a beat after the
settlement before, and none was refused for the window. -/
structure MessageRow.KeepsPace (m : MessageRow) (claimedAt settledAt : ℕ → ℕ) (count : ℕ) : Prop where
  anchored : m.firstSendAttemptedAt.map asU64 = some (settledAt 0)
  paced : ∀ n < count, settledAt n + retryBackoffDelayMs (n + 1) ≤ claimedAt (n + 1)
  settled : ∀ n < count, claimedAt (n + 1) ≤ settledAt (n + 1)
  judged : ∀ n < count, m.windowSpent (claimedAt (n + 1)) = false

namespace MessageRow.KeepsPace

variable {m : MessageRow} {claimedAt settledAt : ℕ → ℕ} {count : ℕ}

/-- The beats add up: each from the fifteenth on is the cap. -/
theorem le_settledAt (h : m.KeepsPace claimedAt settledAt count) : ∀ n ≤ count,
    settledAt 0 + (n - 14) * retryBackoffMaxMs ≤ settledAt n
  | 0, _ => by simp
  | n + 1, hn => by
    have hbefore := le_settledAt h n (by omega)
    have hclaimed := h.paced n (by omega)
    have hsettled := h.settled n (by omega)
    by_cases hcapped : 15 ≤ n + 1
    · rw [(retryBackoffDelayMs_eq_max_iff n).mpr hcapped] at hclaimed
      rw [show n + 1 - 14 = n - 14 + 1 by omega, Nat.succ_mul]
      omega
    · rw [show n + 1 - 14 = n - 14 by omega]
      omega

theorem count_lt (h : m.KeepsPace claimedAt settledAt count) : count < maxRetryAttempts := by
  by_contra hmany
  unfold maxRetryAttempts at hmany
  have hspent := h.judged 127 (by omega)
  have hlate := h.le_settledAt 127 (by omega)
  have hclaimed := h.paced 127 (by omega)
  rw [MessageRow.windowSpent, h.anchored, Option.getD_some, decide_eq_false_iff_not] at hspent
  unfold retryWindowMs at hspent
  unfold retryBackoffMaxMs at hlate
  omega

end MessageRow.KeepsPace

/-- **The pace of automatic retries.** Beats follow the curve, capped, without saturating; they never
shrink, and are the cap from the fifteenth on; a row that keeps to them is claimed fewer than `maxRetryAttempts`
times. -/
theorem retry_pacing : (∀ n, retryBackoffDelayMs (n + 1) = min (retryCurve n) retryBackoffMaxMs) ∧
      (∀ n, ∀ delay ∈ retryBackoffFactors n retryBackoffBaseMs, delay * 19 < 2 ^ 64) ∧
      (∀ n n', 1 ≤ n → n ≤ n' → retryBackoffDelayMs n ≤ retryBackoffDelayMs n') ∧
      (∀ n, 1 ≤ n → (retryBackoffDelayMs n = retryBackoffMaxMs ↔ 15 ≤ n)) ∧
      ∀ (m : MessageRow) (claimedAt settledAt : ℕ → ℕ) (count : ℕ),
        m.KeepsPace claimedAt settledAt count → count < maxRetryAttempts := by
  refine ⟨retryBackoffDelayMs_eq, fun n delay hdelay => ?_, fun n n' hn hle => ?_, fun n hn => ?_,
    fun m claimedAt settledAt count h => h.count_lt⟩
  · have hbelow := factors_lt (by decide) delay hdelay
    unfold retryBackoffMaxMs at hbelow
    omega
  · obtain ⟨n, rfl⟩ := Nat.exists_eq_add_of_le' hn
    obtain ⟨n', rfl⟩ := Nat.exists_eq_add_of_le' (hn.trans hle)
    rw [retryBackoffDelayMs_eq, retryBackoffDelayMs_eq]
    exact min_le_min_right _ (monotone_retryCurve (by omega))
  · obtain ⟨n, rfl⟩ := Nat.exists_eq_add_of_le' hn
    exact retryBackoffDelayMs_eq_max_iff n

/-- A row that is claimed, and fails at once, at every cap since its first attempt keeps the pace. -/
theorem three_claims_keep_pace :
    let m := { MessageRow.ofText "m" "a" "c" .outgoing "a" 1000 "hi" .failed with firstSendAttemptedAt := some 1000 }
    m.KeepsPace (1000 + · * retryBackoffMaxMs) (1000 + · * retryBackoffMaxMs) 3 ∧ 3 < maxRetryAttempts := by
  intro m
  have hpace : m.KeepsPace (1000 + · * retryBackoffMaxMs) (1000 + · * retryBackoffMaxMs) 3 :=
    ⟨rfl, by decide, by decide, by decide⟩
  exact ⟨hpace, retry_pacing.2.2.2.2 _ _ _ _ hpace⟩

end SignalConnector
