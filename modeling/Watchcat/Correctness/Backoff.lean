import Watchcat.Engine.Pass

/-!
# The backoff computation is exact

The delay before a retry is computed with a saturating power, a saturating
product and a clamped exponent. A cap that is met along the way is met at the
end, and the clamped exponents are those whose power is past the cap already, so
the computed delay is the one of unbounded arithmetic.
-/

namespace Watchcat

/-! ## Saturation along the way -/

/-- Saturating a factor does not change a saturated product with a positive number. -/
theorem min_mul_min_right {a : Nat} (ha : 0 < a) (b cap : Nat) :
    min (a * min b cap) cap = min (a * b) cap := by
  obtain hle | hlt := Nat.le_total b cap
  · rw [min_eq_left hle]
  · have hcap : cap ≤ a * cap := Nat.le_mul_of_pos_left cap ha
    have hb : cap ≤ a * b := hcap.trans (Nat.mul_le_mul_left a hlt)
    rw [min_eq_right hlt, min_eq_right hcap, min_eq_right hb]

/-- Clamping an exponent does not change a saturated power whose cap the clamp's power meets. -/
theorem min_pow_min {a limit cap : Nat} (ha : 0 < a) (hcap : cap ≤ a ^ limit) (n : Nat) :
    min (a ^ min n limit) cap = min (a ^ n) cap := by
  obtain hle | hlt := Nat.le_total n limit
  · rw [min_eq_left hle]
  · have hn : cap ≤ a ^ n := hcap.trans (Nat.pow_le_pow_right ha hlt)
    rw [min_eq_right hlt, min_eq_right hcap, min_eq_right hn]

/-- A saturated value under a smaller bound is the value under that bound. -/
theorem min_min_of_le {bound cap : Nat} (h : bound ≤ cap) (x : Nat) :
    min (min x cap) bound = min x bound := by
  rw [min_assoc, min_eq_right h]

/-- The power of the largest exponent is past the range of the result. -/
theorem u64Max_le_two_pow_u32Max : u64Max ≤ 2 ^ u32Max := by
  have hexp : 64 ≤ u32Max := by decide
  have hrange : u64Max ≤ 2 ^ 64 := by decide
  exact hrange.trans (Nat.pow_le_pow_right (by decide) hexp)

/-- The saturating power of two with a clamped exponent saturates the power itself. -/
theorem saturatingPow_two_clamped (n : Nat) :
    saturatingPow 2 (min n u32Max) = min (2 ^ n) u64Max :=
  min_pow_min (by decide) u64Max_le_two_pow_u32Max n

/-- The saturating product with the saturating power, under a bound of the counter's range. -/
theorem saturating_backoff {initial bound : Nat} (hpos : 0 < initial) (hbound : bound ≤ u64Max)
    (n : Nat) : min (saturatingMul initial (saturatingPow 2 (min n u32Max))) bound =
      min (initial * 2 ^ n) bound := by
  calc min (saturatingMul initial (saturatingPow 2 (min n u32Max))) bound
      = min (min (initial * min (2 ^ n) u64Max) u64Max) bound := by
        rw [saturatingMul, saturatingPow_two_clamped]
    _ = min (min (initial * 2 ^ n) u64Max) bound := by rw [min_mul_min_right hpos]
    _ = min (initial * 2 ^ n) bound := min_min_of_le hbound _

/-! ## The delay over unbounded integers -/

/-- The configured delay after a number of attempts, before a provider's own is considered. -/
def configuredDelay (policy : ResolvedPolicy) (attempts : Nat) : Nat :=
  match policy.backoff with
  | some .fixed => policy.initialDelaySeconds
  | some .exponential | none =>
    min (policy.initialDelaySeconds * 2 ^ attempts) policy.maxDelaySeconds

/-- Later attempts are configured to wait at least as long. -/
theorem configuredDelay_mono (policy : ResolvedPolicy) : Monotone (configuredDelay policy) := by
  intro m n hmn
  have hpow : policy.initialDelaySeconds * 2 ^ m ≤ policy.initialDelaySeconds * 2 ^ n :=
    Nat.mul_le_mul_left _ (Nat.pow_le_pow_right (by decide) hmn)
  unfold configuredDelay
  split
  · exact Nat.le_refl _
  · exact min_le_min_right _ hpow
  · exact min_le_min_right _ hpow

/-- The configured delay is between the initial and the maximal one. -/
theorem configuredDelay_bounds {policy : ResolvedPolicy}
    (h : policy.initialDelaySeconds ≤ policy.maxDelaySeconds) (attempts : Nat) :
    policy.initialDelaySeconds ≤ configuredDelay policy attempts ∧
      configuredDelay policy attempts ≤ policy.maxDelaySeconds := by
  have hpow : policy.initialDelaySeconds ≤ policy.initialDelaySeconds * 2 ^ attempts :=
    Nat.le_mul_of_pos_right _ (Nat.two_pow_pos attempts)
  unfold configuredDelay
  split
  · exact ⟨Nat.le_refl _, h⟩
  · exact ⟨le_min hpow h, min_le_right _ _⟩
  · exact ⟨le_min hpow h, min_le_right _ _⟩

/-- The delay of the code is the larger of the configured and the provider's own. -/
theorem retryDelaySeconds_eq_max {policy : ResolvedPolicy} (hpos : 0 < policy.initialDelaySeconds)
    (hrange : policy.maxDelaySeconds ≤ u64Max) (attempts : Nat) (retryAfter : Option Nat) :
    retryDelaySeconds policy attempts retryAfter =
      max (configuredDelay policy attempts) (retryAfter.getD 0) := by
  unfold retryDelaySeconds configuredDelay
  rcases policy.backoff with _ | (_ | _)
  · exact congrArg (max · _) (saturating_backoff hpos hrange attempts)
  · rfl
  · exact congrArg (max · _) (saturating_backoff hpos hrange attempts)

/-- For every policy with a positive initial delay and a maximal delay at least as long, the
delay is exactly the one of unbounded arithmetic; it grows with the attempts, and it is
between the initial delay and the longer of the maximal and the provider's own. -/
theorem retry_delay_exact (policy : ResolvedPolicy) (hpos : 0 < policy.initialDelaySeconds)
    (hle : policy.initialDelaySeconds ≤ policy.maxDelaySeconds)
    (hrange : policy.maxDelaySeconds ≤ u64Max) :
    (∀ attempts retryAfter, retryDelaySeconds policy attempts retryAfter =
      match policy.backoff with
      | some .fixed => max policy.initialDelaySeconds (retryAfter.getD 0)
      | some .exponential | none =>
        max (min (policy.initialDelaySeconds * 2 ^ attempts) policy.maxDelaySeconds)
          (retryAfter.getD 0)) ∧
    (∀ retryAfter, Monotone fun attempts => retryDelaySeconds policy attempts retryAfter) ∧
    ∀ attempts retryAfter,
      policy.initialDelaySeconds ≤ retryDelaySeconds policy attempts retryAfter ∧
        retryDelaySeconds policy attempts retryAfter ≤
          max policy.maxDelaySeconds (retryAfter.getD 0) := by
  refine ⟨fun attempts retryAfter => ?_, fun retryAfter m n hmn => ?_,
    fun attempts retryAfter => ?_⟩
  · rw [retryDelaySeconds_eq_max hpos hrange, configuredDelay]
    rcases policy.backoff with _ | (_ | _) <;> rfl
  · simp only [retryDelaySeconds_eq_max hpos hrange]
    exact max_le_max_right _ (configuredDelay_mono policy hmn)
  · obtain ⟨hlow, hhigh⟩ := configuredDelay_bounds hle attempts
    rw [retryDelaySeconds_eq_max hpos hrange]
    exact ⟨hlow.trans (le_max_left _ _), max_le_max_right _ hhigh⟩

/-- The default policy of a lost connection doubles five seconds up to two minutes. -/
theorem retry_delay_exact_connection_failed :
    let policy := ({} : Settings).policy "network.connection_failed"
    (∀ attempts retryAfter, retryDelaySeconds policy attempts retryAfter =
      max (min (5 * 2 ^ attempts) 120) (retryAfter.getD 0)) ∧
    (∀ retryAfter, Monotone fun attempts => retryDelaySeconds policy attempts retryAfter) ∧
    ∀ attempts retryAfter, 5 ≤ retryDelaySeconds policy attempts retryAfter ∧
      retryDelaySeconds policy attempts retryAfter ≤ max 120 (retryAfter.getD 0) :=
  retry_delay_exact (({} : Settings).policy "network.connection_failed") (by decide) (by decide)
    (by decide)

end Watchcat
