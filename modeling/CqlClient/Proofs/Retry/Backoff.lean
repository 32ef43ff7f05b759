import CqlClient.Retry
import Mathlib.Algebra.Order.Ring.Nat

/-!
The delays between attempts, in exact arithmetic. The factor of a delay is cut at what a 32-bit word
holds, and a product that no span holds is replaced by the greatest delay; neither shows in the
result beyond the cut itself, so the delays grow with the number of attempts.
-/

namespace CqlClient.RetryPolicy

variable {policy : RetryPolicy} {err : ClientError} {attempts : UInt32}

/-- The error may pass, and the attempts are neither none nor all that the policy allows. -/
def GoesOn (policy : RetryPolicy) (err : ClientError) (attempts : UInt32) : Prop :=
  err.errorClass = .transient ∧ 1 ≤ attempts.toNat ∧ attempts.toNat < policy.maxAttempts.toNat

instance : Decidable (policy.GoesOn err attempts) :=
  inferInstanceAs (Decidable (_ ∧ _))

theorem not_goesOn_iff : ¬ policy.GoesOn err attempts ↔
    err.errorClass ≠ .transient ∨ attempts = 0 ∨ policy.maxAttempts ≤ attempts := by
  have hzero : attempts = 0 ↔ ¬ 1 ≤ attempts.toNat := by
    rw [← UInt32.toNat_inj, UInt32.toNat_zero]
    omega
  rw [GoesOn, hzero, UInt32.le_iff_toNat_le, Decidable.not_and_iff_not_or_not,
    Decidable.not_and_iff_not_or_not, Nat.not_lt]

theorem nextBackoff_of_not_goesOn (h : ¬ policy.GoesOn err attempts) :
    policy.nextBackoff err attempts = none := by
  have hstops := not_goesOn_iff.mp h
  rw [nextBackoff, if_pos (by simpa [ErrorClass.isRetryable, or_assoc] using hstops)]

theorem nextBackoff_of_goesOn (h : policy.GoesOn err attempts) :
    policy.nextBackoff err attempts =
      if Span.longest < policy.baseBackoff.nanos * factor attempts then some policy.maxBackoff
      else some ⟨min (policy.baseBackoff.nanos * factor attempts) policy.maxBackoff.nanos⟩ := by
  have hgoes := mt not_goesOn_iff.mpr (not_not_intro h)
  rw [nextBackoff, if_neg (by simpa [ErrorClass.isRetryable, or_assoc] using hgoes)]

theorem nextBackoff_eq_none_iff : policy.nextBackoff err attempts = none ↔
    ¬ policy.GoesOn err attempts := by
  constructor
  · intro hnone hgoes
    rw [nextBackoff_of_goesOn hgoes] at hnone
    split at hnone <;> cases hnone
  · exact nextBackoff_of_not_goesOn

/-- The word of 32 bits is used up by the attempt after the thirty-second. -/
theorem factor_eq_min (attempts : UInt32) :
    factor attempts = min (2 ^ (attempts.toNat - 1)) (2 ^ 32 - 1) := by
  rw [factor, Nat.shiftLeft_eq, Nat.one_mul, show UInt32.size = 2 ^ 32 from rfl]
  split
  · next hshort =>
    have hle : 2 ^ (attempts.toNat - 1) ≤ 2 ^ 31 :=
      Nat.pow_le_pow_right (by decide) (Nat.le_of_lt_succ hshort)
    rw [Nat.min_eq_left (Nat.le_trans hle (by decide))]
  · next hlong =>
    have hle : 2 ^ 32 ≤ 2 ^ (attempts.toNat - 1) :=
      Nat.pow_le_pow_right (by decide) (Nat.le_of_not_lt hlong)
    rw [Nat.min_eq_right (Nat.le_trans (Nat.sub_le _ _) hle)]

/-- The delay that the number of attempts asks for, no greater than the policy allows. -/
def delay (policy : RetryPolicy) (attempts : Nat) : Span :=
  ⟨min (policy.baseBackoff.nanos * min (2 ^ (attempts - 1)) (2 ^ 32 - 1)) policy.maxBackoff.nanos⟩

theorem delay_le (policy : RetryPolicy) (attempts : Nat) :
    (policy.delay attempts).nanos ≤ policy.maxBackoff.nanos := Nat.min_le_right _ _

theorem delay_mono (policy : RetryPolicy) {fewer more : Nat} (h : fewer ≤ more) :
    (policy.delay fewer).nanos ≤ (policy.delay more).nanos := by
  have hpower : 2 ^ (fewer - 1) ≤ 2 ^ (more - 1) :=
    Nat.pow_le_pow_right (by decide) (Nat.sub_le_sub_right h 1)
  apply min_le_min_right
  apply Nat.mul_le_mul_left
  exact min_le_min_right _ hpower

/-- A product that no span holds is longer than the greatest delay, which is a span. -/
theorem nextBackoff_eq_delay (hspan : policy.maxBackoff.nanos ≤ Span.longest)
    (h : policy.GoesOn err attempts) :
    policy.nextBackoff err attempts = some (policy.delay attempts.toNat) := by
  rw [nextBackoff_of_goesOn h, factor_eq_min, delay]
  split
  · next hbeyond =>
    rw [Nat.min_eq_right (Nat.le_trans hspan (Nat.le_of_lt hbeyond))]
  · rfl

/-- There is another attempt exactly after an error that may pass, when one attempt at least has been
made and fewer than the policy allows. The delay before it is then the base delay doubled for each
attempt but the first, with a factor of 32 bits and cut at the greatest delay, in exact arithmetic.
So no delay is beyond the greatest one, and none is shorter than one after fewer attempts. -/
theorem nextBackoff_exact (hspan : policy.maxBackoff.nanos ≤ Span.longest) (err : ClientError) :
    (∀ n : UInt32, policy.nextBackoff err n =
      if err.errorClass = .transient ∧ 1 ≤ n.toNat ∧ n.toNat < policy.maxAttempts.toNat then
        some ⟨min (policy.baseBackoff.nanos * min (2 ^ (n.toNat - 1)) (2 ^ 32 - 1))
          policy.maxBackoff.nanos⟩
      else none) ∧
    (∀ n delay, policy.nextBackoff err n = some delay → delay.nanos ≤ policy.maxBackoff.nanos) ∧
    (∀ m n shorter longer, m ≤ n → policy.nextBackoff err m = some shorter →
      policy.nextBackoff err n = some longer → shorter.nanos ≤ longer.nanos) := by
  have hexact (n : UInt32) : policy.nextBackoff err n =
      if policy.GoesOn err n then some (policy.delay n.toNat) else none := by
    split
    · next hgoes => exact nextBackoff_eq_delay hspan hgoes
    · next hstops => exact nextBackoff_of_not_goesOn hstops
  have hdelay {n : UInt32} {found : Span} (h : policy.nextBackoff err n = some found) :
      found = policy.delay n.toNat := by
    rw [hexact] at h
    split at h
    · exact (Option.some.inj h).symm
    · cases h
  refine ⟨hexact, ?_, ?_⟩
  · intro n found h
    rw [hdelay h]
    exact policy.delay_le n.toNat
  · intro m n shorter longer hle hshorter hlonger
    rw [hdelay hshorter, hdelay hlonger]
    exact policy.delay_mono (UInt32.le_iff_toNat_le.mp hle)

/-- The fortieth attempt of a policy whose base delay is the longest span and whose greatest delay is
two seconds: the product is far beyond every span. -/
theorem nextBackoff_exact_of_longest_base :
    let policy : RetryPolicy := ⟨50, ⟨Span.longest⟩, .ofMillis 2000⟩
    policy.maxBackoff.nanos ≤ Span.longest ∧
    (∀ n : UInt32, policy.nextBackoff .streamsExhausted n =
      if ClientError.streamsExhausted.errorClass = .transient ∧ 1 ≤ n.toNat ∧
          n.toNat < policy.maxAttempts.toNat then
        some ⟨min (policy.baseBackoff.nanos * min (2 ^ (n.toNat - 1)) (2 ^ 32 - 1))
          policy.maxBackoff.nanos⟩
      else none) ∧
    policy.nextBackoff .streamsExhausted 40 = some (.ofMillis 2000) := by
  intro policy
  have hspan : policy.maxBackoff.nanos ≤ Span.longest := by decide
  exact ⟨hspan, (nextBackoff_exact hspan .streamsExhausted).1, by decide⟩

end CqlClient.RetryPolicy
