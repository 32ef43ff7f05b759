import CqlClient.ClientError
import CqlClient.Time.Span

/-!
Whether and when to try again after a failure. The delay doubles with every attempt and is capped.
-/

namespace CqlClient

structure RetryPolicy where
  maxAttempts : UInt32
  baseBackoff : Span
  maxBackoff : Span
  deriving DecidableEq, Repr

namespace RetryPolicy

def standard : RetryPolicy := ⟨3, .ofMillis 100, .ofMillis 2000⟩

/-- The factor of the delay after a number of attempts: a power of two as long as a 32-bit word
holds it, and the greatest such word beyond. -/
def factor (attempts : UInt32) : Nat :=
  if attempts.toNat - 1 < 32 then 1 <<< (attempts.toNat - 1) else UInt32.size - 1

/-- The delay before the next attempt, when `attempts` attempts have failed and the last one with
`err`; nothing if there is to be none. -/
def nextBackoff (policy : RetryPolicy) (err : ClientError) (attempts : UInt32) : Option Span :=
  if !err.errorClass.isRetryable || attempts == 0 || policy.maxAttempts ≤ attempts then none
  else
    let delay := policy.baseBackoff.nanos * factor attempts
    if Span.longest < delay then some policy.maxBackoff
    else some ⟨min delay policy.maxBackoff.nanos⟩

end RetryPolicy

end CqlClient
