import CqlClient.Retry
import CqlClient.Row

/-!
Running a query until it succeeds or the policy allows no other attempt. A connection is used for
the next attempt unless it is closed, and the last one is closed at the end.
-/

namespace CqlClient

/-- What it takes to make attempts. -/
structure Attempts (m : Type → Type) where
  execute : m (Except ClientError ResultSet)
  isClosed : m Bool
  close : m Unit
  /-- Takes a new connection in place of the old one. -/
  reconnect : m Unit
  wait : Span → m Unit

namespace RetryPolicy

theorem lt_of_nextBackoff {policy : RetryPolicy} {err : ClientError} {attempts : UInt32}
    {delay : Span} (h : policy.nextBackoff err attempts = some delay) :
    attempts < policy.maxAttempts := by
  unfold nextBackoff at h
  split at h
  · cases h
  · next stops =>
    simp only [Bool.or_eq_true, decide_eq_true_eq, not_or] at stops
    exact UInt32.not_le.mp stops.2

variable {m : Type → Type} [Monad m]

/-- Makes attempts, of which the next is number `attempt`. -/
def runFrom (policy : RetryPolicy) (attempts : Attempts m) (attempt : UInt32) :
    m (Except ClientError ResultSet) := do
  match ← attempts.execute with
  | .ok rows =>
    attempts.close
    return .ok rows
  | .error err =>
    match _ : policy.nextBackoff err attempt with
    | none =>
      attempts.close
      return .error err
    | some delay =>
      attempts.wait delay
      if ← attempts.isClosed then attempts.reconnect
      runFrom policy attempts (attempt + 1)
termination_by policy.maxAttempts.toNat - attempt.toNat
decreasing_by
  have below := lt_of_nextBackoff (by assumption)
  have := policy.maxAttempts.toNat_lt
  have := UInt32.lt_iff_toNat_lt.mp below
  rw [UInt32.toNat_add, UInt32.toNat_one, Nat.mod_eq_of_lt (by omega)]
  omega

/-- Makes attempts until one succeeds or there is to be no other. -/
def run (policy : RetryPolicy) (attempts : Attempts m) : m (Except ClientError ResultSet) :=
  policy.runFrom attempts 1

end RetryPolicy

/-- What the user is told when the last attempt has failed. -/
def failureText (endpoint : String) (err : ClientError) : String :=
  endpoint ++ " failed (" ++ err.errorClass.name ++ "): " ++ err.message

/-- Makes attempts, and gives the rows of the last one or what the user is told. -/
def RetryPolicy.runOrReport {m : Type → Type} [Monad m] (policy : RetryPolicy) (endpoint : String)
    (attempts : Attempts m) : m (Except String ResultSet) := do
  return (← policy.run attempts).mapError (failureText endpoint)

end CqlClient
