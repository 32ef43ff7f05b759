import CqlClient.Proofs.Retry.Backoff
import CqlClient.Proofs.Session.Lifecycle
import CqlClient.Retry.Loop

/-!
Attempts at a query, one after the other. How they end is up to the node, and whatever else acts on
the connection in use may close it at any time. From outside one sees when the attempts stop, how
long the pauses between them are, and what becomes of the connections.
-/

namespace CqlClient

namespace Session

/-- The session after one action and the next; those that are not possible do not happen. -/
def undergo (s : Session) (actions : List Action) : Session :=
  actions.foldl (fun s action => (s.act action).getD s) s

/-- Somebody closes the session and does all the parts of it. -/
def shut (s : Session) : Session :=
  s.undergo (.close :: List.replicate 4 (.move (.closer s.closers.length)))

end Session

/-- What is beyond the loop, by the number of the attempt: how the attempt ends, and what happens to
the connection in use, by the attempt or by others, while it lasts and in the pause after it. -/
structure Course where
  outcome : Nat → Except ClientError ResultSet
  duringAttempt : Nat → List Session.Action
  duringPause : Nat → List Session.Action

/-- A pause between two attempts. -/
structure Respite where
  /-- How many attempts had been made. -/
  made : Nat
  delay : Span

/-- What has been seen of the attempts so far. -/
structure Chronicle where
  /-- The connection of each attempt, as the attempt found it. -/
  found : List Session
  pauses : List Respite
  /-- The connections that others have taken the place of, as they were then. -/
  retired : List Session
  /-- The connection in use. -/
  session : Session

namespace Chronicle

/-- Before the first attempt. -/
def start (options : SessionOptions) : Chronicle := ⟨[], [], [], .new options⟩

def attempt (past : Chronicle) (course : Course) : Chronicle :=
  { past with
    found := past.found ++ [past.session]
    session := past.session.undergo (course.duringAttempt (past.found.length + 1)) }

def pause (past : Chronicle) (course : Course) (delay : Span) : Chronicle :=
  { past with
    pauses := past.pauses ++ [⟨past.found.length, delay⟩]
    session := past.session.undergo (course.duringPause past.found.length) }

def renew (past : Chronicle) (options : SessionOptions) : Chronicle :=
  { past with retired := past.retired ++ [past.session], session := .new options }

def close (past : Chronicle) : Chronicle := { past with session := past.session.shut }

/-- Until the next attempt: a pause, and a new connection if it is needed. -/
def resume (past : Chronicle) (course : Course) (options : SessionOptions) (delay : Span) :
    Chronicle :=
  let past := past.pause course delay
  if past.session.isClosed then past.renew options else past

end Chronicle

namespace Course

variable {course : Course} {policy : RetryPolicy} {options : SessionOptions}

/-- Attempts that go as the course has it, with a chronicle of them. -/
def attempts (course : Course) (options : SessionOptions) : Attempts (StateM Chronicle) where
  execute := do
    modify (·.attempt course)
    return course.outcome (← get).found.length
  isClosed := do return (← get).session.isClosed
  close := modify Chronicle.close
  reconnect := modify (·.renew options)
  wait delay := modify (·.pause course delay)

/-! ## What is to be seen -/

/-- No attempt is to follow the one with this number. -/
def Ends (course : Course) (policy : RetryPolicy) (number : Nat) : Prop :=
  (∃ rows, course.outcome number = .ok rows) ∨
    (∃ err, course.outcome number = .error err ∧ err.errorClass ≠ .transient) ∨
      number = policy.maxAttempts.toNat

/-- The pause after a failed attempt is as long as the policy says. -/
def Spaces (course : Course) (policy : RetryPolicy) (number : Nat) (pause : Respite) : Prop :=
  pause.made = number ∧ ∃ err, course.outcome number = .error err ∧
    policy.nextBackoff err (.ofNat number) = some pause.delay

/-- What has become of a connection after the attempt with this number and the pause behind it. -/
def leave (course : Course) (number : Nat) (s : Session) : Session :=
  (s.undergo (course.duringAttempt number)).undergo (course.duringPause number)

/-- The connection in use when so many attempts have been made and another is to be: the one in use
before, or a new one if that is closed. -/
def connection (course : Course) (options : SessionOptions) : (made : Nat) → Session
  | 0 => .new options
  | made + 1 =>
    let left := course.leave (made + 1) (course.connection options made)
    if left.isClosed then .new options else left

/-- The connections that are closed by the end of a pause, of so many attempts. -/
def lost (course : Course) (options : SessionOptions) (made : Nat) : List Session :=
  let left := (List.range made).map fun made =>
    course.leave (made + 1) (course.connection options made)
  left.filter (·.isClosed)

/-- Between attempts, when so many have been made. -/
structure Between (course : Course) (policy : RetryPolicy) (options : SessionOptions) (made : Nat)
    (past : Chronicle) : Prop where
  goesOn : ∀ number, 1 ≤ number → number ≤ made → ¬ course.Ends policy number
  found : past.found = (List.range made).map (course.connection options)
  pauses : List.Forall₂ (course.Spaces policy) (List.range' 1 made) past.pauses
  retired : past.retired = course.lost options made
  session : past.session = course.connection options made

/-! ## One attempt -/

variable {attempt : UInt32} {made : Nat} {past : Chronicle} {err : ClientError} {delay : Span}

theorem lost_succ (course : Course) (options : SessionOptions) (made : Nat) :
    course.lost options (made + 1) = course.lost options made ++
      [course.leave (made + 1) (course.connection options made)].filter (·.isClosed) := by
  rw [lost, List.range_succ, List.map_append, List.filter_append]
  rfl

/-- A failed attempt is one that no other is to follow exactly if the policy gives no delay. -/
theorem ends_iff_of_error (hattempt : attempt.toNat = made + 1)
    (hmore : made < policy.maxAttempts.toNat) (herr : course.outcome (made + 1) = .error err) :
    course.Ends policy (made + 1) ↔ policy.nextBackoff err attempt = none := by
  have hpositive : attempt ≠ 0 := by
    rintro rfl
    cases hattempt
  have hlimit : policy.maxAttempts ≤ attempt ↔ made + 1 = policy.maxAttempts.toNat := by
    rw [UInt32.le_iff_toNat_le, hattempt]
    omega
  simp [Ends, herr, RetryPolicy.nextBackoff_eq_none_iff, RetryPolicy.not_goesOn_iff, hpositive,
    hlimit]

namespace Between

theorem length_found (h : course.Between policy options made past) : past.found.length = made := by
  rw [h.found, List.length_map, List.length_range]

theorem found_attempt (h : course.Between policy options made past) :
    (past.attempt course).found = (List.range (made + 1)).map (course.connection options) := by
  rw [Chronicle.attempt, h.found, h.session, List.range_succ, List.map_append]
  rfl

theorem length_found_attempt (h : course.Between policy options made past) :
    (past.attempt course).found.length = made + 1 := by
  rw [h.found_attempt, List.length_map, List.length_range]

theorem session_pause (h : course.Between policy options made past) :
    ((past.attempt course).pause course delay).session =
      course.leave (made + 1) (course.connection options made) := by
  rw [Chronicle.pause, h.length_found_attempt, Chronicle.attempt, h.length_found, h.session, leave]

theorem goesOn_succ (h : course.Between policy options made past)
    (hattempt : attempt.toNat = made + 1) (hmore : made < policy.maxAttempts.toNat)
    (herr : course.outcome (made + 1) = .error err)
    (hdelay : policy.nextBackoff err attempt = some delay) :
    ∀ number, 1 ≤ number → number ≤ made + 1 → ¬ course.Ends policy number := by
  intro number hfirst hnumber
  rcases Nat.lt_or_eq_of_le hnumber with hearlier | rfl
  · exact h.goesOn number hfirst (Nat.le_of_lt_succ hearlier)
  · rw [ends_iff_of_error hattempt hmore herr, hdelay]
    exact Option.some_ne_none _

theorem pauses_pause (h : course.Between policy options made past)
    (hattempt : attempt.toNat = made + 1) (herr : course.outcome (made + 1) = .error err)
    (hdelay : policy.nextBackoff err attempt = some delay) :
    List.Forall₂ (course.Spaces policy) (List.range' 1 (made + 1))
      ((past.attempt course).pause course delay).pauses := by
  have hspaces : course.Spaces policy (made + 1) ⟨(past.attempt course).found.length, delay⟩ := by
    refine ⟨h.length_found_attempt, err, herr, ?_⟩
    rw [← hattempt, UInt32.ofNat_toNat]
    exact hdelay
  rw [List.range'_1_concat, Nat.add_comm 1 made]
  exact List.rel_append h.pauses (.cons hspaces .nil)

/-- A failed attempt after which there is to be another leads to where that one begins. -/
theorem resume (h : course.Between policy options made past)
    (hattempt : attempt.toNat = made + 1) (hmore : made < policy.maxAttempts.toNat)
    (herr : course.outcome (made + 1) = .error err)
    (hdelay : policy.nextBackoff err attempt = some delay) :
    course.Between policy options (made + 1)
      ((past.attempt course).resume course options delay) := by
  have hgoesOn := h.goesOn_succ hattempt hmore herr hdelay
  have hpauses := h.pauses_pause hattempt herr hdelay
  have hleft : ((past.attempt course).pause course delay).session = _ := h.session_pause
  rw [Chronicle.resume, hleft]
  by_cases hclosed : (course.leave (made + 1) (course.connection options made)).isClosed
  · rw [if_pos hclosed]
    refine ⟨hgoesOn, h.found_attempt, hpauses, ?_, ?_⟩
    · rw [lost_succ, List.filter_singleton, hclosed, ← h.retired, ← hleft]
      rfl
    · rw [connection, if_pos hclosed]
      rfl
  · rw [if_neg hclosed]
    refine ⟨hgoesOn, h.found_attempt, hpauses, ?_, ?_⟩
    · rw [lost_succ, List.filter_singleton, Bool.eq_false_iff.mpr hclosed, ← h.retired]
      exact (List.append_nil _).symm
    · rw [connection, if_neg hclosed, hleft]

end Between

/-- The pause that the policy asks for is known from how the attempt ends. -/
theorem Spaces.eq {number : Nat} {pause : Respite} (h : course.Spaces policy number pause)
    (herr : course.outcome number = .error err)
    (hdelay : policy.nextBackoff err (.ofNat number) = some delay) : pause = ⟨number, delay⟩ := by
  obtain ⟨hmade, err', herr', hdelay'⟩ := h
  cases Except.error.inj (herr'.symm.trans herr)
  cases Option.some.inj (hdelay'.symm.trans hdelay)
  rw [← hmade]

end Course

end CqlClient
