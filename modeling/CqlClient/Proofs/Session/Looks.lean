import CqlClient.Proofs.Session.Closing

/-!
Who looks at what the node sends. The reader takes each frame and brings it to the one whom it
concerns: the query that its stream belongs to, or the reader himself if it is for no one. What it
means for the count of breaches is seen only when that one looks at it.
-/

namespace CqlClient

/-- Whether a frame holds a result or an error, as the response to a query has to. -/
def Frame.isAnswer (frame : Frame) : Bool :=
  match Response.decode frame.opcode frame.body with
  | .ok (.result _) | .ok (.error ..) => true
  | _ => false

theorem Verdict.ofFrame_result {frame : Frame} {outcome : Outcome}
    (h : Response.decode frame.opcode frame.body = .ok (.result outcome)) :
    ofFrame frame = .answered ((ResultSet.ofOutcome outcome).mapError .decode) := by
  rw [ofFrame, h]
  dsimp only
  cases ResultSet.ofOutcome outcome <;> rfl

theorem Verdict.ofFrame_error {frame : Frame} {code : Int32} {message : String}
    (h : Response.decode frame.opcode frame.body = .ok (.error code message)) :
    ofFrame frame = .answered (.error (.server code message)) := by
  rw [ofFrame, h]

theorem Verdict.ofFrame_breach {frame : Frame} (h : ¬ frame.isAnswer) :
    ∃ reason, ofFrame frame = .breach reason := by
  rw [Frame.isAnswer] at h
  rw [ofFrame]
  split
  · exact ⟨_, rfl⟩
  · next hdecode => simp [hdecode] at h
  · next hdecode => simp [hdecode] at h
  · exact ⟨_, rfl⟩

theorem Verdict.ofFrame_answer {frame : Frame} (h : frame.isAnswer) :
    ∃ result, ofFrame frame = .answered result := by
  rw [Frame.isAnswer] at h
  split at h
  · next hdecode => exact ⟨_, ofFrame_result hdecode⟩
  · next hdecode => exact ⟨_, ofFrame_error hdecode⟩
  · cases h

/-- What a frame means for the count of breaches. -/
inductive Conduct where
  | breach
  | answer
  deriving DecidableEq, Repr

/-- The count of breaches after another frame. -/
def Conduct.count : Conduct → Nat → Nat
  | breach, strikes => strikes + 1
  | answer, _ => 0

/-- What a frame means as the response to a query. -/
def Frame.conduct (frame : Frame) : Conduct := if frame.isAnswer then .answer else .breach

/-- What the response means that a query has been handed and has not looked at. -/
def Call.held? (call : Call) : Option Conduct :=
  match call.stage.exchange?, call.inbox with
  | some (.query _), some (.ok frame) => some frame.conduct
  | _, _ => none

namespace Session

/-- The call at a place waits for the response to its query. -/
structure Awaits (s : Session) (place : Nat) (call : Call) (stream : Int16) : Prop where
  call? : s.calls[place]? = some call
  stage : ∃ request, call.stage = .await (.query request) stream

/-- The session after a call has looked at what it was handed: the call is somewhere else, and the
count of breaches is another one. -/
def looked (s : Session) (place : Nat) (call : Call) (strikes : Nat) (stage : Stage) : Session :=
  { s with strikes, calls := s.calls.set place { call with inbox := none, stage } }

/-- What those who wait are told when the next breach is one too many. -/
def lastStrike (s : Session) : ClientError :=
  .connectionLost (Integer.text (s.strikes + 1) ++ " consecutive protocol errors")

/-- What somebody has been brought and has not seen yet: the reader a frame for no one, and a query
its response. -/
def holds? (s : Session) : Actor → Option Conduct
  | .reader => if s.reader.duty = .striking then some .breach else none
  | .call place => s.calls[place]?.bind Call.held?
  | .writer | .closer _ => none

/-- Whether the call at a place performs the handshake. -/
def isOpening (s : Session) (place : Nat) : Bool := (s.stage? place).any Stage.isOpening

/-- Whether the call at a place has sent its request. -/
def isAwaiting (s : Session) (place : Nat) : Bool :=
  match s.stage? place with
  | some (.await ..) => true
  | _ => false

/-- Whom a frame concerns and what it means: the reader himself if it is for no one, and the call
whose stream it is on, whether or not anybody still waits for that call. The responses of the
handshake do not count. -/
def concerns? (s : Session) (frame : Frame) : Option (Actor × Conduct) :=
  if frame.stream = Frame.eventStream then none
  else
    match s.inFlight.get? frame.stream with
    | none => some (.reader, .breach)
    | some place => if s.isOpening place then none else some (.call place, frame.conduct)

/-- Whom the frame concerns that the reader takes by an action. -/
def brings? (s : Session) : Action → Option (Actor × Conduct)
  | .move .reader =>
    match s.reader.isServing, s.arrivals with
    | true, .ok frame :: _ => s.concerns? frame
    | _, _ => none
  | _ => none

/-- Who sees by an action what he has been brought, and what it means. -/
def sees? (s : Session) : Action → Option (Actor × Conduct)
  | .move .reader => (s.holds? .reader).map (.reader, ·)
  | .move (.call place) =>
    if s.isAwaiting place then (s.holds? (.call place)).map (.call place, ·) else none
  | _ => none

/-- What has been brought in a run, in its order. -/
def brought (steps : List (Session × Action)) : List (Actor × Conduct) :=
  steps.flatMap fun step => (step.1.brings? step.2).toList

/-- What has been seen in a run, in its order. -/
def seen (steps : List (Session × Action)) : List (Actor × Conduct) :=
  steps.flatMap fun step => (step.1.sees? step.2).toList

/-- A run in which nobody is brought anything to look at. -/
structure Silent (s : Session) (steps : List (Session × Action)) (t : Session) : Prop where
  run : Run s steps t
  brought : brought steps = []
  seen : seen steps = []

/-! ## The steps of those who look -/

theorem looked_eq_moveTo (s : Session) (place : Nat) (call : Call) (strikes : Nat) (stage : Stage) :
    ({ s with strikes, calls := s.calls.set place { call with inbox := none } } : Session).moveTo place
      stage = s.looked place call strikes stage := by
  rw [moveTo, looked]
  congr 1
  refine List.ext_getElem? fun other => ?_
  rw [List.getElem?_modify, List.getElem?_set, List.getElem?_set]
  split
  · split <;> rfl
  · exact Option.map_id'

theorem stage?_looked {s : Session} {place : Nat} {call : Call} (hcall : s.calls[place]? = some call)
    (strikes : Nat) (stage : Stage) :
    (s.looked place call strikes stage).stage? place = some stage := by
  rw [stage?, looked, List.getElem?_set_self', hcall]
  rfl

/-- The step of a call that has been handed something. -/
theorem act_of_inbox {s : Session} {place : Nat} {call : Call} {exchange : Exchange} {stream : Int16}
    {result : Except ClientError Frame} (hcall : s.calls[place]? = some call)
    (hstage : call.stage = .await exchange stream) (hinbox : call.inbox = some result) :
    s.act (.move (.call place)) =
      some ({ s with calls := s.calls.set place { call with inbox := none } }.receive place exchange
        result) := by
  simp only [act, move, moveCall, hcall, Option.bind_eq_bind, Option.bind_some, hstage, hinbox]

theorem act_of_answered {s : Session} {place : Nat} {call : Call} {stream : Int16} {frame : Frame}
    {result : Except ClientError ResultSet} (hawaits : s.Awaits place call stream)
    (hinbox : call.inbox = some (.ok frame)) (hverdict : Verdict.ofFrame frame = .answered result) :
    s.act (.move (.call place)) = some (s.looked place call 0 (.done (result.map some))) := by
  obtain ⟨hcall, request, hstage⟩ := hawaits
  rw [act_of_inbox hcall hstage hinbox, receive, hverdict, conclude]
  exact congrArg some (looked_eq_moveTo s place call 0 _)

theorem act_of_breach {s : Session} {place : Nat} {call : Call} {stream : Int16} {frame : Frame}
    {reason : String} (hawaits : s.Awaits place call stream)
    (hinbox : call.inbox = some (.ok frame)) (hverdict : Verdict.ofFrame frame = .breach reason) :
    s.act (.move (.call place)) = some (s.looked place call (s.strikes + 1)
      (if s.options.maxProtocolErrors ≤ s.strikes + 1 then
        .close .latch s.lastStrike (.error (.protocol reason))
      else .done (.error (.protocol reason)))) := by
  obtain ⟨hcall, request, hstage⟩ := hawaits
  rw [act_of_inbox hcall hstage hinbox, receive, hverdict, conclude, strike]
  by_cases hfull : s.options.maxProtocolErrors ≤ s.strikes + 1
  · simp only [if_pos hfull]
    exact congrArg some (looked_eq_moveTo s place call (s.strikes + 1) _)
  · simp only [if_neg hfull]
    exact congrArg some (looked_eq_moveTo s place call (s.strikes + 1) _)

theorem act_of_reads {s : Session} {frame : Frame} {rest : List (Except ProtocolError Frame)}
    (hserving : s.reader.isServing) (harrivals : s.arrivals = .ok frame :: rest) :
    s.act (.move .reader) = some ({ s with arrivals := rest }.dispatch frame) := by
  simp only [Worker.isServing, Bool.and_eq_true, beq_iff_eq, Bool.not_eq_true'] at hserving
  simp only [act, move, moveReader, hserving.1, hserving.2, harrivals]
  rfl

theorem brings?_of_reads {s : Session} {frame : Frame} {rest : List (Except ProtocolError Frame)}
    (hserving : s.reader.isServing) (harrivals : s.arrivals = .ok frame :: rest) :
    s.brings? (.move .reader) = s.concerns? frame := by
  rw [brings?, hserving, harrivals]

theorem concerns?_of_free {s : Session} {frame : Frame} (hevent : frame.stream ≠ Frame.eventStream)
    (hfree : s.inFlight.get? frame.stream = none) :
    s.concerns? frame = some (.reader, .breach) := by
  rw [concerns?, if_neg hevent, hfree]

theorem concerns?_of_waiter {s : Session} {frame : Frame} {place : Nat}
    (hevent : frame.stream ≠ Frame.eventStream)
    (hplace : s.inFlight.get? frame.stream = some place) (hopening : ¬ s.isOpening place) :
    s.concerns? frame = some (.call place, frame.conduct) := by
  rw [concerns?, if_neg hevent, hplace]
  exact if_neg hopening

theorem dispatch_of_free {s : Session} {frame : Frame} (hevent : frame.stream ≠ Frame.eventStream)
    (hfree : s.inFlight.get? frame.stream = none) :
    s.dispatch frame = { s with reader := { s.reader with duty := .striking } } := by
  rw [dispatch, if_neg hevent, InFlight.take?_eq_none.mpr hfree]

theorem dispatch_of_waiter {s : Session} {frame : Frame} {place : Nat}
    (hevent : frame.stream ≠ Frame.eventStream)
    (hplace : s.inFlight.get? frame.stream = some place) :
    ∃ table, s.dispatch frame = { s with inFlight := table }.hand place (.ok frame) ∧
      ∀ other, table.get? other = if other = frame.stream then none else s.inFlight.get? other := by
  rw [dispatch, if_neg hevent]
  split
  · next holder table htake =>
    obtain ⟨hholder, htable⟩ := InFlight.take?_eq_some htake
    cases hholder.symm.trans hplace
    exact ⟨table, rfl, htable⟩
  · next htake => cases (InFlight.take?_eq_none.mp htake).symm.trans hplace

/-! ## What is seen -/

/-- What a look does: the count of breaches is kept, nothing is left to look at, and there is a
session to close if a breach is one too many. -/
structure Sees (s t : Session) (actor : Actor) (conduct : Conduct) : Prop where
  strikes : t.strikes = conduct.count s.strikes
  holds : t.holds? actor = none
  part : t.part? actor = some (.latch, s.lastStrike) ↔
    conduct = .breach ∧ s.options.maxProtocolErrors ≤ s.strikes + 1

theorem holds?_call {s : Session} {place : Nat} {call : Call} (hcall : s.calls[place]? = some call) :
    s.holds? (.call place) = call.held? := by
  rw [holds?, hcall]
  rfl

theorem held?_eq_some {call : Call} {conduct : Conduct} (h : call.held? = some conduct) :
    ∃ request frame, call.stage.exchange? = some (.query request) ∧ call.inbox = some (.ok frame) ∧
      conduct = frame.conduct := by
  unfold Call.held? at h
  split at h
  · next request frame hexchange hinbox =>
    cases h
    exact ⟨request, frame, hexchange, hinbox, rfl⟩
  · cases h

theorem held?_of_inbox {call : Call} (h : call.inbox = none) : call.held? = none := by
  unfold Call.held?
  split
  · next hinbox => cases h.symm.trans hinbox
  · rfl

theorem sees?_eq_some {s : Session} {action : Action} {actor : Actor} {conduct : Conduct}
    (h : s.sees? action = some (actor, conduct)) :
    action = .move actor ∧ s.holds? actor = some conduct ∧
      ∀ place, actor = .call place → s.isAwaiting place := by
  unfold sees? at h
  split at h
  · obtain ⟨_, hholds, heq⟩ := Option.map_eq_some_iff.mp h
    cases heq
    exact ⟨rfl, hholds, nofun⟩
  · split at h
    · next hawaiting =>
      obtain ⟨_, hholds, heq⟩ := Option.map_eq_some_iff.mp h
      cases heq
      refine ⟨rfl, hholds, ?_⟩
      rintro _ ⟨⟩
      exact hawaiting
    · cases h
  · cases h

/-- A call that looks at something waits for the response to its query. -/
theorem awaits_of_sees? {s : Session} {action : Action} {place : Nat} {conduct : Conduct}
    (h : s.sees? action = some (.call place, conduct)) :
    ∃ call stream frame, s.Awaits place call stream ∧ call.inbox = some (.ok frame) ∧
      conduct = frame.conduct := by
  obtain ⟨-, hholds, hawaiting⟩ := sees?_eq_some h
  obtain ⟨call, hcall, hheld⟩ := Option.bind_eq_some_iff.mp hholds
  obtain ⟨request, frame, hexchange, hinbox, hconduct⟩ := held?_eq_some hheld
  have hawait := hawaiting place rfl
  rw [isAwaiting, stage?_of_calls hcall] at hawait
  split at hawait
  · next exchange stream hstage =>
    rw [Option.some_inj.mp hstage, Stage.exchange?] at hexchange
    cases hexchange
    exact ⟨call, stream, frame, ⟨hcall, request, Option.some_inj.mp hstage⟩, hinbox, hconduct⟩
  · cases hawait

theorem act_of_striking {s : Session} (hduty : s.reader.duty = .striking) :
    s.act (.move .reader) = some { s with
      strikes := s.strikes + 1
      reader := { s.reader with
        duty := if s.options.maxProtocolErrors ≤ s.strikes + 1 then
          .closing .latch s.lastStrike false else .serving } } := by
  simp only [act, move, moveReader, hduty, strike]
  by_cases hfull : s.options.maxProtocolErrors ≤ s.strikes + 1
  · simp only [if_pos hfull]
    rfl
  · simp only [if_neg hfull]

theorem held?_of_ne_query {call : Call}
    (h : ∀ request, call.stage.exchange? ≠ some (.query request)) : call.held? = none := by
  unfold Call.held?
  split
  · next hexchange _ => exact absurd hexchange (h _)
  · rfl

theorem held?_of_isOver {call : Call} (h : call.stage.isOver) : call.held? = none := by
  refine held?_of_ne_query fun request hexchange => ?_
  cases hstage : call.stage <;> rw [hstage] at h hexchange <;> cases hexchange <;> cases h

theorem sees_of_striking {s t : Session} (hduty : s.reader.duty = .striking)
    (hact : s.act (.move .reader) = some t) : Sees s t .reader .breach := by
  cases (act_of_striking hduty).symm.trans hact
  by_cases hfull : s.options.maxProtocolErrors ≤ s.strikes + 1
  · simp only [if_pos hfull]
    exact ⟨rfl, rfl, iff_of_true rfl ⟨rfl, hfull⟩⟩
  · simp only [if_neg hfull]
    refine ⟨rfl, rfl, iff_of_false ?_ fun hbreach => hfull hbreach.2⟩
    rintro ⟨⟩

/-- A call that has looked is over, and has the session to close if it has gone on to that. -/
theorem sees_of_looked {s : Session} {place strikes : Nat} {call : Call} {conduct : Conduct}
    {stage : Stage} (hcall : s.calls[place]? = some call)
    (hstrikes : strikes = conduct.count s.strikes) (hover : stage.isOver)
    (hpart : stage.part? = some (.latch, s.lastStrike) ↔
      conduct = .breach ∧ s.options.maxProtocolErrors ≤ s.strikes + 1) :
    Sees s (s.looked place call strikes stage) (.call place) conduct where
  strikes := hstrikes
  holds := by
    rw [holds?, looked, List.getElem?_set_self', hcall]
    exact held?_of_isOver hover
  part := by
    rw [part?, stage?_looked hcall]
    exact hpart

theorem sees_of_awaits {s t : Session} {place : Nat} {call : Call} {stream : Int16} {frame : Frame}
    (hawaits : s.Awaits place call stream) (hinbox : call.inbox = some (.ok frame))
    (hact : s.act (.move (.call place)) = some t) : Sees s t (.call place) frame.conduct := by
  by_cases hanswer : frame.isAnswer
  · obtain ⟨result, hverdict⟩ := Verdict.ofFrame_answer hanswer
    cases (act_of_answered hawaits hinbox hverdict).symm.trans hact
    rw [Frame.conduct, if_pos hanswer]
    refine sees_of_looked hawaits.call? rfl rfl (iff_of_false ?_ fun hbreach => ?_)
    · rintro ⟨⟩
    · cases hbreach.1
  · obtain ⟨reason, hverdict⟩ := Verdict.ofFrame_breach hanswer
    cases (act_of_breach hawaits hinbox hverdict).symm.trans hact
    rw [Frame.conduct, if_neg hanswer]
    by_cases hfull : s.options.maxProtocolErrors ≤ s.strikes + 1
    · rw [if_pos hfull]
      exact sees_of_looked hawaits.call? rfl rfl (iff_of_true rfl ⟨rfl, hfull⟩)
    · rw [if_neg hfull]
      refine sees_of_looked hawaits.call? rfl rfl (iff_of_false ?_ fun hbreach => hfull hbreach.2)
      rintro ⟨⟩

theorem sees_of_act {s t : Session} {action : Action} {actor : Actor} {conduct : Conduct}
    (h : s.sees? action = some (actor, conduct)) (hact : s.act action = some t) :
    Sees s t actor conduct := by
  obtain ⟨rfl, hholds, -⟩ := sees?_eq_some h
  cases actor with
  | reader =>
      rw [holds?] at hholds
      split at hholds <;> cases hholds
      next hduty => exact sees_of_striking hduty hact
  | call place =>
      obtain ⟨call, stream, frame, hawaits, hinbox, rfl⟩ := awaits_of_sees? h
      exact sees_of_awaits hawaits hinbox hact
  | writer | closer => cases hholds

theorem sees?_of_awaits {s : Session} {place : Nat} {call : Call} {stream : Int16} {frame : Frame}
    (h : s.Awaits place call stream) (hinbox : call.inbox = some (.ok frame)) :
    s.sees? (.move (.call place)) = some (.call place, frame.conduct) := by
  obtain ⟨hcall, request, hstage⟩ := h
  have hawaiting : s.isAwaiting place := by
    rw [isAwaiting, stage?_of_calls hcall, hstage]
  have hheld : call.held? = some frame.conduct := by
    rw [Call.held?, hstage, hinbox]
    rfl
  rw [sees?, if_pos hawaiting, holds?_call hcall, hheld]
  rfl

theorem seen_concat (steps : List (Session × Action)) (s : Session) (action : Action) :
    seen (steps ++ [(s, action)]) = seen steps ++ (s.sees? action).toList := by
  rw [seen, List.flatMap_append, List.flatMap_singleton, seen]

theorem brought_concat (steps : List (Session × Action)) (s : Session) (action : Action) :
    brought (steps ++ [(s, action)]) = brought steps ++ (s.brings? action).toList := by
  rw [brought, List.flatMap_append, List.flatMap_singleton, brought]

theorem Silent.start (s : Session) : Silent s [] s := ⟨.start, rfl, rfl⟩

theorem Silent.act {s t u : Session} {steps : List (Session × Action)} (h : Silent s steps t)
    (action : Action) (hact : t.act action = some u)
    (hsilent : t.brings? action = none ∧ t.sees? action = none) :
    Silent s (steps ++ [(t, action)]) u where
  run := h.run.act action hact
  brought := by
    rw [brought_concat, h.brought, hsilent.1]
    rfl
  seen := by
    rw [seen_concat, h.seen, hsilent.2]
    rfl

end Session

end CqlClient
