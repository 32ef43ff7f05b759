import CqlClient.Proofs.Session.Looks

/-!
How far the failure of one query reaches. What the node answers to it ends it and changes the count
of breaches, and nothing else that calls share, unless the count is full: then the session is closed
and the others that wait are told that it is lost. A query that never gets a stream changes nothing.
-/

namespace CqlClient.Session

/-! ## The reader -/

theorem Run.get?_ne_eventStream {options : SessionOptions} {steps : List (Session × Action)}
    {s : Session} (h : Run (.new options) steps s) {stream : Int16} {place : Nat}
    (hplace : s.inFlight.get? stream = some place) : stream ≠ Frame.eventStream := by
  induction h with
  | start => cases (InFlight.get?_empty stream).symm.trans hplace
  | act _ _ hact ih =>
      rcases (change_of_act hact).get? hplace with hold | ⟨-, hne⟩
      · exact ih hold
      · exact hne

/-- A call that waits and is in the table has been handed nothing, and is in it with one stream. -/
theorem Run.waits {options : SessionOptions} {steps : List (Session × Action)} {s : Session}
    (h : Run (.new options) steps s) {place : Nat} {call : Call} {exchange : Exchange}
    {stream : Int16} (hcall : s.calls[place]? = some call) (hstage : call.stage = .await exchange stream)
    (hplace : s.inFlight.get? stream = some place) :
    call.inbox = none ∧ ∀ other, s.inFlight.get? other = some place ↔ other = stream := by
  cases h.tabled.stances place call hcall with
  | waits hstream hinbox _ htable =>
      rw [hstage] at hstream
      cases hstream
      exact ⟨hinbox, htable⟩
  | handed _ _ _ _ htable => exact absurd hplace (htable stream)
  | ended hover => rw [hstage] at hover; cases hover
  | free hstream => rw [hstage] at hstream; cases hstream

/-- A response that is read goes to the call that waits on its stream, and concerns no other. -/
theorem Run.reads_response {options : SessionOptions} {steps : List (Session × Action)} {s : Session}
    (h : Run (.new options) steps s) {place : Nat} {call : Call} {exchange : Exchange} {frame : Frame}
    {rest : List (Except ProtocolError Frame)} (hcall : s.calls[place]? = some call)
    (hstage : call.stage = .await exchange frame.stream)
    (hplace : s.inFlight.get? frame.stream = some place) (hserving : s.reader.isServing)
    (harrivals : s.arrivals = .ok frame :: rest) :
    ∃ table, s.act (.move .reader) = some { s with
        arrivals := rest
        inFlight := table
        calls := s.calls.set place { call with inbox := some (.ok frame) } } ∧
      ∀ other, table.get? other = if other = frame.stream then none else s.inFlight.get? other := by
  obtain ⟨hinbox, -⟩ := h.waits hcall hstage hplace
  obtain ⟨table, heq, htable⟩ := dispatch_of_waiter (s := { s with arrivals := rest })
    (h.get?_ne_eventStream hplace) hplace
  have hcalls : s.calls.modify place (·.accept (.ok frame)) =
      s.calls.set place { call with inbox := some (.ok frame) } := by
    rw [List.modify_eq_set_getElem?, hcall, ← accept_of_await hstage hinbox]
    rfl
  refine ⟨table, ?_, htable⟩
  rw [act_of_reads hserving harrivals, heq, hand, hcalls]

/-! ## Closing -/

/-- Whoever fails those that wait hands the reason to each of them, and nothing to anybody else. -/
theorem Run.getElem?_failWaiters {options : SessionOptions} {steps : List (Session × Action)}
    {s : Session} (h : Run (.new options) steps s) (reason : ClientError) {place : Nat} {call : Call}
    (hcall : s.calls[place]? = some call) :
    (∀ exchange stream, call.stage = .await exchange stream → s.inFlight.get? stream = some place →
      (s.closePart reason .failWaiters).calls[place]? =
        some { call with inbox := some (.error reason) }) ∧
    ((∀ stream, s.inFlight.get? stream ≠ some place) →
      (s.closePart reason .failWaiters).calls[place]? = some call) := by
  have hsame : ({ s with inFlight := s.inFlight.drain.2 } : Session).calls[place]? = some call := hcall
  rw [closePart_eq_handAll, getElem?_handAll, hsame]
  constructor
  · intro exchange stream hstage hplace
    obtain ⟨hinbox, htable⟩ := h.waits hcall hstage hplace
    rw [resultsAt_waiters_eq_singleton htable, Option.map_some, List.foldl_cons, List.foldl_nil,
      accept_of_await hstage hinbox]
  · intro hfree
    rw [resultsAt_waiters_eq_nil hfree, Option.map_some, List.foldl_nil]

theorem strikes_closePart (s : Session) (reason : ClientError) (part : Closing) :
    (s.closePart reason part).strikes = s.strikes := by
  obtain ⟨_, _, _, _, _, _, heq⟩ := closePart_eq s reason part
  rw [heq]

/-- A queue of frames that is gone stays gone while the session is closed. -/
theorem outboxOpen_closePart {s : Session} (h : s.outboxOpen = false) (reason : ClientError)
    (part : Closing) : (s.closePart reason part).outboxOpen = false := by
  by_contra hopen
  rw [Bool.not_eq_false] at hopen
  cases h.symm.trans (outboxOpen_of_closePart hopen).1

/-- A call that closes the session does a part of it and goes on to the next one. -/
theorem exists_close {s : Session} {place : Nat} {part : Closing} {reason : ClientError}
    {result : CallResult} (hstage : s.stage? place = some (.close part reason result)) :
    ∃ t, s.act (.move (.call place)) = some t ∧
      t = (s.closePart reason part).moveTo place (stageAfter part reason result) ∧
      t.stage? place = some (stageAfter part reason result) := by
  refine ⟨_, act_of_close hstage, rfl, ?_⟩
  rw [← stage?_closePart s reason part] at hstage
  exact stage?_moveTo_self hstage _

/-- Before it fails those that wait, a call that closes the session leaves the others alone. -/
theorem getElem?_of_close {s t : Session} {place : Nat} {part : Closing} {reason : ClientError}
    {stage : Stage} (ht : t = (s.closePart reason part).moveTo place stage)
    (hpart : part ≠ .failWaiters) {other : Nat} (hother : other ≠ place) :
    t.calls[other]? = s.calls[other]? ∧ t.inFlight = s.inFlight := by
  obtain ⟨hcalls, htable⟩ : (s.closePart reason part).calls = s.calls ∧ _ := calls_closePart hpart
  rw [ht, getElem?_moveTo_ne _ hother, hcalls]
  exact ⟨rfl, htable⟩

/-- A call that has begun to close the session and is not interrupted tells all that wait, and ends. -/
theorem Run.closes_alone {options : SessionOptions} {steps : List (Session × Action)} {s : Session}
    (h : Run (.new options) steps s) {place : Nat} {reason : ClientError} {result : CallResult}
    (hstage : s.stage? place = some (.close .latch reason result)) :
    ∃ later t, Run s later t ∧ later.map Prod.snd = List.replicate 4 (.move (.call place)) ∧
      t.phase = .closed ∧ t.outboxOpen = false ∧ t.inFlight.entries = [] ∧ t.strikes = s.strikes ∧
      t.stage? place = some (.done result) ∧
      ∀ other call, other ≠ place → s.calls[other]? = some call →
        (∀ exchange stream, call.stage = .await exchange stream →
          s.inFlight.get? stream = some other →
            t.calls[other]? = some { call with inbox := some (.error reason) }) ∧
        ((∀ stream, s.inFlight.get? stream ≠ some other) → t.calls[other]? = some call) := by
  obtain ⟨latched, hlatch, hlatched, hdropping⟩ := exists_close hstage
  obtain ⟨dropped, hdrop, hdropped, hstopping⟩ := exists_close hdropping
  obtain ⟨stopped, hstop, hstopped, hfailing⟩ := exists_close hstopping
  obtain ⟨failed, hfail, hfailed, hdone⟩ := exists_close hfailing
  have hrun : Run s _ stopped := ((Run.start.act _ hlatch).act _ hdrop).act _ hstop
  have hphase : latched.phase = .closed := by
    rw [hlatched]
    rfl
  have houtbox : dropped.outboxOpen = false := by
    rw [hdropped]
    rfl
  refine ⟨_, failed, hrun.act _ hfail, rfl, ?_, ?_, ?_, ?_, hdone, ?_⟩
  · have hdroppedPhase := (change_of_act hdrop).stays_closed hphase
    have hstoppedPhase := (change_of_act hstop).stays_closed hdroppedPhase
    exact (change_of_act hfail).stays_closed hstoppedPhase
  · have hstoppedOutbox : stopped.outboxOpen = false := by
      rw [hstopped]
      exact outboxOpen_closePart houtbox _ _
    rw [hfailed]
    exact outboxOpen_closePart hstoppedOutbox _ _
  · rw [hfailed]
    exact InFlight.entries_eq_nil fun stream => get?_failWaiters stopped reason stream
  · have hkept {s t : Session} {part : Closing} {stage : Stage}
        (ht : t = (s.closePart reason part).moveTo place stage) : t.strikes = s.strikes := by
      rw [ht]
      exact strikes_closePart s reason part
    rw [hkept hfailed, hkept hstopped, hkept hdropped, hkept hlatched]
  · intro other call hother hcall
    obtain ⟨hlatchedCalls, hlatchedTable⟩ := getElem?_of_close hlatched nofun hother
    obtain ⟨hdroppedCalls, hdroppedTable⟩ := getElem?_of_close hdropped nofun hother
    obtain ⟨hstoppedCalls, hstoppedTable⟩ := getElem?_of_close hstopped nofun hother
    have htable : stopped.inFlight = s.inFlight := by
      rw [hstoppedTable, hdroppedTable, hlatchedTable]
    have hstoppedCall : stopped.calls[other]? = some call := by
      rw [hstoppedCalls, hdroppedCalls, hlatchedCalls, hcall]
    rw [hfailed, getElem?_moveTo_ne _ hother, ← htable]
    exact (h.append hrun).getElem?_failWaiters reason hstoppedCall

/-! ## What the failure of a query reaches -/

/-- How far the failure of one query reaches, whatever else is going on in the session. -/
structure Isolated (s : Session) : Prop where
  /-- Reading a response concerns its stream and the call that waits there. -/
  reads : ∀ {place call frame rest}, s.Awaits place call frame.stream →
    s.inFlight.get? frame.stream = some place → s.reader.isServing →
    s.arrivals = .ok frame :: rest →
      ∃ table, s.act (.move .reader) = some { s with
          arrivals := rest
          inFlight := table
          calls := s.calls.set place { call with inbox := some (.ok frame) } } ∧
        ∀ other, table.get? other = if other = frame.stream then none else s.inFlight.get? other
  /-- A result ends its call, even if its cells cannot be read, and there are no breaches in a row
  then. -/
  result : ∀ {place call stream frame outcome}, s.Awaits place call stream →
    call.inbox = some (.ok frame) →
    Response.decode frame.opcode frame.body = .ok (.result outcome) →
      s.act (.move (.call place)) = some (s.looked place call 0
        (.done (((ResultSet.ofOutcome outcome).mapError .decode).map some)))
  /-- So does an error of the node. -/
  error : ∀ {place call stream frame code message}, s.Awaits place call stream →
    call.inbox = some (.ok frame) →
    Response.decode frame.opcode frame.body = .ok (.error code message) →
      s.act (.move (.call place)) =
        some (s.looked place call 0 (.done (.error (.server code message))))
  /-- Any other response is a breach of the protocol, which is counted and ends its call. -/
  breach : ∀ {place call stream frame}, s.Awaits place call stream →
    call.inbox = some (.ok frame) → ¬ frame.isAnswer →
    s.strikes + 1 < s.options.maxProtocolErrors →
      ∃ reason, s.act (.move (.call place)) =
        some (s.looked place call (s.strikes + 1) (.done (.error (.protocol reason))))
  /-- With one breach too many its call closes the session: those that wait are told that it is lost,
  the others are left alone, and the call ends as with any breach. -/
  lastBreach : ∀ {place call stream frame}, s.Awaits place call stream →
    call.inbox = some (.ok frame) → ¬ frame.isAnswer →
    s.options.maxProtocolErrors ≤ s.strikes + 1 →
      ∃ reason t later u, s.act (.move (.call place)) = some t ∧
        t = s.looked place call (s.strikes + 1)
          (.close .latch s.lastStrike (.error (.protocol reason))) ∧
        Run t later u ∧ later.map Prod.snd = List.replicate 4 (.move (.call place)) ∧
        u.phase = .closed ∧ u.outboxOpen = false ∧ u.inFlight.entries = [] ∧
        u.strikes = s.strikes + 1 ∧ u.stage? place = some (.done (.error (.protocol reason))) ∧
        ∀ other bystander, other ≠ place → s.calls[other]? = some bystander →
          (∀ exchange stream, bystander.stage = .await exchange stream →
            s.inFlight.get? stream = some other →
              u.calls[other]? = some { bystander with inbox := some (.error s.lastStrike) }) ∧
          ((∀ stream, s.inFlight.get? stream ≠ some other) → u.calls[other]? = some bystander)
  /-- A call that is told of a failure ends with it. -/
  told : ∀ {place call stream reason}, s.Awaits place call stream →
    call.inbox = some (.error reason) →
      s.act (.move (.call place)) = some (s.looked place call s.strikes (.done (.error reason)))
  /-- Whatever has happened since the session began to be closed, all that still wait are told. -/
  fails : ∀ {actor reason}, s.part? actor = some (.failWaiters, reason) →
    ∃ t, s.act (.move actor) = some t ∧ t.inFlight.entries = [] ∧
      ∀ place call exchange stream, s.calls[place]? = some call →
        call.stage = .await exchange stream → s.inFlight.get? stream = some place →
          t.calls[place]? = some { call with inbox := some (.error reason) }
  /-- A query that cannot be sent ends where it begins. -/
  refused : ∀ {place call err}, s.calls[place]? = some call → call.job = .query (.error err) →
    call.stage.isResting ∧ (call.stage = .begin →
      s.act (.move (.call place)) = some (s.moveTo place (.done (.error
        (if s.isClosed then .connectionClosed else .encode err)))))
  /-- A query for which there is no stream ends where it asks for one. -/
  exhausted : ∀ {place call request}, s.calls[place]? = some call →
    call.stage = .register (.query request) → s.inFlight.register place = none →
      s.act (.move (.call place)) = some (s.moveTo place (.done (.error .streamsExhausted)))

theorem Run.fails_waiting {options : SessionOptions} {steps : List (Session × Action)} {s : Session}
    (h : Run (.new options) steps s) {actor : Actor} {reason : ClientError}
    (hpart : s.part? actor = some (.failWaiters, reason)) :
    ∃ t, s.act (.move actor) = some t ∧ t.inFlight.entries = [] ∧
      ∀ place call exchange stream, s.calls[place]? = some call →
        call.stage = .await exchange stream → s.inFlight.get? stream = some place →
          t.calls[place]? = some { call with inbox := some (.error reason) } := by
  obtain ⟨t, hact, hdid⟩ := exists_did hpart
  refine ⟨t, hact, InFlight.entries_eq_nil (get?_of_fails hpart hact), ?_⟩
  intro place call exchange stream hcall hstage hplace
  have htold := (h.getElem?_failWaiters reason hcall).1 exchange stream hstage hplace
  by_cases hcalls : ∃ mover, actor = .call mover
  · obtain ⟨mover, rfl⟩ := hcalls
    obtain ⟨old, hold, hclose⟩ := Option.bind_eq_some_iff.mp hpart
    obtain ⟨result, rfl⟩ := stage_eq_of_part? hclose
    have hother : place ≠ mover := by
      rintro rfl
      rw [stage?_of_calls hcall, hstage] at hold
      cases hold
    cases (act_of_close hold).symm.trans hact
    rw [getElem?_moveTo_ne _ hother, htold]
  · obtain ⟨_, _, _, rfl⟩ := act_of_part? hpart (fun mover heq => hcalls ⟨mover, heq⟩) hact
    exact htold

theorem act_of_exhausted {s : Session} {place : Nat} {call : Call} {request : QueryRequest}
    (hcall : s.calls[place]? = some call) (hstage : call.stage = .register (.query request))
    (hnone : s.inFlight.register place = none) :
    s.act (.move (.call place)) = some (s.moveTo place (.done (.error .streamsExhausted))) := by
  simp only [act, move, moveCall, hcall, Option.bind_eq_bind, Option.bind_some, hstage, register,
    hnone, receive]

/-- In every session that can come about the failure of a query stays its own: it changes nothing
that calls share but the count of breaches, until that is full. -/
theorem Run.isolated {options : SessionOptions} {steps : List (Session × Action)} {s : Session}
    (h : Run (.new options) steps s) : s.Isolated where
  reads hawaits hplace hserving harrivals := by
    obtain ⟨request, hstage⟩ := hawaits.stage
    exact h.reads_response hawaits.call? hstage hplace hserving harrivals
  result hawaits hinbox hdecode := act_of_answered hawaits hinbox (Verdict.ofFrame_result hdecode)
  error hawaits hinbox hdecode := act_of_answered hawaits hinbox (Verdict.ofFrame_error hdecode)
  breach hawaits hinbox hbreach hfew := by
    obtain ⟨reason, hverdict⟩ := Verdict.ofFrame_breach hbreach
    refine ⟨reason, ?_⟩
    rw [act_of_breach hawaits hinbox hverdict, if_neg (Nat.not_le_of_lt hfew)]
  lastBreach {place call stream frame} hawaits hinbox hbreach hfull := by
    obtain ⟨reason, hverdict⟩ := Verdict.ofFrame_breach hbreach
    have hact := act_of_breach hawaits hinbox hverdict
    rw [if_pos hfull] at hact
    have hclose := stage?_looked hawaits.call? (s.strikes + 1)
      (.close .latch s.lastStrike (.error (.protocol reason)))
    obtain ⟨later, t, hlater, halone, hphase, houtbox, htable, hstrikes, hdone, hothers⟩ :=
      (h.act _ hact).closes_alone hclose
    refine ⟨reason, _, later, t, hact, rfl, hlater, halone, hphase, houtbox, htable, hstrikes,
      hdone, fun other bystander hother hcall => ?_⟩
    refine hothers other bystander hother ?_
    rw [looked, List.getElem?_set_ne hother.symm, hcall]
  told {place call stream reason} hawaits hinbox := by
    obtain ⟨hcall, request, hstage⟩ := hawaits
    rw [act_of_inbox hcall hstage hinbox, receive]
    exact congrArg some (looked_eq_moveTo s place call s.strikes _)
  fails hpart := h.fails_waiting hpart
  refused {place call err} hcall hjob := by
    have hquery : s.job? place = some (.query (.error err)) := by
      rw [job?_of_calls hcall, hjob]
    refine ⟨h.isResting_of_refused hquery (stage?_of_calls hcall), fun hbegin => ?_⟩
    rw [← firstStage_refused, ← hjob]
    exact moveCall_begin hcall hbegin
  exhausted hcall hstage hnone := act_of_exhausted hcall hstage hnone

/-- A session that a call for a query has opened, and in which nothing else has happened. -/
def opened (maxProtocolErrors : Nat) (request : QueryRequest) : Session :=
  { Session.new ⟨⟨"node", 9042⟩, "", standardVersion, .ofMillis 1000, maxProtocolErrors⟩ with
    phase := .active
    inFlight := ⟨1, ∅⟩
    outboxOpen := true
    queued := [(Handshake.startup standardVersion).frame 0]
    reader := ⟨.serving, false⟩
    writer := ⟨.serving, false⟩
    workersRecorded := true
    transport := .ready
    connects := 1
    calls := [⟨.query (.ok request), none, .settle, none⟩] }

theorem exists_run_opened (maxProtocolErrors : Nat) (request : QueryRequest) :
    ∃ steps, Silent (.new ⟨⟨"node", 9042⟩, "", standardVersion, .ofMillis 1000, maxProtocolErrors⟩)
      steps (opened maxProtocolErrors request) := by
  have hnew : Silent (.new ⟨⟨"node", 9042⟩, "", standardVersion, .ofMillis 1000, maxProtocolErrors⟩)
    _ _ := .start _
  have hcalled := hnew.act (.call (.query (.ok request)) none) rfl ⟨rfl, rfl⟩
  have hsettles := hcalled.act (.move (.call 0)) rfl ⟨rfl, rfl⟩
  have hclaims := hsettles.act (.move (.call 0)) rfl ⟨rfl, rfl⟩
  have hconnects := hclaims.act (.move (.call 0)) rfl ⟨rfl, rfl⟩
  have hready := hconnects.act (.transport .ready) rfl ⟨rfl, rfl⟩
  have hopens := hready.act (.move (.call 0)) rfl ⟨rfl, rfl⟩
  have hstarts := hopens.act (.move (.call 0)) rfl ⟨rfl, rfl⟩
  have hrecords := hstarts.act (.move (.call 0)) rfl ⟨rfl, rfl⟩
  have hregisters := hrecords.act (.move (.call 0)) rfl ⟨rfl, rfl⟩
  have hchecks := hregisters.act (.move (.call 0)) rfl ⟨rfl, rfl⟩
  have henqueues := hchecks.act (.move (.call 0)) rfl ⟨rfl, rfl⟩
  have hawaits := henqueues.act (.move (.call 0)) rfl ⟨rfl, rfl⟩
  have harrives := hawaits.act (.arrive (.ok (.response 0 .ready []))) rfl ⟨rfl, rfl⟩
  have hreads := harrives.act (.move .reader) rfl ⟨rfl, rfl⟩
  have hlands := hreads.act (.move (.call 0)) rfl ⟨rfl, rfl⟩
  exact ⟨_, hlands.act (.move (.call 0)) rfl ⟨rfl, rfl⟩⟩

/-- Such a session after the query has been sent. -/
def waiting (maxProtocolErrors : Nat) (request : QueryRequest) : Session :=
  { opened maxProtocolErrors request with
    inFlight := ⟨2, .insert ∅ 1 0⟩
    queued := [(Handshake.startup standardVersion).frame 0, (Request.query request).frame 1]
    calls := [⟨.query (.ok request), none, .await (.query request) 1, none⟩] }

theorem exists_run_waiting (maxProtocolErrors : Nat) (request : QueryRequest) :
    ∃ steps, Silent (.new ⟨⟨"node", 9042⟩, "", standardVersion, .ofMillis 1000, maxProtocolErrors⟩)
      steps (waiting maxProtocolErrors request) := by
  obtain ⟨_, hopened⟩ := exists_run_opened maxProtocolErrors request
  have hasks := hopened.act (.move (.call 0)) rfl ⟨rfl, rfl⟩
  have htakes := hasks.act (.move (.call 0)) rfl ⟨rfl, rfl⟩
  have hlooks := htakes.act (.move (.call 0)) rfl ⟨rfl, rfl⟩
  exact ⟨_, hlooks.act (.move (.call 0)) rfl ⟨rfl, rfl⟩⟩

/-- A single breach is one too many here: the node answers the first of two queries with a message
that is no answer, and the second one is told that the session is lost. -/
theorem isolated_of_bystander :
    ∃ steps s, Run (.new ⟨⟨"node", 9042⟩, "", standardVersion, .ofMillis 1000, 1⟩) steps s ∧
      ∃ reason t later u, s.act (.move (.call 0)) = some t ∧ Run t later u ∧ u.phase = .closed ∧
        u.stage? 0 = some (.done (.error (.protocol reason))) ∧
        u.calls[1]?.bind (·.inbox) =
          some (.error (.connectionLost "1 consecutive protocol errors")) := by
  let request : QueryRequest := ⟨"SELECT 1", .one, []⟩
  obtain ⟨_, hwaits, -, -⟩ := exists_run_waiting 1 request
  have hcalledToo := hwaits.act (.call (.query (.ok request)) none) rfl
  have hbeginsToo := hcalledToo.act (.move (.call 1)) rfl
  have hasksToo := hbeginsToo.act (.move (.call 1)) rfl
  have htakesToo := hasksToo.act (.move (.call 1)) rfl
  have hlooksToo := htakesToo.act (.move (.call 1)) rfl
  have hqueuesToo := hlooksToo.act (.move (.call 1)) rfl
  have hbreaks := hqueuesToo.act (.arrive (.ok (.response 1 .ready []))) rfl
  have hhears := hbreaks.act (.move .reader) rfl
  obtain ⟨reason, t, later, u, hact, -, hlater, -, hclosed, -, -, -, hdone, hothers⟩ :=
    hhears.isolated.lastBreach (show Awaits _ 0 _ 1 from ⟨rfl, request, rfl⟩) rfl (by decide)
      (by decide)
  refine ⟨_, _, hhears, reason, t, later, u, hact, hlater, hclosed, hdone, ?_⟩
  have htext : Integer.text ((0 : Nat) + 1) ++ " consecutive protocol errors" =
      "1 consecutive protocol errors" := by decide
  rw [(hothers 1 _ nofun rfl).1 _ 2 rfl rfl, ← htext]
  rfl

end CqlClient.Session
