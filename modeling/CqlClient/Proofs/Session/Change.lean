import CqlClient.Proofs.Failure
import CqlClient.Session.Step

/-!
What can happen to a session, case by case. A step of a call does one thing to what is shared and
puts the call at another stage. No other call does so, and neither the workers nor those who close
the session do.
-/

namespace CqlClient

/-- A handshake that was under way has come to an end, one way or the other. -/
def Phase.isSettled : Phase → Bool
  | .active | .paused | .closed => true
  | .uninitialized | .connecting => false

/-- Where an exchange can leave the call that was at it. -/
inductive Exchange.LeadsTo : Exchange → Stage → Prop
  | answered (request : QueryRequest) (result : CallResult) : LeadsTo (.query request) (.done result)
  | broken (exchange : Exchange) (reason : ClientError) (result : CallResult) :
      LeadsTo exchange (.close .latch reason result)
  | keyspace (deadline later : Nat) : LeadsTo (.startup deadline) (.register (.use later))
  | ready (deadline : Nat) : LeadsTo (.startup deadline) .land
  | chosen (deadline : Nat) : LeadsTo (.use deadline) .land

/-- Whether the call is over, but for closing the session. -/
def Stage.isOver : Stage → Bool
  | .close .. | .done _ | .dropped => true
  | _ => false

namespace Session

/-- The stage of the call at a place. -/
def stage? (s : Session) (place : Nat) : Option Stage := s.calls[place]?.map (·.stage)

/-- One step of the call at a place, from its stage: what it does to what is shared, and the stage
that it goes to. -/
inductive Leads (s : Session) (place : Nat) (call : Call) : Stage → Session → Stage → Prop
  | begin : Leads s place call .begin s (s.firstStage call.job)
  | settle {stage : Stage} (h : s.settled call.job = some stage) : Leads s place call .settle s stage
  | claim (h : s.phase = .uninitialized) (deadline : Nat) :
      Leads s place call .claim { s with phase := .connecting, connects := s.connects + 1 }
        (.connect deadline)
  | claimed (h : s.phase ≠ .uninitialized) : Leads s place call .claim s .settle
  | connect (deadline : Nat) : Leads s place call (.connect deadline) s .openOutbox
  | unreachable (deadline : Nat) (reason : ClientError) (result : CallResult) :
      Leads s place call (.connect deadline) s (.close .latch reason result)
  | openOutbox : Leads s place call .openOutbox { s with outboxOpen := true } .startWorkers
  | startWorkers :
      Leads s place call .startWorkers
        { s with
          reader := { s.reader with duty := .serving }
          writer := { s.writer with duty := .serving } } .recordWorkers
  | recordWorkers (deadline : Nat) :
      Leads s place call .recordWorkers { s with workersRecorded := true }
        (.register (.startup deadline))
  | register {exchange : Exchange} {stream : Int16} {table : InFlight Nat}
      (h : s.inFlight.register place = some (stream, table)) :
      Leads s place call (.register exchange) { s with inFlight := table } (.check exchange stream)
  | exhausted {exchange : Exchange} {stage : Stage} (hto : exchange.LeadsTo stage)
      (hover : stage.isOver) : Leads s place call (.register exchange) s stage
  | check (h : s.phase ≠ .closed) (exchange : Exchange) (stream : Int16) :
      Leads s place call (.check exchange stream) s (.enqueue exchange stream)
  | refused {exchange : Exchange} {stage : Stage} (stream : Int16) (hto : exchange.LeadsTo stage)
      (hover : stage.isOver) : Leads s place call (.check exchange stream) (s.cancel stream) stage
  | enqueue (h : s.outboxOpen) (exchange : Exchange) (stream : Int16) :
      Leads s place call (.enqueue exchange stream)
        { s with queued := s.queued ++ [(s.request exchange).frame stream] } (.await exchange stream)
  | lost (h : s.outboxOpen = false) {exchange : Exchange} {stage : Stage} (stream : Int16)
      (hto : exchange.LeadsTo stage) (hover : stage.isOver) :
      Leads s place call (.enqueue exchange stream) (s.cancel stream) stage
  | await {exchange : Exchange} {stage : Stage} {result : Except ClientError Frame}
      (h : call.inbox = some result) (stream : Int16) (strikes : Nat)
      (hto : exchange.LeadsTo stage) :
      Leads s place call (.await exchange stream)
        { s with calls := s.calls.set place { call with inbox := none }, strikes } stage
  | land (h : s.phase = .connecting) {phase : Phase} (hphase : phase.isSettled) :
      Leads s place call .land { s with phase, pauseRequested := false } .settle
  | closed (h : s.phase ≠ .connecting) (reason : ClientError) (result : CallResult) :
      Leads s place call .land s (.close .latch reason result)
  | close (part : Closing) (reason : ClientError) (result : CallResult) :
      Leads s place call (.close part reason result) (s.closePart reason part)
        (stageAfter part reason result)

/-! ## Stages that stay -/

theorem stage?_of_calls {s : Session} {place : Nat} {call : Call} (h : s.calls[place]? = some call) :
    s.stage? place = some call.stage := by
  rw [stage?, h]
  rfl

theorem getElem?_moveTo (s : Session) (place other : Nat) (stage : Stage) :
    (s.moveTo place stage).calls[other]? =
      if place = other then s.calls[other]?.map fun call => { call with stage }
      else s.calls[other]? := by
  rw [moveTo, List.getElem?_modify]
  split
  · rfl
  · exact Option.map_id'

theorem getElem?_moveTo_ne (s : Session) {place other : Nat} (h : other ≠ place) (stage : Stage) :
    (s.moveTo place stage).calls[other]? = s.calls[other]? := by
  rw [getElem?_moveTo, if_neg (Ne.symm h)]

theorem getElem?_moveTo_self {s : Session} {place : Nat} {call : Call}
    (h : s.calls[place]? = some call) (stage : Stage) :
    (s.moveTo place stage).calls[place]? = some { call with stage } := by
  rw [getElem?_moveTo, if_pos rfl, h]
  rfl

theorem stage?_moveTo_self {s : Session} {place : Nat} {old : Stage} (h : s.stage? place = some old)
    (stage : Stage) : (s.moveTo place stage).stage? place = some stage := by
  obtain ⟨call, hcall, -⟩ := Option.map_eq_some_iff.mp h
  rw [stage?, getElem?_moveTo_self hcall]
  rfl

theorem stage?_moveTo_ne (s : Session) {place other : Nat} (h : place ≠ other) (stage : Stage) :
    (s.moveTo place stage).stage? other = s.stage? other := by
  rw [stage?, getElem?_moveTo_ne s h.symm, stage?]

theorem stage?_call (s : Session) (job : Job) (limit : Option Span) (place : Nat) :
    (s.call job limit).stage? place =
      if place = s.calls.length then some .begin else s.stage? place := by
  rw [stage?, call, List.getElem?_append]
  split
  · next hlt => rw [if_neg (Nat.ne_of_lt hlt), stage?]
  · next hge =>
    split
    · next heq => rw [heq, Nat.sub_self]; rfl
    · next hne =>
      have hbeyond : s.calls[place]? = none := List.getElem?_eq_none (by omega)
      have hlast : place - s.calls.length ≠ 0 := by omega
      rw [stage?, hbeyond, List.getElem?_cons, if_neg hlast, List.getElem?_nil]

theorem getElem?_hand (s : Session) (place other : Nat) (result : Except ClientError Frame) :
    (s.hand place result).calls[other]? =
      if place = other then s.calls[other]?.map (·.accept result) else s.calls[other]? := by
  rw [hand, List.getElem?_modify]
  split
  · rfl
  · exact Option.map_id'

theorem stage_accept (call : Call) (result : Except ClientError Frame) :
    (call.accept result).stage = call.stage := by
  unfold Call.accept
  split <;> rfl

@[simp] theorem stage?_hand (s : Session) (place other : Nat) (result : Except ClientError Frame) :
    (s.hand place result).stage? other = s.stage? other := by
  rw [stage?, getElem?_hand, stage?]
  split
  · cases s.calls[other]? with
    | none => rfl
    | some call => exact congrArg some (stage_accept call result)
  · rfl

@[simp] theorem stage?_cancel (s : Session) (stream : Int16) (place : Nat) :
    (s.cancel stream).stage? place = s.stage? place := by
  unfold cancel
  split
  · rfl
  · exact stage?_hand ..

@[simp] theorem phase_cancel (s : Session) (stream : Int16) : (s.cancel stream).phase = s.phase := by
  unfold cancel
  split <;> rfl

/-- A call that takes what it was handed stays where it is. -/
theorem stage?_set_inbox {s : Session} {place : Nat} {call : Call}
    (h : s.calls[place]? = some call) (inbox : Option (Except ClientError Frame)) (other : Nat) :
    { s with calls := s.calls.set place { call with inbox } }.stage? other = s.stage? other := by
  by_cases hsame : place = other
  · subst hsame
    rw [stage?, List.getElem?_set_self' , h, stage?, h]
    rfl
  · rw [stage?, List.getElem?_set_ne hsame, stage?]

/-- What stays when a call is handed an error stays when the waiters are failed, one by one. -/
theorem closePart_failWaiters {P : Session → Prop} {s : Session} (reason : ClientError)
    (hhand : ∀ u place, P u → P (u.hand place (.error reason)))
    (h : P { s with inFlight := s.inFlight.drain.2 }) : P (s.closePart reason .failWaiters) := by
  rw [closePart]
  rcases hdrain : s.inFlight.drain with ⟨waiters, table⟩
  rw [hdrain] at h
  clear hdrain
  dsimp only at h ⊢
  generalize { s with inFlight := table } = u at h ⊢
  induction waiters generalizing u with
  | nil => exact h
  | cons waiter waiters ih => exact ih _ (hhand u waiter.2 h)

@[simp] theorem stage?_closePart (s : Session) (reason : ClientError) (part : Closing) :
    (s.closePart reason part).stage? = s.stage? := by
  cases part with
  | latch | dropOutbox => rfl
  | stopWorkers =>
      rw [closePart]
      split <;> rfl
  | failWaiters =>
      refine closePart_failWaiters (P := fun u => u.stage? = s.stage?) reason ?_ rfl
      intro u place h
      exact (funext (stage?_hand u place · _)).trans h

theorem phase_closePart (s : Session) (reason : ClientError) (part : Closing) :
    (s.closePart reason part).phase = if part = .latch then .closed else s.phase := by
  cases part with
  | latch | dropOutbox => rfl
  | stopWorkers =>
      rw [closePart]
      split <;> rfl
  | failWaiters =>
      exact closePart_failWaiters (P := fun u => u.phase = s.phase) reason (fun _ _ => id) rfl

/-- Taking a stream out of the table concerns nothing but the table and the calls. -/
theorem cancel_eq (s : Session) (stream : Int16) :
    ∃ inFlight calls, s.cancel stream = { s with inFlight, calls } := by
  unfold cancel
  split
  · exact ⟨s.inFlight, s.calls, rfl⟩
  · exact ⟨_, _, rfl⟩

theorem closePart_eq (s : Session) (reason : ClientError) (part : Closing) :
    ∃ phase outboxOpen reader writer inFlight calls, s.closePart reason part =
      { s with phase, outboxOpen, reader, writer, inFlight, calls } := by
  cases part with
  | latch => exact ⟨.closed, s.outboxOpen, s.reader, s.writer, s.inFlight, s.calls, rfl⟩
  | dropOutbox => exact ⟨s.phase, false, s.reader, s.writer, s.inFlight, s.calls, rfl⟩
  | stopWorkers =>
      rw [closePart]
      split
      · exact ⟨s.phase, s.outboxOpen, _, _, s.inFlight, s.calls, rfl⟩
      · exact ⟨s.phase, s.outboxOpen, s.reader, s.writer, s.inFlight, s.calls, rfl⟩
  | failWaiters =>
      refine ⟨s.phase, s.outboxOpen, s.reader, s.writer, ?_⟩
      refine closePart_failWaiters (P := fun u => ∃ inFlight calls,
        u = { s with inFlight, calls }) reason ?_ ⟨_, _, rfl⟩
      rintro u place ⟨inFlight, calls, rfl⟩
      exact ⟨_, _, rfl⟩

/-! ## The step of a call -/

/-- What has been received moves a call on and touches nothing but the count of breaches. -/
theorem receive_eq_moveTo (s : Session) (place : Nat) (exchange : Exchange)
    (result : Except ClientError Frame) :
    ∃ strikes stage, s.receive place exchange result = { s with strikes }.moveTo place stage ∧
      exchange.LeadsTo stage := by
  unfold receive
  split
  · exact ⟨s.strikes, _, rfl, .answered ..⟩
  · next request frame =>
    unfold conclude
    split
    · exact ⟨0, _, rfl, .answered ..⟩
    · rcases hstrike : s.strike with ⟨u, closing⟩
      obtain rfl : { s with strikes := s.strikes + 1 } = u := congrArg Prod.fst hstrike
      cases closing with
      | none => exact ⟨s.strikes + 1, _, rfl, .answered ..⟩
      | some reason => exact ⟨s.strikes + 1, _, rfl, .broken ..⟩
  · exact ⟨s.strikes, _, rfl, .broken ..⟩
  · split
    · unfold afterStartup
      split
      · exact ⟨s.strikes, _, rfl, .ready ..⟩
      · split
        · exact ⟨s.strikes, _, rfl, .broken ..⟩
        · exact ⟨s.strikes, _, rfl, .keyspace ..⟩
    · exact ⟨s.strikes, _, rfl, .broken ..⟩
  · split
    · exact ⟨s.strikes, _, rfl, .chosen ..⟩
    · exact ⟨s.strikes, _, rfl, .broken ..⟩

/-- An error is the end of a call, which at most closes the session. -/
theorem receive_error_eq_moveTo (s : Session) (place : Nat) (exchange : Exchange)
    (err : ClientError) :
    ∃ stage, s.receive place exchange (.error err) = s.moveTo place stage ∧
      exchange.LeadsTo stage ∧ stage.isOver := by
  cases exchange with
  | query => exact ⟨_, rfl, .answered .., rfl⟩
  | startup | use => exact ⟨_, rfl, .broken .., rfl⟩

/-- Whatever a call does is one of the steps from its stage. -/
theorem leads_of_moveCall {s t : Session} {place : Nat} (h : s.moveCall place = some t) :
    ∃ call u stage, s.calls[place]? = some call ∧ Leads s place call call.stage u stage ∧
      t = u.moveTo place stage := by
  obtain ⟨call, hcall, h⟩ := Option.bind_eq_some_iff.mp h
  refine ⟨call, ?_⟩
  cases hstage : call.stage with
  | begin =>
      rw [hstage] at h
      cases h
      exact ⟨_, _, hcall, .begin, rfl⟩
  | settle =>
      rw [hstage] at h
      obtain ⟨stage, hsettled, rfl⟩ := Option.map_eq_some_iff.mp h
      exact ⟨_, _, hcall, .settle hsettled, rfl⟩
  | claim =>
      rw [hstage] at h
      cases h
      by_cases hfirst : s.phase = .uninitialized
      · rw [claim, if_pos hfirst]
        exact ⟨_, _, hcall, .claim hfirst _, rfl⟩
      · rw [claim, if_neg hfirst]
        exact ⟨_, _, hcall, .claimed hfirst, rfl⟩
  | connect deadline =>
      rw [hstage] at h
      rcases htransport : s.transport with _ | _ | reason <;> rw [htransport] at h <;> cases h
      · exact ⟨_, _, hcall, .connect _, rfl⟩
      · exact ⟨_, _, hcall, .unreachable .., rfl⟩
  | openOutbox =>
      rw [hstage] at h
      cases h
      exact ⟨_, _, hcall, .openOutbox, rfl⟩
  | startWorkers =>
      rw [hstage] at h
      cases h
      exact ⟨_, _, hcall, .startWorkers, rfl⟩
  | recordWorkers =>
      rw [hstage] at h
      cases h
      exact ⟨_, _, hcall, .recordWorkers _, rfl⟩
  | register exchange =>
      rw [hstage] at h
      cases h
      unfold register
      split
      · obtain ⟨stage, heq, hto, hover⟩ := receive_error_eq_moveTo s place exchange .streamsExhausted
        exact ⟨_, _, hcall, .exhausted hto hover, heq⟩
      · next hregister => exact ⟨_, _, hcall, .register hregister, rfl⟩
  | check exchange stream =>
      rw [hstage] at h
      by_cases hclosed : s.isClosed
      · simp only [hclosed, if_true, Option.some_inj] at h
        subst h
        obtain ⟨stage, heq, hto, hover⟩ :=
          receive_error_eq_moveTo (s.cancel stream) place exchange .connectionClosed
        exact ⟨_, _, hcall, .refused stream hto hover, heq⟩
      · simp only [hclosed] at h
        cases h
        have hopen : s.phase ≠ .closed := by simpa [isClosed] using hclosed
        exact ⟨_, _, hcall, .check hopen .., rfl⟩
  | enqueue exchange stream =>
      rw [hstage] at h
      cases h
      unfold enqueue
      split
      · next hopen => exact ⟨_, _, hcall, .enqueue hopen .., rfl⟩
      · next hgone =>
        obtain ⟨stage, heq, hto, hover⟩ :=
          receive_error_eq_moveTo (s.cancel stream) place exchange .connectionClosed
        exact ⟨_, _, hcall, .lost (by simpa using hgone) stream hto hover, heq⟩
  | await exchange stream =>
      rw [hstage] at h
      obtain ⟨result, hinbox, h⟩ := Option.bind_eq_some_iff.mp h
      cases h
      obtain ⟨strikes, stage, heq, hto⟩ := receive_eq_moveTo
        { s with calls := s.calls.set place { call with inbox := none } } place exchange result
      rw [hstage] at heq
      have hleads : Leads s place call (.await exchange stream) _ stage :=
        .await hinbox stream strikes hto
      rw [hstage] at hleads
      exact ⟨_, _, hcall, hleads, heq⟩
  | land =>
      rw [hstage] at h
      cases h
      unfold land
      split
      · next hconnecting =>
        have hsettled : (if s.pauseRequested then Phase.paused else .active).isSettled := by
          split <;> rfl
        exact ⟨_, _, hcall, .land hconnecting hsettled, rfl⟩
      · next hlate => exact ⟨_, _, hcall, .closed hlate .., rfl⟩
  | close part reason result =>
      rw [hstage] at h
      cases h
      exact ⟨_, _, hcall, .close .., rfl⟩
  | done result | dropped => rw [hstage] at h; cases h

/-- A step of a call does no more to the stages than to move the call. -/
theorem Leads.stage?_eq {s u : Session} {place : Nat} {call : Call} {old stage : Stage}
    (h : Leads s place call old u stage) (hcall : s.calls[place]? = some call) :
    u.stage? = s.stage? := by
  funext other
  cases h with
  | refused stream | lost _ stream => exact stage?_cancel s stream other
  | await => exact stage?_set_inbox hcall none other
  | close part reason => rw [stage?_closePart]
  | _ => rfl

/-! ## All actions -/

/-- The call that an action is a step or the end of. -/
def Action.place? : Action → Option Nat
  | .abandon place | .giveUpWait place | .giveUpCall place | .move (.call place) => some place
  | _ => none

/-- What happens without a call: by the workers, by those who close the session, or from outside. -/
inductive Works (s : Session) : Action → Session → Prop
  | reads {frame : Frame} {rest : List (Except ProtocolError Frame)} (hserving : s.reader.isServing)
      (harrivals : s.arrivals = .ok frame :: rest) :
      Works s (.move .reader) ({ s with arrivals := rest }.dispatch frame)
  | ends {err : ProtocolError} {rest : List (Except ProtocolError Frame)}
      (hserving : s.reader.isServing) (harrivals : s.arrivals = .error err :: rest) :
      Works s (.move .reader)
        { s with
          arrivals := rest
          reader := { s.reader with duty := .closing .latch (lossReason err) true } }
  | strikes {duty : Duty} (hstriking : s.reader.duty = .striking)
      (hduty : duty = .serving ∨ ∃ reason, duty = .closing .latch reason false) (strikes : Nat) :
      Works s (.move .reader) { s with strikes, reader := { s.reader with duty } }
  | readerCloses {part : Closing} {reason : ClientError} {last : Bool} {u : Session}
      (hduty : s.reader.duty = .closing part reason last) (hclose : s.closePart reason part = u) :
      Works s (.move .reader)
        { u with reader := { u.reader with duty := dutyAfter part reason last } }
  | writes {frame : Frame} {rest : List Frame} (hqueued : s.queued = frame :: rest) :
      Works s (.move .writer) { s with queued := rest, sent := s.sent ++ [frame] }
  | finishes : Works s (.move .writer) { s with writer := { s.writer with duty := .over } }
  | writerCloses {part : Closing} {reason : ClientError} {last : Bool} {u : Session}
      (hduty : s.writer.duty = .closing part reason last) (hclose : s.closePart reason part = u) :
      Works s (.move .writer)
        { u with writer := { u.writer with duty := dutyAfter part reason last } }
  | closes {place : Nat} {part : Closing} {u : Session}
      (hcloser : s.closers[place]? = some (some part))
      (hclose : s.closePart .connectionClosed part = u) :
      Works s (.move (.closer place)) { u with closers := u.closers.set place part.next? }
  | pause : Works s .pause s.pause
  | resume : Works s .resume s.resume
  | close : Works s .close s.close
  | transport (outcome : Transport) :
      Works s (.transport outcome) { s with transport := outcome }
  | arrive (arrival : Except ProtocolError Frame) :
      Works s (.arrive arrival) { s with arrivals := s.arrivals ++ [arrival] }
  | breakWriter (reason : String) :
      Works s (.breakWriter reason)
        { s with writer := { s.writer with duty := .closing .latch (.transportReset reason) true } }
  | wait (span : Span) : Works s (.wait span) { s with clock := s.clock + span.nanos }

/-- All that can happen to a session. -/
inductive Change (s : Session) : Action → Session → Prop
  | moves {place : Nat} {call : Call} {u : Session} {stage : Stage}
      (hcall : s.calls[place]? = some call) (h : Leads s place call call.stage u stage) :
      Change s (.move (.call place)) (u.moveTo place stage)
  /-- The handshake waits no longer. -/
  | waitOver {place : Nat} {stage : Stage} (hstage : s.stage? place = some stage)
      {wait : HandshakeError} (h : s.waitOver stage = some wait) (err : ClientError) :
      Change s (.giveUpWait place) (s.fail place err)
  /-- The caller waits no longer. -/
  | left {place : Nat} {action : Action} (h : action = .abandon place ∨ action = .giveUpCall place)
      {old stage : Stage} (hold : s.stage? place = some old)
      (hstage : stage = .dropped ∨ ∃ result, stage = .done result) :
      Change s action (s.moveTo place stage)
  | called (job : Job) (limit : Option Span) : Change s (.call job limit) (s.call job limit)
  | works {action : Action} {t : Session} (h : s.Works action t) : Change s action t

theorem works_of_moveReader {s t : Session} (h : s.moveReader = some t) :
    s.Works (.move .reader) t := by
  unfold moveReader at h
  split at h
  · next hduty =>
    split at h
    · cases h
    · next hstopped =>
      have hserving : s.reader.isServing := by simp [Worker.isServing, hduty, hstopped]
      split at h <;> cases h
      · next harrivals => exact .reads hserving harrivals
      · next harrivals => exact .ends hserving harrivals
  · next hduty =>
    unfold strike at h
    dsimp only at h
    by_cases hmany : s.options.maxProtocolErrors ≤ s.strikes + 1
    · rw [if_pos hmany] at h
      cases h
      exact .strikes hduty (.inr ⟨_, rfl⟩) _
    · rw [if_neg hmany] at h
      cases h
      exact .strikes hduty (.inl rfl) _
  · next hduty =>
    cases h
    exact .readerCloses hduty rfl
  · cases h
  · cases h

theorem works_of_moveWriter {s t : Session} (h : s.moveWriter = some t) :
    s.Works (.move .writer) t := by
  unfold moveWriter at h
  split at h
  · split at h
    · cases h
    · split at h
      · next hqueued =>
        cases h
        exact .writes hqueued
      · split at h <;> cases h
        exact .finishes
  · next hduty =>
    cases h
    exact .writerCloses hduty rfl
  · cases h
  · cases h
  · cases h

theorem works_of_moveCloser {s t : Session} {place : Nat} (h : s.moveCloser place = some t) :
    s.Works (.move (.closer place)) t := by
  unfold moveCloser at h
  split at h
  · next hcloser =>
    cases h
    exact .closes hcloser rfl
  · cases h

theorem change_of_act {s t : Session} {action : Action} (h : s.act action = some t) :
    s.Change action t := by
  cases action with
  | call job limit => cases h; exact .called ..
  | abandon place =>
      obtain ⟨call, hcall, h⟩ := Option.bind_eq_some_iff.mp h
      have hold : s.stage? place = some call.stage := stage?_of_calls hcall
      split at h <;> cases h <;> exact .left (.inl rfl) hold (.inl rfl)
  | giveUpWait place =>
      obtain ⟨call, hcall, h⟩ := Option.bind_eq_some_iff.mp h
      obtain ⟨err, herr, h⟩ := Option.bind_eq_some_iff.mp h
      cases h
      exact .waitOver (stage?_of_calls hcall) herr _
  | giveUpCall place =>
      obtain ⟨call, hcall, h⟩ := Option.bind_eq_some_iff.mp h
      obtain ⟨patience, -, h⟩ := Option.bind_eq_some_iff.mp h
      split at h <;> cases h
      exact .left (.inr rfl) (stage?_of_calls hcall) (.inr ⟨_, rfl⟩)
  | pause => cases h; exact .works .pause
  | resume => cases h; exact .works .resume
  | close => cases h; exact .works .close
  | transport outcome => cases h; exact .works (.transport outcome)
  | arrive arrival => cases h; exact .works (.arrive arrival)
  | wait span => cases h; exact .works (.wait span)
  | breakWriter reason =>
      simp only [act, breakWriter] at h
      split at h <;> cases h
      exact .works (.breakWriter reason)
  | move actor =>
      cases actor with
      | reader => exact .works (works_of_moveReader h)
      | writer => exact .works (works_of_moveWriter h)
      | closer place => exact .works (works_of_moveCloser h)
      | call place =>
          obtain ⟨call, u, stage, hcall, hleads, rfl⟩ := leads_of_moveCall h
          exact .moves hcall hleads

/-! ## What happens without a call -/

theorem stage?_dispatch (s : Session) (frame : Frame) : (s.dispatch frame).stage? = s.stage? := by
  funext place
  unfold dispatch
  split
  · rfl
  · split
    · exact stage?_hand ..
    · rfl

/-- Handing a frame on concerns nothing but the table, the calls and the reader. -/
theorem dispatch_eq (s : Session) (frame : Frame) :
    ∃ inFlight calls reader, s.dispatch frame = { s with inFlight, calls, reader } := by
  unfold dispatch
  split
  · exact ⟨s.inFlight, s.calls, s.reader, rfl⟩
  · split
    · exact ⟨_, _, s.reader, rfl⟩
    · exact ⟨s.inFlight, s.calls, _, rfl⟩

theorem phase_dispatch (s : Session) (frame : Frame) : (s.dispatch frame).phase = s.phase := by
  unfold dispatch
  split
  · rfl
  · split <;> rfl

theorem Works.place?_eq_none {s t : Session} {action : Action} (h : s.Works action t) :
    action.place? = none := by
  cases h <;> rfl

theorem Works.stage?_eq {s t : Session} {action : Action} (h : s.Works action t) :
    t.stage? = s.stage? := by
  cases h with
  | reads => exact stage?_dispatch ..
  | @readerCloses part reason _ _ _ hclose | @writerCloses part reason _ _ _ hclose =>
      subst hclose
      exact stage?_closePart s reason part
  | @closes _ part _ _ hclose =>
      subst hclose
      exact stage?_closePart s _ part
  | pause =>
      unfold Session.pause
      split <;> rfl
  | _ => rfl

/-- Without a call the handshake can neither begin nor succeed. -/
theorem Works.phase {s t : Session} {action : Action} (h : s.Works action t) :
    t.phase = s.phase ∨ t.phase = .closed ∨ s.phase.isSettled ∧ t.phase.isSettled := by
  have hclosePart (reason : ClientError) (part : Closing) :
      (s.closePart reason part).phase = s.phase ∨ (s.closePart reason part).phase = .closed := by
    rw [phase_closePart]
    split
    · exact .inr rfl
    · exact .inl rfl
  cases h with
  | reads => exact .inl (phase_dispatch ..)
  | readerCloses _ hclose | writerCloses _ hclose | closes _ hclose =>
      subst hclose
      exact (hclosePart ..).imp_right .inl
  | pause =>
      unfold Session.pause
      split
      · next hactive => exact .inr (.inr ⟨by rw [hactive]; rfl, rfl⟩)
      all_goals exact .inl rfl
  | resume =>
      by_cases hpaused : s.phase = .paused
      · refine .inr (.inr ⟨by rw [hpaused]; rfl, ?_⟩)
        simp only [Session.resume, hpaused]
        rfl
      · exact .inl (by simp only [Session.resume, if_neg hpaused])
  | _ => exact .inl rfl

end Session

end CqlClient
