import CqlClient.Proofs.InFlight
import CqlClient.Proofs.Session.Shutdown

/-!
A session and its node. A ledger is kept of the requests that have been queued, of the answers that
the reader has read and of what has arrived since. The node answers a request that it has been sent
at most once, on its stream, in any order; all else that it sends are events.
-/

namespace CqlClient

/-- The stream that a call waits on, or is about to. -/
def Stage.stream? : Stage → Option Int16
  | .check _ stream | .enqueue _ stream | .await _ stream => some stream
  | _ => none

theorem Call.hasStream_eq (call : Call) : call.hasStream = call.stage.stream?.isSome := by
  unfold Call.hasStream Stage.stream?
  cases call.stage <;> rfl

/-- A request that a call has queued. -/
structure Asked where
  place : Nat
  exchange : Exchange
  stream : Int16

/-- What has been asked and answered. A request goes by its number in the order of the queue. -/
structure Ledger where
  asked : List Asked
  /-- The answers that have been read, each with the request that it answers. -/
  read : List (Nat × Frame)
  /-- What has arrived and has not been read; an answer stands with the request that it answers. -/
  unread : List (Option Nat × Except ProtocolError Frame)

namespace Ledger

def empty : Ledger := ⟨[], [], []⟩

/-- The requests that the node has answered. -/
def answered (ledger : Ledger) : List Nat :=
  ledger.read.map Prod.fst ++ ledger.unread.filterMap Prod.fst

/-- What may arrive: an answer to a request that the node has been sent and has not answered yet, on
the stream of that request, or an event, or that nothing more can be read. -/
def Allows (ledger : Ledger) (s : Session) : Option Nat → Except ProtocolError Frame → Prop
  | some n, .ok frame =>
    n ∉ ledger.answered ∧ (s.sent[n]?).map (·.stream) = some frame.stream
  | none, .ok frame => frame.stream = Frame.eventStream
  | none, .error _ => True
  | some _, .error _ => False

def ask (ledger : Ledger) (asked : Asked) : Ledger :=
  { ledger with asked := ledger.asked ++ [asked] }

/-- The first of what has arrived has been read. -/
def readNext (ledger : Ledger) : Ledger :=
  match ledger.unread with
  | (some n, .ok frame) :: rest =>
    { ledger with read := ledger.read ++ [(n, frame)], unread := rest }
  | _ :: rest => { ledger with unread := rest }
  | [] => ledger

/-- The ledger after an action: the reader may read, and a call may queue its request. -/
def record (ledger : Ledger) (s : Session) : Session.Action → Ledger
  | .move .reader => if s.reader.isServing then ledger.readNext else ledger
  | .move (.call place) =>
    match s.stage? place with
    | some (.enqueue exchange stream) =>
      if s.outboxOpen then ledger.ask ⟨place, exchange, stream⟩ else ledger
    | _ => ledger
  | _ => ledger

/-- A request of a call after which the call has made no other. -/
def Latest (ledger : Ledger) (n : Nat) (asked : Asked) : Prop :=
  ledger.asked[n]? = some asked ∧
    ∀ (m : Nat) (other : Asked), ledger.asked[m]? = some other → other.place = asked.place → m ≤ n

/-- A request whose answer has not been read. -/
def Outstanding (ledger : Ledger) (n : Nat) (asked : Asked) : Prop :=
  ledger.asked[n]? = some asked ∧ n ∉ ledger.read.map Prod.fst

/-- The frame is on the stream of the request. -/
def Answers (ledger : Ledger) (n : Nat) (frame : Frame) : Prop :=
  ∃ asked, ledger.asked[n]? = some asked ∧ frame.stream = asked.stream

theorem record_lost {ledger : Ledger} {s : Session} {place : Nat} {stage : Stage}
    (hstage : s.stage? place = some stage)
    (hlost : ∀ exchange stream, stage = .enqueue exchange stream → s.outboxOpen = false) :
    ledger.record s (.move (.call place)) = ledger := by
  cases stage with
  | enqueue exchange stream =>
      have hgone := hlost exchange stream rfl
      simp [record, hstage, hgone]
  | _ => simp only [record, hstage]

theorem record_call {ledger : Ledger} {s : Session} {place : Nat} {call : Call}
    (hcall : s.calls[place]? = some call)
    (hother : ∀ exchange stream, call.stage ≠ .enqueue exchange stream) :
    ledger.record s (.move (.call place)) = ledger := by
  apply record_lost (Session.stage?_of_calls hcall)
  intro exchange stream heq
  exact absurd heq (hother exchange stream)

/-- A reader that does something else does not read. -/
theorem record_busy {ledger : Ledger} {s : Session} (h : s.reader.duty ≠ .serving) :
    ledger.record s (.move .reader) = ledger := by
  simp [record, Worker.isServing, h]

theorem record_enqueue {ledger : Ledger} {s : Session} {place : Nat} {exchange : Exchange}
    {stream : Int16} (hstage : s.stage? place = some (.enqueue exchange stream))
    (hopen : s.outboxOpen) :
    ledger.record s (.move (.call place)) = ledger.ask ⟨place, exchange, stream⟩ := by
  simp only [record, hstage, hopen, if_true]

/-! ## What is read -/

theorem readNext_answer {ledger : Ledger} {n : Nat} {frame : Frame}
    {later : List (Option Nat × Except ProtocolError Frame)}
    (h : ledger.unread = (some n, .ok frame) :: later) :
    ledger.readNext = { ledger with read := ledger.read ++ [(n, frame)], unread := later } := by
  rw [readNext, h]

theorem readNext_event {ledger : Ledger} {arrival : Except ProtocolError Frame}
    {later : List (Option Nat × Except ProtocolError Frame)}
    (h : ledger.unread = (none, arrival) :: later) :
    ledger.readNext = { ledger with unread := later } := by
  rw [readNext, h]

theorem readNext_error {ledger : Ledger} {answered : Option Nat} {err : ProtocolError}
    {later : List (Option Nat × Except ProtocolError Frame)}
    (h : ledger.unread = (answered, .error err) :: later) :
    ledger.readNext = { ledger with unread := later } := by
  rw [readNext, h]
  cases answered <;> rfl

theorem Latest.of_asked {ledger later : Ledger} {n : Nat} {asked : Asked}
    (h : ledger.Latest n asked) (hasked : later.asked = ledger.asked) : later.Latest n asked := by
  unfold Latest at h ⊢
  rwa [hasked]

/-! ## One more request -/

theorem getElem?_ask {ledger : Ledger} {n : Nat} {asked : Asked} (h : ledger.asked[n]? = some asked)
    (new : Asked) : (ledger.ask new).asked[n]? = some asked := by
  obtain ⟨hlt, -⟩ := List.getElem?_eq_some_iff.mp h
  rw [ask, List.getElem?_append_left hlt, h]

theorem getElem?_ask_cases {ledger : Ledger} {n : Nat} {asked new : Asked}
    (h : (ledger.ask new).asked[n]? = some asked) :
    ledger.asked[n]? = some asked ∨ n = ledger.asked.length ∧ asked = new := by
  rw [ask, List.getElem?_append] at h
  split at h
  · exact .inl h
  · rw [List.getElem?_singleton] at h
    split at h <;> cases h
    exact .inr ⟨by omega, rfl⟩

theorem Outstanding.of_ask {ledger : Ledger} {n : Nat} {asked new : Asked}
    (h : (ledger.ask new).Outstanding n asked) :
    ledger.Outstanding n asked ∨ n = ledger.asked.length ∧ asked = new :=
  (getElem?_ask_cases h.1).imp_left fun hold => ⟨hold, h.2⟩

theorem Answers.ask {ledger : Ledger} {n : Nat} {frame : Frame} (h : ledger.Answers n frame)
    (new : Asked) : (ledger.ask new).Answers n frame := by
  obtain ⟨asked, hasked, hstream⟩ := h
  exact ⟨asked, getElem?_ask hasked new, hstream⟩

/-- A call has made no other request when another call makes one. -/
theorem Latest.ask {ledger : Ledger} {n : Nat} {asked new : Asked} (h : ledger.Latest n asked)
    (hplace : new.place ≠ asked.place) : (ledger.ask new).Latest n asked := by
  refine ⟨getElem?_ask h.1 new, fun m other hother hsame => ?_⟩
  rcases getElem?_ask_cases hother with hold | ⟨-, rfl⟩
  · exact h.2 m other hold hsame
  · exact absurd hsame hplace

theorem latest_ask_self (ledger : Ledger) (asked : Asked) :
    (ledger.ask asked).Latest ledger.asked.length asked := by
  refine ⟨List.getElem?_concat_length .., fun m other hother _ => ?_⟩
  rcases getElem?_ask_cases hother with hold | ⟨heq, -⟩
  · obtain ⟨hlt, -⟩ := List.getElem?_eq_some_iff.mp hold
    exact Nat.le_of_lt hlt
  · exact Nat.le_of_eq heq

end Ledger

namespace Session

/-- The sessions that can come about with such a node, each with its ledger. -/
inductive Conversation (options : SessionOptions) : Session → Ledger → Prop
  | new : Conversation options (.new options) .empty
  | arrive {s : Session} {ledger : Ledger} (answered : Option Nat)
      (arrival : Except ProtocolError Frame) (h : Conversation options s ledger)
      (hallows : ledger.Allows s answered arrival) :
      Conversation options { s with arrivals := s.arrivals ++ [arrival] }
        { ledger with unread := ledger.unread ++ [(answered, arrival)] }
  | act {s t : Session} {ledger : Ledger} (action : Action) (h : Conversation options s ledger)
      (haction : ∀ arrival, action ≠ .arrive arrival) (hact : s.act action = some t) :
      Conversation options t (ledger.record s action)

theorem Conversation.move {options : SessionOptions} {s t : Session} {ledger : Ledger}
    (h : Conversation options s ledger) (actor : Actor) (hmove : s.move actor = some t) :
    Conversation options t (ledger.record s (.move actor)) :=
  h.act (.move actor) (by simp) hmove

/-! ## The books -/

/-- What the ledger has to say about a call. -/
structure Knows (ledger : Ledger) (place : Nat) (call : Call) : Prop where
  /-- A frame that waits for the call is the answer to what it asked last. -/
  handed : ∀ frame, call.stage.stream?.isSome → call.inbox = some (.ok frame) →
    ∃ exchange stream n, call.stage = .await exchange stream ∧
      ledger.Latest n ⟨place, exchange, stream⟩ ∧ (n, frame) ∈ ledger.read
  spent : call.inbox ≠ none → call.stage.stream?.isSome ∨ call.stage.isOver
  stream_ne : ∀ stream, call.stage.stream? = some stream → stream ≠ Frame.eventStream

/-- The ledger agrees with the session. -/
structure Books (s : Session) (ledger : Ledger) : Prop where
  requests : s.frames = ledger.asked.map fun asked => (s.request asked.exchange).frame asked.stream
  streams : ∀ asked ∈ ledger.asked, asked.stream ≠ Frame.eventStream
  arrivals : s.arrivals = ledger.unread.map Prod.snd
  once : ledger.answered.Nodup
  read : ∀ n frame, (n, frame) ∈ ledger.read → ledger.Answers n frame
  unread : ∀ n arrival, (some n, arrival) ∈ ledger.unread →
    ∃ frame, arrival = .ok frame ∧ ledger.Answers n frame
  events : ∀ frame, (none, .ok frame) ∈ ledger.unread → frame.stream = Frame.eventStream
  calls : ∀ place call, s.calls[place]? = some call → Knows ledger place call

theorem books_new (options : SessionOptions) : Books (.new options) .empty where
  requests := rfl
  streams := fun _ hasked => by cases hasked
  arrivals := rfl
  once := List.nodup_nil
  read := fun _ _ hread => by cases hread
  unread := fun _ _ hunread => by cases hunread
  events := fun _ hunread => by cases hunread
  calls := fun _ _ hcall => by cases hcall

theorem Knows.moveTo {ledger : Ledger} {place : Nat} {call : Call} {stage : Stage}
    (hstage : stage.stream? = none) (hinbox : call.inbox ≠ none → stage.isOver) :
    Knows ledger place { call with stage } where
  handed := by
    intro frame hsome
    rw [hstage] at hsome
    cases hsome
  spent := fun h => .inr (hinbox h)
  stream_ne := by
    intro stream hsome
    rw [hstage] at hsome
    cases hsome

/-- A call that neither waits on a stream nor is over has been handed nothing. -/
theorem Knows.inbox_eq_none {ledger : Ledger} {place : Nat} {call : Call}
    (h : Knows ledger place call) (hstream : call.stage.stream? = none)
    (hover : ¬ call.stage.isOver) : call.inbox = none := by
  by_contra hinbox
  rcases h.spent hinbox with hsome | hold
  · rw [hstream] at hsome
    cases hsome
  · exact hover hold

theorem Knows.accept_error {ledger : Ledger} {place : Nat} {call : Call}
    (h : Knows ledger place call) (err : ClientError) :
    Knows ledger place (call.accept (.error err)) := by
  unfold Call.accept
  split
  · next haccepts =>
    rw [Bool.and_eq_true, Call.hasStream_eq] at haccepts
    refine ⟨?_, fun _ => .inl haccepts.1, h.stream_ne⟩
    intro frame _ hinbox
    cases hinbox
  · exact h

/-- More answers read do not change what is known of a call. -/
theorem Knows.read {ledger later : Ledger} {place : Nat} {call : Call} (h : Knows ledger place call)
    (hasked : later.asked = ledger.asked) (hread : ledger.read ⊆ later.read) :
    Knows later place call := by
  refine ⟨?_, h.spent, h.stream_ne⟩
  intro frame hsome hinbox
  obtain ⟨exchange, stream, n, hstage, hlatest, hmem⟩ := h.handed frame hsome hinbox
  exact ⟨exchange, stream, n, hstage, hlatest.of_asked hasked, hread hmem⟩

/-- A request of another call does not change what is known of a call. -/
theorem Knows.ask {ledger : Ledger} {place : Nat} {call : Call} {new : Asked}
    (h : Knows ledger place call) (hplace : new.place ≠ place) :
    Knows (ledger.ask new) place call := by
  refine ⟨?_, h.spent, h.stream_ne⟩
  intro frame hsome hinbox
  obtain ⟨exchange, stream, n, hstage, hlatest, hmem⟩ := h.handed frame hsome hinbox
  exact ⟨exchange, stream, n, hstage, hlatest.ask hplace, hmem⟩

theorem request_congr {s t : Session} (h : t.options = s.options) : t.request = s.request := by
  funext exchange
  cases exchange <;> simp only [request, h]

/-- The books stay right while nothing is queued and nothing arrives. -/
theorem Books.of_calls {s t : Session} {ledger : Ledger} (h : Books s ledger)
    (hoptions : t.options = s.options) (hframes : t.frames = s.frames)
    (harrivals : t.arrivals = s.arrivals)
    (hcalls : ∀ place call, t.calls[place]? = some call → Knows ledger place call) :
    Books t ledger where
  requests := by rw [hframes, h.requests, request_congr hoptions]
  streams := h.streams
  arrivals := harrivals.trans h.arrivals
  once := h.once
  read := h.read
  unread := h.unread
  events := h.events
  calls := hcalls

theorem Books.hand_error {s : Session} {ledger : Ledger} (h : Books s ledger) (place : Nat)
    (err : ClientError) : Books (s.hand place (.error err)) ledger := by
  refine h.of_calls rfl rfl rfl ?_
  intro other call hcall
  rw [getElem?_hand] at hcall
  split at hcall
  · obtain ⟨old, hold, rfl⟩ := Option.map_eq_some_iff.mp hcall
    exact (h.calls other old hold).accept_error err
  · exact h.calls other call hcall

theorem Books.cancel {s : Session} {ledger : Ledger} (h : Books s ledger) (stream : Int16) :
    Books (s.cancel stream) ledger := by
  unfold Session.cancel
  split
  · exact h
  · next place table _ =>
    have htable : Books { s with inFlight := table } ledger := h.of_calls rfl rfl rfl h.calls
    exact htable.hand_error place _

theorem Books.closePart {s : Session} {ledger : Ledger} (h : Books s ledger) (reason : ClientError)
    (part : Closing) : Books (s.closePart reason part) ledger := by
  cases part with
  | latch | dropOutbox => exact h.of_calls rfl rfl rfl h.calls
  | stopWorkers =>
      rw [Session.closePart]
      split
      · exact h.of_calls rfl rfl rfl h.calls
      · exact h
  | failWaiters =>
      refine closePart_failWaiters (P := fun u => Books u ledger) reason ?_
        (h.of_calls rfl rfl rfl h.calls)
      intro u place hu
      exact hu.hand_error place reason

theorem Books.moveTo {s : Session} {ledger : Ledger} {place : Nat} {stage : Stage}
    (h : Books s ledger)
    (hknows : ∀ call, s.calls[place]? = some call → Knows ledger place { call with stage }) :
    Books (s.moveTo place stage) ledger := by
  refine h.of_calls rfl rfl rfl ?_
  intro other found hfound
  rw [getElem?_moveTo] at hfound
  split at hfound
  · next heq =>
    subst heq
    obtain ⟨call, hcall, rfl⟩ := Option.map_eq_some_iff.mp hfound
    exact hknows call hcall
  · exact h.calls other found hfound

theorem stream?_eq_none {stage : Stage} (h : stage.isOver) : stage.stream? = none := by
  cases stage with
  | close | done | dropped => rfl
  | _ => cases h

theorem Books.moveOver {s : Session} {ledger : Ledger} {stage : Stage} (h : Books s ledger)
    (place : Nat) (hover : stage.isOver) : Books (s.moveTo place stage) ledger :=
  h.moveTo fun _ _ => .moveTo (stream?_eq_none hover) fun _ => hover

/-- A call that has nothing to take goes where it does not wait on a stream. -/
theorem Books.moveQuiet {s : Session} {ledger : Ledger} {place : Nat} {stage : Stage}
    (h : Books s ledger) (hinbox : ∀ call, s.calls[place]? = some call → call.inbox = none)
    (hstage : stage.stream? = none) : Books (s.moveTo place stage) ledger :=
  h.moveTo fun call hcall => .moveTo hstage fun hsome => absurd (hinbox call hcall) hsome

theorem stream?_firstStage (s : Session) (job : Job) : (s.firstStage job).stream? = none := by
  rcases firstStage_eq s job with heq | ⟨_, heq⟩ <;> rw [heq] <;> rfl

theorem stream?_settled {s : Session} {job : Job} {stage : Stage} (h : s.settled job = some stage) :
    stage.stream? = none := by
  rcases settled_eq_some h with rfl | ⟨_, rfl⟩ | ⟨-, _, rfl⟩ <;> rfl

theorem stream?_leadsTo {exchange : Exchange} {stage : Stage} (h : exchange.LeadsTo stage) :
    stage.stream? = none := by
  cases h <;> rfl

theorem isOver_stageAfter (part : Closing) (reason : ClientError) (result : CallResult) :
    (stageAfter part reason result).isOver := by
  cases part <;> rfl

theorem Books.ask {s t : Session} {ledger : Ledger} {asked : Asked} (h : Books s ledger)
    (hoptions : t.options = s.options)
    (hframes : t.frames = s.frames ++ [(s.request asked.exchange).frame asked.stream])
    (harrivals : t.arrivals = s.arrivals) (hstream : asked.stream ≠ Frame.eventStream)
    (hcalls : ∀ place call, t.calls[place]? = some call → Knows (ledger.ask asked) place call) :
    Books t (ledger.ask asked) where
  requests := by
    rw [hframes, h.requests, request_congr hoptions, Ledger.ask, List.map_append, List.map_singleton]
  streams := by
    intro other hother
    rcases List.mem_append.mp hother with hold | hnew
    · exact h.streams other hold
    · rw [List.mem_singleton.mp hnew]
      exact hstream
  arrivals := harrivals.trans h.arrivals
  once := h.once
  read := fun n frame hmem => (h.read n frame hmem).ask asked
  unread := by
    intro n arrival hmem
    obtain ⟨frame, harrival, hanswers⟩ := h.unread n arrival hmem
    exact ⟨frame, harrival, hanswers.ask asked⟩
  events := h.events
  calls := hcalls

/-- The books after a step of a call. -/
theorem Books.leads {s u : Session} {ledger : Ledger} {place : Nat} {call : Call}
    {old stage : Stage} (h : Books s ledger) (hcall : s.calls[place]? = some call)
    (hold : call.stage = old) (hleads : Leads s place call old u stage) :
    Books (u.moveTo place stage) (ledger.record s (.move (.call place))) := by
  have hstage : s.stage? place = some old := hold ▸ stage?_of_calls hcall
  have hknows := h.calls place call hcall
  have hquiet (hstream : old.stream? = none) (hover : ¬ old.isOver) (found : Call)
      (hfound : s.calls[place]? = some found) : found.inbox = none := by
    cases hcall.symm.trans hfound
    rw [← hold] at hstream hover
    exact hknows.inbox_eq_none hstream hover
  have hrecord (hother : ∀ exchange stream, old ≠ .enqueue exchange stream) :
      ledger.record s (.move (.call place)) = ledger := Ledger.record_call hcall (hold ▸ hother)
  cases hleads with
  | begin =>
      rw [hrecord (by simp)]
      exact h.moveQuiet (hquiet rfl (by simp [Stage.isOver])) (stream?_firstStage ..)
  | settle hsettled =>
      rw [hrecord (by simp)]
      exact h.moveQuiet (hquiet rfl (by simp [Stage.isOver])) (stream?_settled hsettled)
  | @register exchange stream table hregister =>
      rw [hrecord (by simp)]
      obtain ⟨-, hrange, -⟩ := InFlight.register_eq_some hregister
      have htable : Books { s with inFlight := table } ledger := h.of_calls rfl rfl rfl h.calls
      apply htable.moveTo
      intro found hfound
      have hnone := hquiet rfl (by simp [Stage.isOver]) found hfound
      refine ⟨?_, fun hsome => absurd hnone hsome, ?_⟩
      · intro frame _ hinbox
        cases hnone.symm.trans hinbox
      · intro other hother
        cases hother
        exact InFlight.ne_eventStream hrange
  | exhausted _ hover =>
      rw [hrecord (by simp)]
      exact h.moveOver place hover
  | check _ exchange stream =>
      rw [hrecord (by simp)]
      apply h.moveTo
      intro found hfound
      cases hcall.symm.trans hfound
      refine ⟨?_, fun _ => .inl rfl, ?_⟩
      · intro frame _ hinbox
        obtain ⟨_, _, _, hawait, -⟩ := hknows.handed frame (by rw [hold]; rfl) hinbox
        cases hold.symm.trans hawait
      · intro other hother
        cases hother
        exact hknows.stream_ne stream (by rw [hold]; rfl)
  | refused stream _ hover =>
      rw [hrecord (by simp)]
      exact (h.cancel stream).moveOver place hover
  | enqueue hopen exchange stream =>
      rw [Ledger.record_enqueue hstage hopen]
      have hne : stream ≠ Frame.eventStream := hknows.stream_ne stream (by rw [hold]; rfl)
      refine h.ask rfl (List.append_assoc ..).symm rfl hne ?_
      intro other found hfound
      rw [getElem?_moveTo] at hfound
      split at hfound
      · next heq =>
        subst heq
        rw [hcall] at hfound
        cases hfound
        refine ⟨?_, fun _ => .inl rfl, ?_⟩
        · intro frame _ hinbox
          obtain ⟨_, _, _, hawait, -⟩ := hknows.handed frame (by rw [hold]; rfl) hinbox
          cases hold.symm.trans hawait
        · intro later hlater
          cases hlater
          exact hne
      · next hplace => exact (h.calls other found hfound).ask hplace
  | lost hgone stream _ hover =>
      rw [Ledger.record_lost hstage fun _ _ _ => hgone]
      exact (h.cancel stream).moveOver place hover
  | await _ stream strikes hto =>
      rw [hrecord (by simp)]
      have hlt : place < s.calls.length := (List.getElem?_eq_some_iff.mp hcall).1
      refine Books.moveQuiet (h.of_calls rfl rfl rfl ?_) ?_ (stream?_leadsTo hto)
      · intro other found hfound
        by_cases hplace : place = other
        · subst hplace
          rw [List.getElem?_set_self hlt] at hfound
          cases hfound
          exact ⟨by simp, by simp, hknows.stream_ne⟩
        · rw [List.getElem?_set_ne hplace] at hfound
          exact h.calls other found hfound
      · intro found hfound
        rw [List.getElem?_set_self hlt] at hfound
        cases hfound
        rfl
  | close part reason result =>
      rw [hrecord (by simp)]
      exact (h.closePart reason part).moveOver place (isOver_stageAfter ..)
  | _ =>
      rw [hrecord (by simp)]
      exact Books.moveQuiet (h.of_calls rfl rfl rfl h.calls) (hquiet rfl (by simp [Stage.isOver])) rfl

/-- The books after the reader has read what came first, before anything is done with it. -/
theorem Books.readNext {s : Session} {ledger : Ledger} {arrival : Except ProtocolError Frame}
    {rest : List (Except ProtocolError Frame)} (h : Books s ledger)
    (harrivals : s.arrivals = arrival :: rest) :
    Books { s with arrivals := rest } ledger.readNext := by
  have hmap := h.arrivals.symm.trans harrivals
  obtain ⟨⟨tag, arrival⟩, later, hunread, rfl, rfl⟩ := List.map_eq_cons_iff.mp hmap
  have hmem {entry : Option Nat × Except ProtocolError Frame} (hentry : entry ∈ later) :
      entry ∈ ledger.unread := hunread ▸ List.mem_cons_of_mem _ hentry
  cases tag with
  | none =>
      have hnext := Ledger.readNext_event hunread
      have honce := h.once
      rw [Ledger.answered, hunread] at honce
      rw [hnext]
      refine ⟨h.requests, h.streams, rfl, honce, h.read, ?_, ?_, ?_⟩
      · intro n found hfound
        exact h.unread n found (hmem hfound)
      · intro frame hframe
        exact h.events frame (hmem hframe)
      · intro place call hcall
        exact (h.calls place call hcall).read rfl fun _ => id
  | some n =>
      obtain ⟨frame, rfl, hanswers⟩ := h.unread n arrival (hunread ▸ List.mem_cons_self)
      have hnext := Ledger.readNext_answer hunread
      have honce := h.once
      rw [Ledger.answered, hunread] at honce
      rw [hnext]
      refine ⟨h.requests, h.streams, rfl, ?_, ?_, ?_, ?_, ?_⟩
      · rw [Ledger.answered, List.map_append, List.append_assoc]
        exact honce
      · intro m found hfound
        rcases List.mem_append.mp hfound with hold | hnew
        · exact h.read m found hold
        · cases List.mem_singleton.mp hnew
          exact hanswers
      · intro m found hfound
        exact h.unread m found (hmem hfound)
      · intro found hfound
        exact h.events found (hmem hfound)
      · intro place call hcall
        exact (h.calls place call hcall).read rfl fun _ => List.mem_append_left _

/-- What arrives goes to the end of the books. -/
theorem Books.arrive {s : Session} {ledger : Ledger} {answered : Option Nat}
    {arrival : Except ProtocolError Frame} (h : Books s ledger)
    (hallows : ledger.Allows s answered arrival) :
    Books { s with arrivals := s.arrivals ++ [arrival] }
      { ledger with unread := ledger.unread ++ [(answered, arrival)] } where
  requests := h.requests
  streams := h.streams
  arrivals := by rw [List.map_append, h.arrivals, List.map_singleton]
  once := by
    rw [Ledger.answered, List.filterMap_append, ← List.append_assoc]
    cases answered with
    | none => exact (List.append_nil _).symm ▸ h.once
    | some n =>
        cases arrival with
        | error err => exact hallows.elim
        | ok frame =>
            refine List.nodup_append.mpr ⟨h.once, List.pairwise_singleton _ n, ?_⟩
            intro m hm k hk
            rw [List.mem_singleton.mp hk]
            intro heq
            exact hallows.1 (heq ▸ hm)
  read := h.read
  unread := by
    intro n found hfound
    rcases List.mem_append.mp hfound with hold | hnew
    · exact h.unread n found hold
    · cases List.mem_singleton.mp hnew
      cases arrival with
      | error err => exact hallows.elim
      | ok frame =>
          obtain ⟨sent, hsent, hstream⟩ := Option.map_eq_some_iff.mp hallows.2
          have hframe : s.frames[n]? = some sent := by
            rw [frames, List.getElem?_append_left (List.getElem?_eq_some_iff.mp hsent).1, hsent]
          rw [h.requests, List.getElem?_map] at hframe
          obtain ⟨asked, hasked, rfl⟩ := Option.map_eq_some_iff.mp hframe
          exact ⟨frame, rfl, asked, hasked, hstream.symm⟩
  events := by
    intro frame hframe
    rcases List.mem_append.mp hframe with hold | hnew
    · exact h.events frame hold
    · cases List.mem_singleton.mp hnew
      exact hallows
  calls := fun place call hcall => (h.calls place call hcall).read rfl fun _ => id

/-- The books after what happens without a call. What the reader does with a frame is left open. -/
theorem Books.works {s t : Session} {ledger : Ledger} {action : Action} (h : Books s ledger)
    (hworks : s.Works action t) (haction : ∀ arrival, action ≠ .arrive arrival)
    (hread : ∀ frame rest, s.reader.isServing → s.arrivals = .ok frame :: rest →
      Books ({ s with arrivals := rest }.dispatch frame) ledger.readNext) :
    Books t (ledger.record s action) := by
  cases hworks with
  | reads hserving harrivals =>
      rw [Ledger.record, if_pos hserving]
      exact hread _ _ hserving harrivals
  | ends hserving harrivals =>
      rw [Ledger.record, if_pos hserving]
      have hnext := h.readNext harrivals
      exact hnext.of_calls rfl rfl rfl hnext.calls
  | strikes hstriking =>
      rw [Ledger.record_busy (by rw [hstriking]; simp)]
      exact h.of_calls rfl rfl rfl h.calls
  | @readerCloses part reason _ _ hduty hclose =>
      subst hclose
      rw [Ledger.record_busy (by rw [hduty]; simp)]
      have hclosed := h.closePart reason part
      exact hclosed.of_calls rfl rfl rfl hclosed.calls
  | writes hqueued => exact h.of_calls rfl (Works.frames_eq (.writes hqueued)) rfl h.calls
  | @writerCloses part reason _ _ _ hclose =>
      subst hclose
      have hclosed := h.closePart reason part
      exact hclosed.of_calls rfl rfl rfl hclosed.calls
  | @closes _ part _ _ hclose =>
      subst hclose
      have hclosed := h.closePart .connectionClosed part
      exact hclosed.of_calls rfl rfl rfl hclosed.calls
  | pause =>
      unfold Session.pause
      split <;> exact h.of_calls rfl rfl rfl h.calls
  | arrive arrival => exact absurd rfl (haction arrival)
  | _ => exact h.of_calls rfl rfl rfl h.calls

/-- The books after every action but an arrival, if they are right after a frame has been read. -/
theorem Books.change {s t : Session} {ledger : Ledger} {action : Action} (h : Books s ledger)
    (hchange : s.Change action t) (haction : ∀ arrival, action ≠ .arrive arrival)
    (hread : ∀ frame rest, s.reader.isServing → s.arrivals = .ok frame :: rest →
      Books ({ s with arrivals := rest }.dispatch frame) ledger.readNext) :
    Books t (ledger.record s action) := by
  cases hchange with
  | moves hcall hleads => exact h.leads hcall rfl hleads
  | @waitOver place => exact h.moveOver place rfl
  | @left place _ haction _ _ _ hover =>
      rcases haction with rfl | rfl <;> rcases hover with rfl | ⟨_, rfl⟩ <;>
        exact h.moveOver place rfl
  | called job limit =>
      refine h.of_calls rfl rfl rfl ?_
      intro place call hcall
      rw [Session.call, List.getElem?_append] at hcall
      split at hcall
      · exact h.calls place call hcall
      · rw [List.getElem?_singleton] at hcall
        split at hcall <;> cases hcall
        exact ⟨by simp, by simp, by simp [Stage.stream?]⟩
  | works hworks => exact h.works hworks haction hread

end Session

end CqlClient
