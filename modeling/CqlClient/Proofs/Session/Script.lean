import CqlClient.Proofs.Session.Calls
import CqlClient.Proofs.Session.Lifecycle

/-!
The order in which a session does things. One call asks for the transport and performs the
handshake, once; what it does is written down mark by mark, and the marks of a run always begin a
fixed script, in which the queries of the callers come last.
-/

namespace CqlClient

/-- The frame says that the node is ready. -/
def Frame.isReady (frame : Frame) : Bool :=
  match Response.decode frame.opcode frame.body with
  | .ok .ready => true
  | _ => false

/-- The frame says that the node has chosen a keyspace. -/
def Frame.isKeyspaceSet (frame : Frame) : Bool :=
  match Response.decode frame.opcode frame.body with
  | .ok (.result (.setKeyspace _)) => true
  | _ => false

/-- What matters for the order in which a session does things. -/
inductive Mark where
  | queued (request : Request) (stream : Int16)
  /-- The answer to the startup message says that the node is ready. -/
  | ready
  /-- The node has confirmed the choice of the keyspace. -/
  | chosen
  /-- The handshake has succeeded. -/
  | landed

/-- The handshake up to its success, with the streams of its requests. -/
def opening (options : SessionOptions) (first second : Int16) : List Mark :=
  [.queued (Handshake.startup options.version) first, .ready] ++
    if options.keyspace = "" then []
    else [.queued (Handshake.use options.keyspace) second, .chosen]

/-- The handshake, and then queries, each with its stream. -/
def script (options : SessionOptions) (first second : Int16) (queries : List (QueryRequest × Int16)) :
    List Mark :=
  opening options first second ++ .landed ::
    queries.map fun query => .queued (.query query.1) query.2

def Exchange.isQuery : Exchange → Bool
  | .query _ => true
  | .startup _ | .use _ => false

/-- Whether a call at this stage performs the handshake. -/
def Stage.isOpening : Stage → Bool
  | .connect _ | .openOutbox | .startWorkers | .recordWorkers | .land => true
  | .register exchange | .check exchange _ | .enqueue exchange _ | .await exchange _ =>
    !exchange.isQuery
  | _ => false

/-- The stages of a call that neither performs the handshake nor runs its query. -/
def Stage.isAside : Stage → Bool
  | .begin | .settle | .claim | .close .. | .done _ | .dropped => true
  | _ => false

/-- The marks of a handshake that has got to a stage. -/
def Stage.Reached (options : SessionOptions) (marks : List Mark) : Stage → Prop
  | .connect _ | .openOutbox | .startWorkers | .recordWorkers => marks = []
  | .register (.startup _) | .check (.startup _) _ | .enqueue (.startup _) _ => marks = []
  | .await (.startup _) first => marks = [.queued (Handshake.startup options.version) first]
  | .register (.use _) | .check (.use _) _ | .enqueue (.use _) _ =>
    isIdentifier options.keyspace ∧
      ∃ first, marks = [.queued (Handshake.startup options.version) first, .ready]
  | .await (.use _) second =>
    isIdentifier options.keyspace ∧
      ∃ first, marks = [.queued (Handshake.startup options.version) first, .ready,
        .queued (Handshake.use options.keyspace) second]
  | .land => ∃ first second, marks = opening options first second
  | _ => False

namespace Session

/-- What else than a request an action adds to the marks. -/
def hears? (s : Session) : Action → Option Mark
  | .move (.call place) => do
    let call ← s.calls[place]?
    match call.stage, call.inbox with
    | .await (.startup _) _, some (.ok frame) => if frame.isReady then some .ready else none
    | .await (.use _) _, some (.ok frame) => if frame.isKeyspaceSet then some .chosen else none
    | .land, _ => if s.phase = .connecting then some .landed else none
    | _, _ => none
  | _ => none

/-- What an action adds to the marks. -/
def mark? (s : Session) (action : Action) : Option Mark :=
  match s.asks? action with
  | some asked => some (.queued (s.request asked.exchange) asked.stream)
  | none => s.hears? action

/-- The marks of a run. -/
def marks (steps : List (Session × Action)) : List Mark :=
  steps.filterMap fun step => step.1.mark? step.2

/-! ## What the handshake hears -/

theorem isReady_of_checkStartup {frame : Frame} (h : Handshake.checkStartup frame = .ok ()) :
    frame.isReady := by
  unfold Handshake.checkStartup Handshake.readReply at h
  unfold Frame.isReady
  cases hdecode : Response.decode frame.opcode frame.body with
  | error err => simp [hdecode] at h; cases h
  | ok reply =>
      rw [hdecode] at h
      cases reply with
      | ready => rfl
      | _ => cases h

theorem isKeyspaceSet_of_checkUse {frame : Frame} (h : Handshake.checkUse frame = .ok ()) :
    frame.isKeyspaceSet := by
  unfold Handshake.checkUse Handshake.readReply at h
  unfold Frame.isKeyspaceSet
  cases hdecode : Response.decode frame.opcode frame.body with
  | error err => rw [hdecode] at h; cases h
  | ok reply =>
      rw [hdecode] at h
      cases reply with
      | result body =>
          cases body with
          | setKeyspace => rfl
          | _ => cases h
      | _ => cases h

/-- After the startup message the handshake goes on only if the node is ready. -/
theorem receive_startup (s : Session) (place deadline : Nat) (result : Except ClientError Frame) :
    ∃ stage, s.receive place (.startup deadline) result = s.moveTo place stage ∧
      (stage.isAside ∨ (∃ frame, result = .ok frame ∧ frame.isReady) ∧
        (s.options.keyspace = "" ∧ stage = .land ∨
          isIdentifier s.options.keyspace ∧ ∃ later, stage = .register (.use later))) := by
  cases result with
  | error err => exact ⟨_, rfl, .inl rfl⟩
  | ok frame =>
      simp only [receive]
      cases hcheck : Handshake.checkStartup frame with
      | error err => exact ⟨_, rfl, .inl rfl⟩
      | ok =>
          have hready := isReady_of_checkStartup hcheck
          simp only [afterStartup]
          split
          · next hnone => exact ⟨_, rfl, .inr ⟨⟨frame, rfl, hready⟩, .inl ⟨hnone, rfl⟩⟩⟩
          · split
            · exact ⟨_, rfl, .inl rfl⟩
            · next hvalid =>
              exact ⟨_, rfl, .inr ⟨⟨frame, rfl, hready⟩, .inr ⟨by simpa using hvalid, _, rfl⟩⟩⟩

/-- After the choice of a keyspace the handshake succeeds only if the node confirms it. -/
theorem receive_use (s : Session) (place deadline : Nat) (result : Except ClientError Frame) :
    ∃ stage, s.receive place (.use deadline) result = s.moveTo place stage ∧
      (stage.isAside ∨ (∃ frame, result = .ok frame ∧ frame.isKeyspaceSet) ∧ stage = .land) := by
  cases result with
  | error err => exact ⟨_, rfl, .inl rfl⟩
  | ok frame =>
      simp only [receive]
      cases hcheck : Handshake.checkUse frame with
      | error err => exact ⟨_, rfl, .inl rfl⟩
      | ok => exact ⟨_, rfl, .inr ⟨⟨frame, rfl, isKeyspaceSet_of_checkUse hcheck⟩, rfl⟩⟩

theorem moveCall_await {s t : Session} {place : Nat} {call : Call} {exchange : Exchange}
    {stream : Int16} (hcall : s.calls[place]? = some call)
    (hstage : call.stage = .await exchange stream) (h : s.moveCall place = some t) :
    ∃ result, call.inbox = some result ∧
      t = { s with calls := s.calls.set place { call with inbox := none } }.receive place exchange
        result := by
  simp only [moveCall, hcall, Option.bind_eq_bind, Option.bind_some, hstage] at h
  obtain ⟨result, hinbox, h⟩ := Option.bind_eq_some_iff.mp h
  exact ⟨result, hinbox, by rw [← Option.some_inj.mp h, hstage]⟩

/-! ## The marks of an action -/

theorem mark?_of_asks? {s : Session} {action : Action} {asked : Asked}
    (h : s.asks? action = some asked) :
    s.mark? action = some (.queued (s.request asked.exchange) asked.stream) := by
  rw [mark?, h]

/-- Only calls leave marks, by their steps. -/
theorem mark?_eq_none {s : Session} {action : Action} (h : ∀ place, action ≠ .move (.call place)) :
    s.mark? action = none := by
  have hasks : s.asks? action = none := by
    unfold asks?
    split
    · next place => exact absurd rfl (h place)
    · rfl
  rw [mark?, hasks]
  dsimp only
  unfold hears?
  split
  · next place => exact absurd rfl (h place)
  · rfl

theorem mark?_of_isAside {s : Session} {place : Nat} {call : Call}
    (hcall : s.calls[place]? = some call) (haside : call.stage.isAside) :
    s.mark? (.move (.call place)) = none := by
  cases hstage : call.stage with
  | begin | settle | claim | close | done | dropped =>
      simp [mark?, asks?, hears?, stage?, hcall, hstage]
  | _ => rw [hstage] at haside; cases haside

theorem marks_concat (steps : List (Session × Action)) (s : Session) (action : Action) :
    marks (steps ++ [(s, action)]) = marks steps ++ (s.mark? action).toList := by
  rw [marks, List.filterMap_append, marks]
  cases hmark : s.mark? action <;> simp [hmark]

theorem isAside_of_isOver {stage : Stage} (h : stage.isOver) : stage.isAside := by
  cases stage with
  | close | done | dropped => rfl
  | _ => cases h

theorem isAside_of_isGiven {stage : Stage} (h : stage.isGiven) : stage.isAside := by
  cases stage with
  | begin | close | done | dropped => rfl
  | _ => cases h

theorem not_isOpening_of_isAside {stage : Stage} (h : stage.isAside) : ¬ stage.isOpening := by
  cases stage with
  | begin | settle | claim | close | done | dropped => simp [Stage.isOpening]
  | _ => cases h

theorem isAside_stageAfter (part : Closing) (reason : ClientError) (result : CallResult) :
    (stageAfter part reason result).isAside := isAside_of_isOver (isOver_stageAfter ..)

theorem isQuery_eq_false {exchange : Exchange} {stage : Stage} (h : exchange.LeadsTo stage)
    (hopening : stage.isOpening) : exchange.isQuery = false := by
  cases h with
  | answered | broken => cases hopening
  | keyspace | ready | chosen => rfl

/-- Unless the session is active, a call that stands aside stays there or claims the handshake. -/
theorem Leads.aside {s u : Session} {place : Nat} {call : Call} {old stage : Stage}
    (h : Leads s place call old u stage) (haside : old.isAside) (hactive : s.phase ≠ .active) :
    (stage.isAside ∧ u.connects = s.connects ∧ (u.phase = s.phase ∨ u.phase = .closed)) ∨
      s.phase = .uninitialized ∧ u.phase = .connecting ∧ u.connects = s.connects + 1 ∧
        ∃ deadline, stage = .connect deadline := by
  cases h with
  | begin =>
      refine .inl ⟨?_, rfl, .inl rfl⟩
      rcases firstStage_eq s call.job with heq | ⟨_, heq⟩ <;> rw [heq] <;> rfl
  | settle h =>
      rcases settled_eq_some h with rfl | ⟨_, rfl⟩ | ⟨hphase, -⟩
      · exact .inl ⟨rfl, rfl, .inl rfl⟩
      · exact .inl ⟨rfl, rfl, .inl rfl⟩
      · exact absurd hphase hactive
  | claim hfirst deadline => exact .inr ⟨hfirst, rfl, rfl, deadline, rfl⟩
  | claimed => exact .inl ⟨rfl, rfl, .inl rfl⟩
  | close part reason =>
      refine .inl ⟨isAside_stageAfter .., ?_, ?_⟩
      · obtain ⟨_, _, _, _, _, _, heq⟩ := closePart_eq s reason part
        rw [heq]
      · rw [phase_closePart]
        split
        · exact .inr rfl
        · exact .inl rfl
  | _ => cases haside

/-- Nobody begins the handshake a second time. -/
theorem Leads.not_isOpening {s u : Session} {place : Nat} {call : Call} {old stage : Stage}
    (h : Leads s place call old u stage) (hold : ¬ old.isOpening) (hphase : s.phase ≠ .uninitialized) :
    ¬ stage.isOpening := by
  have hto {exchange : Exchange} (hexchange : ¬ !exchange.isQuery) (hto : exchange.LeadsTo stage) :
      ¬ stage.isOpening := by
    intro hopening
    exact hexchange (by rw [isQuery_eq_false hto hopening]; rfl)
  cases h with
  | begin =>
      rcases firstStage_eq s call.job with heq | ⟨_, heq⟩ <;> rw [heq] <;> simp [Stage.isOpening]
  | settle h =>
      rcases settled_eq_some h with rfl | ⟨_, rfl⟩ | ⟨-, _, rfl⟩ <;>
        simp [Stage.isOpening, Exchange.isQuery]
  | claim hfirst => exact absurd hfirst hphase
  | claimed => simp [Stage.isOpening]
  | register | check | enqueue => exact hold
  | exhausted h | refused _ h | lost _ _ h | await _ _ _ h => exact hto hold h
  | close => exact not_isOpening_of_isAside (isAside_stageAfter ..)
  | _ => exact absurd rfl hold

/-! ## The call that performs the handshake -/

theorem opening_of_isIdentifier {options : SessionOptions} (h : isIdentifier options.keyspace)
    (first second : Int16) :
    opening options first second = [.queued (Handshake.startup options.version) first, .ready,
      .queued (Handshake.use options.keyspace) second, .chosen] := by
  have hkeyspace : options.keyspace ≠ "" := by
    intro hnone
    rw [hnone] at h
    cases h
  rw [opening, if_neg hkeyspace]
  rfl

theorem opening_of_no_keyspace {options : SessionOptions} (h : options.keyspace = "")
    (first second : Int16) :
    opening options first second = [.queued (Handshake.startup options.version) first, .ready] := by
  rw [opening, if_pos h, List.append_nil]

theorem startup_ready_isPrefix (options : SessionOptions) (first second : Int16) :
    [.queued (Handshake.startup options.version) first, .ready] <+:
      opening options first second := List.prefix_append ..

theorem isPrefix_of_reached {options : SessionOptions} {marks : List Mark} {stage : Stage}
    (h : stage.Reached options marks) : ∃ first second, marks <+: opening options first second := by
  have hnone (hmarks : marks = []) : ∃ first second, marks <+: opening options first second :=
    ⟨0, 0, hmarks ▸ List.nil_prefix⟩
  have hready {first : Int16}
      (hmarks : marks = [.queued (Handshake.startup options.version) first, .ready]) :
      ∃ first second, marks <+: opening options first second :=
    ⟨first, 0, hmarks ▸ startup_ready_isPrefix ..⟩
  cases stage with
  | connect | openOutbox | startWorkers | recordWorkers => exact hnone h
  | register exchange | check exchange | enqueue exchange =>
      cases exchange with
      | startup => exact hnone h
      | use =>
          obtain ⟨-, first, hmarks⟩ := h
          exact hready hmarks
      | query => cases h
  | await exchange stream =>
      cases exchange with
      | startup => exact ⟨stream, 0, h ▸ ⟨_, rfl⟩⟩
      | use =>
          obtain ⟨hvalid, first, rfl⟩ := h
          exact ⟨first, stream, opening_of_isIdentifier hvalid first stream ▸ ⟨[.chosen], rfl⟩⟩
      | query => cases h
  | land =>
      obtain ⟨first, second, rfl⟩ := h
      exact ⟨first, second, List.prefix_rfl⟩
  | begin | settle | claim | close | done | dropped => cases h

/-- What a step of the call that performs the handshake comes to. -/
inductive Proceeds (s t : Session) (marks : List Mark) : Stage → Prop
  | goesOn {next : Stage} (hphase : t.phase = s.phase) (h : next.Reached s.options marks) :
      Proceeds s t marks next
  | breaks {next : Stage} (hphase : t.phase = s.phase) (h : next.isAside) {first second : Int16}
      (hmarks : marks <+: opening s.options first second) : Proceeds s t marks next
  | lands {first second : Int16} (hphase : t.phase.isSettled)
      (hmarks : marks = script s.options first second []) : Proceeds s t marks .settle

theorem mark?_of_answer {s : Session} {place deadline : Nat} {call : Call} {stream : Int16}
    {frame : Frame} (hcall : s.calls[place]? = some call) (hinbox : call.inbox = some (.ok frame)) :
    (call.stage = .await (.startup deadline) stream →
      s.mark? (.move (.call place)) = if frame.isReady then some .ready else none) ∧
    (call.stage = .await (.use deadline) stream →
      s.mark? (.move (.call place)) = if frame.isKeyspaceSet then some .chosen else none) := by
  constructor <;> intro hstage <;> simp [mark?, asks?, hears?, stage?, hcall, hstage, hinbox]

theorem mark?_of_no_answer {s : Session} {place : Nat} {call : Call} {exchange : Exchange}
    {stream : Int16} {err : ClientError} (hcall : s.calls[place]? = some call)
    (hstage : call.stage = .await exchange stream) (hinbox : call.inbox = some (.error err)) :
    s.mark? (.move (.call place)) = none := by
  simp [mark?, asks?, hears?, stage?, hcall, hstage, hinbox]

theorem stage?_answered {s : Session} {place : Nat} {call : Call}
    (hcall : s.calls[place]? = some call) (next : Stage) :
    ({ s with calls := s.calls.set place { call with inbox := none } }.moveTo place next).stage?
      place = some next := by
  have hstage : _ = some call.stage :=
    (stage?_set_inbox hcall none place).trans (stage?_of_calls hcall)
  exact stage?_moveTo_self hstage next

/-- The handshake after the answer to the startup message. -/
theorem proceeds_startup {s t : Session} {marks : List Mark} {place deadline : Nat} {call : Call}
    {stream : Int16} (hcall : s.calls[place]? = some call)
    (hstage : call.stage = .await (.startup deadline) stream)
    (hreached : call.stage.Reached s.options marks) (hmove : s.moveCall place = some t) :
    ∃ next, t.stage? place = some next ∧
      Proceeds s t (marks ++ (s.mark? (.move (.call place))).toList) next := by
  obtain ⟨result, hinbox, rfl⟩ := moveCall_await hcall hstage hmove
  obtain ⟨next, hreceive, hnext⟩ := receive_startup
    { s with calls := s.calls.set place { call with inbox := none } } place deadline result
  rw [hstage] at hreached
  obtain rfl : marks = [.queued (Handshake.startup s.options.version) stream] := hreached
  have hphase := congrArg Session.phase hreceive
  refine ⟨next, hreceive ▸ stage?_answered hcall next, ?_⟩
  rcases hnext with haside | ⟨⟨frame, rfl, hready⟩, hgoes⟩
  · refine .breaks hphase haside (?_ : _ <+: opening s.options stream 0)
    cases result with
    | error err =>
        rw [mark?_of_no_answer hcall hstage hinbox]
        exact ⟨_, rfl⟩
    | ok frame =>
        rw [(mark?_of_answer hcall hinbox).1 hstage]
        split
        · exact startup_ready_isPrefix ..
        · exact ⟨_, rfl⟩
  · rw [(mark?_of_answer hcall hinbox).1 hstage, if_pos hready]
    rcases hgoes with ⟨hnone, rfl⟩ | ⟨hvalid, later, rfl⟩
    · exact .goesOn hphase ⟨stream, 0, (opening_of_no_keyspace hnone stream 0).symm⟩
    · exact .goesOn hphase ⟨hvalid, stream, rfl⟩

/-- The handshake after the answer to the choice of a keyspace. -/
theorem proceeds_use {s t : Session} {marks : List Mark} {place deadline : Nat} {call : Call}
    {stream : Int16} (hcall : s.calls[place]? = some call)
    (hstage : call.stage = .await (.use deadline) stream)
    (hreached : call.stage.Reached s.options marks) (hmove : s.moveCall place = some t) :
    ∃ next, t.stage? place = some next ∧
      Proceeds s t (marks ++ (s.mark? (.move (.call place))).toList) next := by
  obtain ⟨result, hinbox, rfl⟩ := moveCall_await hcall hstage hmove
  obtain ⟨next, hreceive, hnext⟩ := receive_use
    { s with calls := s.calls.set place { call with inbox := none } } place deadline result
  rw [hstage] at hreached
  obtain ⟨hvalid, first, rfl⟩ := hreached
  have hopening := opening_of_isIdentifier hvalid first stream
  have hphase := congrArg Session.phase hreceive
  refine ⟨next, hreceive ▸ stage?_answered hcall next, ?_⟩
  rcases hnext with haside | ⟨⟨frame, rfl, hchosen⟩, rfl⟩
  · refine .breaks hphase haside (?_ : _ <+: opening s.options first stream)
    rw [hopening]
    cases result with
    | error err =>
        rw [mark?_of_no_answer hcall hstage hinbox]
        exact ⟨_, rfl⟩
    | ok frame =>
        rw [(mark?_of_answer hcall hinbox).2 hstage]
        split
        · exact List.prefix_rfl
        · exact ⟨_, rfl⟩
  · rw [(mark?_of_answer hcall hinbox).2 hstage, if_pos hchosen]
    exact .goesOn hphase ⟨first, stream, hopening.symm⟩

/-- The call that performs the handshake goes on with it, breaks it off or ends it. -/
theorem proceeds_of_reached {s t : Session} {marks : List Mark} {place : Nat} {call : Call}
    (hcall : s.calls[place]? = some call) (hreached : call.stage.Reached s.options marks)
    (hmove : s.moveCall place = some t) :
    ∃ next, t.stage? place = some next ∧
      Proceeds s t (marks ++ (s.mark? (.move (.call place))).toList) next := by
  by_cases hawait : ∃ exchange stream, call.stage = .await exchange stream
  · obtain ⟨exchange, stream, hstage⟩ := hawait
    cases exchange with
    | startup => exact proceeds_startup hcall hstage hreached hmove
    | use => exact proceeds_use hcall hstage hreached hmove
    | query => rw [hstage] at hreached; cases hreached
  obtain ⟨found, u, next, hfound, hleads, rfl⟩ := leads_of_moveCall hmove
  cases hcall.symm.trans hfound
  have hstage : u.stage? place = some call.stage :=
    (congrFun (hleads.stage?_eq hcall) place).trans (stage?_of_calls hcall)
  refine ⟨next, stage?_moveTo_self hstage next, ?_⟩
  obtain ⟨first, second, hprefix⟩ := isPrefix_of_reached hreached
  generalize hold : call.stage = old at hleads hreached
  have hbreaks (hmark : s.mark? (.move (.call place)) = none) (hphase : u.phase = s.phase)
      (haside : next.isAside) :
      Proceeds s (u.moveTo place next) (marks ++ (s.mark? (.move (.call place))).toList) next := by
    rw [hmark, Option.toList_none, List.append_nil]
    exact .breaks hphase haside hprefix
  have hgoes (hmark : s.mark? (.move (.call place)) = none) (hphase : u.phase = s.phase)
      (hnext : next.Reached s.options marks) :
      Proceeds s (u.moveTo place next) (marks ++ (s.mark? (.move (.call place))).toList) next := by
    rw [hmark, Option.toList_none, List.append_nil]
    exact .goesOn hphase hnext
  cases hleads with
  | connect | openOutbox | startWorkers | recordWorkers =>
      exact hgoes (by simp [mark?, asks?, hears?, stage?, hcall, hold]) rfl hreached
  | unreachable => exact hbreaks (by simp [mark?, asks?, hears?, stage?, hcall, hold]) rfl rfl
  | @register exchange | check _ exchange =>
      apply hgoes (by simp [mark?, asks?, hears?, stage?, hcall, hold]) rfl
      cases exchange <;> exact hreached
  | exhausted _ hover =>
      exact hbreaks (by simp [mark?, asks?, hears?, stage?, hcall, hold]) rfl
        (isAside_of_isOver hover)
  | refused stream _ hover =>
      exact hbreaks (by simp [mark?, asks?, hears?, stage?, hcall, hold]) (phase_cancel s stream)
        (isAside_of_isOver hover)
  | enqueue hopen exchange stream =>
      have hmark : s.mark? (.move (.call place)) = some (.queued (s.request exchange) stream) :=
        by simp [mark?, asks?, stage?, hcall, hold, hopen]
      rw [hmark]
      refine .goesOn rfl ?_
      cases exchange with
      | startup =>
          obtain rfl : marks = [] := hreached
          rfl
      | use =>
          obtain ⟨hvalid, first, rfl⟩ := hreached
          exact ⟨hvalid, first, rfl⟩
      | query => cases hreached
  | lost hgone stream _ hover =>
      exact hbreaks (by simp [mark?, asks?, hears?, stage?, hcall, hold, hgone])
        (phase_cancel s stream) (isAside_of_isOver hover)
  | await => exact absurd ⟨_, _, hold⟩ hawait
  | land hconnecting hphase =>
      obtain ⟨first, second, rfl⟩ := hreached
      have hmark : s.mark? (.move (.call place)) = some .landed := by
        simp [mark?, asks?, hears?, stage?, hcall, hold, hconnecting]
      rw [hmark]
      exact .lands hphase rfl
  | closed hphase =>
      exact hbreaks (by simp [mark?, asks?, hears?, stage?, hcall, hold, hphase]) rfl rfl
  | begin | settle | claim | claimed | close => cases hreached

end Session

end CqlClient
