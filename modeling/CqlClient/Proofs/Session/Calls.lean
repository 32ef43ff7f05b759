import CqlClient.Proofs.Session.Conversation
import CqlClient.Proofs.Session.Ownership
import Mathlib.Data.List.Induction

/-!
What becomes of a call. It keeps its job, and it comes to another stage by a step of its own or
because somebody gives it up. Frames are queued only by the calls, each of them on behalf of one.
-/

namespace CqlClient

/-- The exchange that a call is at. -/
def Stage.exchange? : Stage → Option Exchange
  | .register exchange | .check exchange _ | .enqueue exchange _ | .await exchange _ =>
    some exchange
  | _ => none

/-- Whether the call has not begun, or is over and has nothing left to do. -/
def Stage.isResting : Stage → Bool
  | .begin | .done _ | .dropped => true
  | _ => false

namespace Session

/-- The job of the call at a place. -/
def job? (s : Session) (place : Nat) : Option Job := s.calls[place]?.map (·.job)

/-- The request that is queued by an action, if one is. -/
def asks? (s : Session) : Action → Option Asked
  | .move (.call place) =>
    match s.stage? place with
    | some (.enqueue exchange stream) =>
      if s.outboxOpen then some ⟨place, exchange, stream⟩ else none
    | _ => none
  | _ => none

/-- The requests that are queued in a run, in their order. -/
def asked (steps : List (Session × Action)) : List Asked :=
  steps.filterMap fun step => step.1.asks? step.2

/-! ## Parts of a run -/

theorem run_concat_iff {s t u : Session} {steps : List (Session × Action)} {action : Action} :
    Run s (steps ++ [(t, action)]) u ↔ Run s steps t ∧ t.act action = some u := by
  constructor
  · intro h
    generalize hsteps : steps ++ [(t, action)] = all at h
    cases h with
    | start => simp at hsteps
    | act _ hrun hact =>
        obtain ⟨rfl, hlast⟩ := List.append_inj' hsteps rfl
        cases hlast
        exact ⟨hrun, hact⟩
  · rintro ⟨hrun, hact⟩
    exact .act action hrun hact

theorem Run.split {s t : Session} {before after : List (Session × Action)}
    (h : Run s (before ++ after) t) : ∃ u, Run s before u ∧ Run u after t := by
  induction after using List.reverseRecOn generalizing t with
  | nil => exact ⟨t, by rwa [List.append_nil] at h, .start⟩
  | append_singleton after step ih =>
      rw [← List.append_assoc] at h
      obtain ⟨hrun, hact⟩ := run_concat_iff.mp h
      obtain ⟨u, hbefore, hafter⟩ := ih hrun
      exact ⟨u, hbefore, .act step.2 hafter hact⟩

theorem Run.append {s t u : Session} {before after : List (Session × Action)} (h : Run s before t)
    (hafter : Run t after u) : Run s (before ++ after) u := by
  induction hafter with
  | start => rwa [List.append_nil]
  | act action _ hact ih =>
      rw [← List.append_assoc]
      exact .act action ih hact

/-- A run up to one of its steps, that step, and the rest. -/
theorem Run.at_step {s t u : Session} {before after : List (Session × Action)} {action : Action}
    (h : Run s (before ++ (u, action) :: after) t) :
    Run s before u ∧ ∃ v, u.act action = some v ∧ Run v after t := by
  rw [List.append_cons] at h
  obtain ⟨v, hbefore, hafter⟩ := h.split
  obtain ⟨hrun, hact⟩ := run_concat_iff.mp hbefore
  exact ⟨hrun, v, hact, hafter⟩

/-! ## Jobs and stages -/

theorem job?_of_calls {s : Session} {place : Nat} {call : Call} (h : s.calls[place]? = some call) :
    s.job? place = some call.job := by
  rw [job?, h]
  rfl

theorem job?_modify (s : Session) {f : Call → Call} (hf : ∀ call, (f call).job = call.job)
    (place : Nat) : { s with calls := s.calls.modify place f }.job? = s.job? := by
  funext other
  rw [job?, List.getElem?_modify, job?]
  cases s.calls[other]? with
  | none => rfl
  | some call =>
      by_cases hplace : place = other
      · simp [hplace, hf]
      · simp [hplace]

@[simp] theorem job?_moveTo (s : Session) (place : Nat) (stage : Stage) :
    (s.moveTo place stage).job? = s.job? := job?_modify s (by simp) place

@[simp] theorem job?_hand (s : Session) (place : Nat) (result : Except ClientError Frame) :
    (s.hand place result).job? = s.job? := by
  apply job?_modify
  intro call
  unfold Call.accept
  split <;> rfl

@[simp] theorem job?_cancel (s : Session) (stream : Int16) : (s.cancel stream).job? = s.job? := by
  unfold cancel
  split
  · rfl
  · exact job?_hand ..

theorem job?_dispatch (s : Session) (frame : Frame) : (s.dispatch frame).job? = s.job? := by
  unfold dispatch
  split
  · rfl
  · split
    · exact job?_hand ..
    · rfl

theorem job?_closePart (s : Session) (reason : ClientError) (part : Closing) :
    (s.closePart reason part).job? = s.job? := by
  cases part with
  | latch | dropOutbox => rfl
  | stopWorkers =>
      rw [closePart]
      split <;> rfl
  | failWaiters =>
      refine closePart_failWaiters (P := fun u => u.job? = s.job?) reason ?_ rfl
      intro u place h
      rw [job?_hand, h]

theorem Leads.job?_eq {s u : Session} {place : Nat} {call : Call} {old stage : Stage}
    (h : Leads s place call old u stage) (hcall : s.calls[place]? = some call) :
    u.job? = s.job? := by
  cases h with
  | refused stream | lost _ stream => exact job?_cancel s stream
  | await =>
      funext other
      by_cases hsame : place = other
      · subst hsame
        rw [job?, List.getElem?_set_self', hcall, job?, hcall]
        rfl
      · rw [job?, List.getElem?_set_ne hsame, job?]
  | close part reason => exact job?_closePart s reason part
  | _ => rfl

theorem Works.job?_eq {s t : Session} {action : Action} (h : s.Works action t) :
    t.job? = s.job? := by
  cases h with
  | reads => exact job?_dispatch ..
  | readerCloses _ hclose | writerCloses _ hclose | closes _ hclose =>
      subst hclose
      exact job?_closePart ..
  | pause =>
      unfold Session.pause
      split <;> rfl
  | _ => rfl

/-- A call keeps its job. -/
theorem Change.job? {s t : Session} {action : Action} (h : s.Change action t) {place : Nat}
    {job : Job} (hjob : s.job? place = some job) : t.job? place = some job := by
  cases h with
  | moves hcall hleads => rw [job?_moveTo, hleads.job?_eq hcall, hjob]
  | waitOver => rw [Session.fail, job?_moveTo, hjob]
  | left => rw [job?_moveTo, hjob]
  | called =>
      obtain ⟨call, hcall, rfl⟩ := Option.map_eq_some_iff.mp hjob
      have hlt := (List.getElem?_eq_some_iff.mp hcall).1
      rw [Session.job?, Session.call, List.getElem?_append_left hlt, hcall]
      rfl
  | works hworks => rw [hworks.job?_eq, hjob]

theorem Run.job? {s t : Session} {steps : List (Session × Action)} (h : Run s steps t) {place : Nat}
    {job : Job} (hjob : s.job? place = some job) : t.job? place = some job := by
  induction h with
  | start => exact hjob
  | act _ _ hact ih => exact (change_of_act hact).job? ih

/-- A call is where it was, or it has been put where it is from outside, or it has made a step. -/
theorem Change.stage?_cases {s t : Session} {action : Action} (h : s.Change action t) {place : Nat}
    {stage : Stage} (hstage : t.stage? place = some stage) :
    s.stage? place = some stage ∨ stage.isGiven ∨
      action = .move (.call place) ∧ ∃ call u, s.calls[place]? = some call ∧
        Leads s place call call.stage u stage := by
  cases h with
  | moves hcall hleads =>
      rcases stage?_moveTo_cases (hleads.stage?_eq hcall) hstage with ⟨rfl, rfl⟩ | hold
      · exact .inr (.inr ⟨rfl, _, _, hcall, hleads⟩)
      · exact .inl hold
  | waitOver =>
      rcases stage?_moveTo_cases rfl hstage with ⟨-, rfl⟩ | hold
      · exact .inr (.inl rfl)
      · exact .inl hold
  | left _ _ hover =>
      rcases stage?_moveTo_cases rfl hstage with ⟨-, rfl⟩ | hold
      · right
        left
        rcases hover with rfl | ⟨_, rfl⟩ <;> rfl
      · exact .inl hold
  | called =>
      rw [stage?_call] at hstage
      split at hstage
      · cases hstage
        exact .inr (.inl rfl)
      · exact .inl hstage
  | works hworks => exact .inl (hworks.stage?_eq ▸ hstage)

/-- The queries that calls are at are their own. -/
def Own (s : Session) : Prop :=
  ∀ ⦃place : Nat⦄ ⦃stage : Stage⦄ ⦃request : QueryRequest⦄, s.stage? place = some stage →
    stage.exchange? = some (.query request) → s.job? place = some (.query (.ok request))

theorem settled_query {s : Session} {job : Job} {stage : Stage} {request : QueryRequest}
    (h : s.settled job = some stage) (hstage : stage.exchange? = some (.query request)) :
    s.phase = .active ∧ job = .query (.ok request) := by
  unfold settled at h
  split at h <;> cases h <;> cases hstage
  next hactive => exact ⟨hactive, rfl⟩

theorem exchange?_of_isGiven {stage : Stage} (h : stage.isGiven) : stage.exchange? = none := by
  cases stage with
  | begin | close | done | dropped => rfl
  | _ => cases h

/-- No exchange is followed by a query. -/
theorem exchange?_ne_query {exchange : Exchange} {stage : Stage}
    (h : exchange.LeadsTo stage) (request : QueryRequest) :
    stage.exchange? ≠ some (.query request) := by
  cases h <;> simp [Stage.exchange?]

/-- A call comes to a query of its own, and in an active session, or it was at the query before. -/
theorem Leads.query {s u : Session} {place : Nat} {call : Call} {old stage : Stage}
    {request : QueryRequest} (h : Leads s place call old u stage)
    (hstage : stage.exchange? = some (.query request)) :
    old.exchange? = some (.query request) ∨ s.phase = .active ∧ call.job = .query (.ok request) := by
  cases h with
  | begin => rcases firstStage_eq s call.job with heq | ⟨_, heq⟩ <;> rw [heq] at hstage <;> cases hstage
  | settle h => exact .inr (settled_query h hstage)
  | register | check | enqueue => exact .inl hstage
  | exhausted hto | refused _ hto | lost _ _ hto | await _ _ _ hto =>
      exact absurd hstage (exchange?_ne_query hto request)
  | close part => cases part <;> cases hstage
  | _ => cases hstage

theorem Change.own {s t : Session} {action : Action} (h : s.Change action t) (hown : s.Own) :
    t.Own := by
  intro place stage request hstage hexchange
  apply h.job?
  rcases h.stage?_cases hstage with hold | hgiven | ⟨-, call, u, hcall, hleads⟩
  · exact hown hold hexchange
  · rw [exchange?_of_isGiven hgiven] at hexchange
    cases hexchange
  · rcases hleads.query hexchange with hold | ⟨-, hjob⟩
    · exact hown (stage?_of_calls hcall) hold
    · rw [Session.job?, hcall, ← hjob]
      rfl

/-- A call runs no other query than its own. -/
theorem Run.own {options : SessionOptions} {steps : List (Session × Action)} {s : Session}
    (h : Run (.new options) steps s) : s.Own := by
  induction h with
  | start =>
      intro place stage request hstage
      cases hstage
  | act _ _ hact ih => exact (change_of_act hact).own ih

/-! ## Calls that have not begun, and those that are over -/

theorem abandon_eq_some {s t : Session} {place : Nat} {call : Call}
    (hcall : s.calls[place]? = some call) (h : s.abandon place = some t) :
    t = s.moveTo place .dropped ∧ (call.stage = .begin ∨ call.isWaiting) := by
  simp only [abandon, hcall, Option.bind_eq_bind, Option.bind_some] at h
  unfold Call.isWaiting
  split at h <;> cases h <;> simp [*]

theorem isWaiting_of_giveUpCall {s t : Session} {place : Nat} {call : Call}
    (hcall : s.calls[place]? = some call) (h : s.giveUpCall place = some t) : call.isWaiting := by
  simp only [giveUpCall, hcall, Option.bind_eq_bind, Option.bind_some] at h
  obtain ⟨patience, -, h⟩ := Option.bind_eq_some_iff.mp h
  split at h
  · next hwaiting => exact hwaiting.1
  · cases h

theorem moveCall_begin {s : Session} {place : Nat} {call : Call} (hcall : s.calls[place]? = some call)
    (hstage : call.stage = .begin) :
    s.moveCall place = some (s.moveTo place (s.firstStage call.job)) := by
  simp only [moveCall, hcall, Option.bind_eq_bind, Option.bind_some, hstage]

theorem not_isWaiting_of_isResting {call : Call} (h : call.stage.isResting) : ¬ call.isWaiting := by
  unfold Call.isWaiting
  split
  · next hstage => rw [hstage] at h; cases h
  · next hstage => rw [hstage] at h; cases h
  · next hstage => rw [hstage] at h; cases h
  · exact Bool.false_ne_true

theorem waitOver_of_isResting (s : Session) {stage : Stage} (h : stage.isResting) :
    s.waitOver stage = none := by
  cases stage with
  | begin | done | dropped => rfl
  | _ => cases h

theorem Leads.resting {s u : Session} {place : Nat} {call : Call} {old stage : Stage}
    (h : Leads s place call old u stage) (hold : old.isResting) :
    old = .begin ∧ stage = s.firstStage call.job := by
  cases h with
  | begin => exact ⟨rfl, rfl⟩
  | _ => cases hold

/-- A call that has not begun begins or is given up. One that is over stays so. -/
theorem resting_of_act {s t : Session} {action : Action} (hact : s.act action = some t) {place : Nat}
    {call : Call} {next : Stage} (hcall : s.calls[place]? = some call)
    (hresting : call.stage.isResting) (hnext : t.stage? place = some next) :
    next = call.stage ∨ call.stage = .begin ∧ (next = .dropped ∨
      action = .move (.call place) ∧ next = s.firstStage call.job) := by
  have hstage : s.stage? place = some call.stage := stage?_of_calls hcall
  have hsame {stage : Stage} (hold : s.stage? place = some stage) : stage = call.stage :=
    Option.some_inj.mp (hold.symm.trans hstage)
  cases change_of_act hact with
  | moves hmoved hleads =>
      rcases stage?_moveTo_cases (hleads.stage?_eq hmoved) hnext with ⟨rfl, rfl⟩ | hold
      · cases hcall.symm.trans hmoved
        obtain ⟨hbegin, hfirst⟩ := hleads.resting hresting
        exact .inr ⟨hbegin, .inr ⟨rfl, hfirst⟩⟩
      · exact .inl (hsame hold)
  | waitOver hother hwait =>
      rcases stage?_moveTo_cases rfl hnext with ⟨rfl, -⟩ | hold
      · rw [hsame hother, waitOver_of_isResting s hresting] at hwait
        cases hwait
      · exact .inl (hsame hold)
  | left haction =>
      rcases stage?_moveTo_cases rfl hnext with ⟨rfl, rfl⟩ | hold
      · have hwaiting := not_isWaiting_of_isResting hresting
        rcases haction with rfl | rfl
        · obtain ⟨heq, hbegin⟩ := abandon_eq_some hcall hact
          rw [heq, stage?_moveTo_self hstage] at hnext
          exact .inr ⟨hbegin.resolve_right hwaiting, .inl (Option.some_inj.mp hnext).symm⟩
        · exact absurd (isWaiting_of_giveUpCall hcall hact) hwaiting
      · exact .inl (hsame hold)
  | called =>
      rw [stage?_call] at hnext
      split at hnext
      · next hplace =>
        have hlt := (List.getElem?_eq_some_iff.mp hcall).1
        omega
      · exact .inl (hsame hnext)
  | works hworks => exact .inl (hsame (hworks.stage?_eq ▸ hnext))

/-- A call that has just come has not begun. -/
theorem Change.stage?_new {s t : Session} {action : Action} (h : s.Change action t) {place : Nat}
    {stage : Stage} (hnew : s.stage? place = none) (hstage : t.stage? place = some stage) :
    stage = .begin := by
  have hknown {old : Stage} (hold : s.stage? place = some old) : stage = .begin := by
    rw [hnew] at hold
    cases hold
  cases h with
  | moves hcall hleads =>
      rcases stage?_moveTo_cases (hleads.stage?_eq hcall) hstage with ⟨rfl, -⟩ | hold
      · exact hknown (stage?_of_calls hcall)
      · exact hknown hold
  | waitOver hother | left _ hother =>
      rcases stage?_moveTo_cases rfl hstage with ⟨rfl, -⟩ | hold
      · exact hknown hother
      · exact hknown hold
  | called =>
      rw [stage?_call] at hstage
      split at hstage
      · exact (Option.some_inj.mp hstage).symm
      · exact hknown hstage
  | works hworks => exact hknown (hworks.stage?_eq ▸ hstage)

/-- A query that cannot be sent ends where it begins. -/
theorem firstStage_refused (s : Session) (err : EncodeError) :
    s.firstStage (.query (.error err)) =
      .done (.error (if s.isClosed then .connectionClosed else .encode err)) := by
  rw [firstStage]
  split <;> rfl

/-- A query that cannot be sent has not begun, or is over. -/
theorem Run.isResting_of_refused {options : SessionOptions} {steps : List (Session × Action)}
    {s : Session} (h : Run (.new options) steps s) {place : Nat} {stage : Stage} {err : EncodeError}
    (hjob : s.job? place = some (.query (.error err))) (hstage : s.stage? place = some stage) :
    stage.isResting := by
  induction h generalizing stage with
  | start => cases hstage
  | @act steps t u action _ hact ih =>
      cases hcall : t.calls[place]? with
      | none =>
          have hnew : t.stage? place = none := by rw [stage?, hcall]; rfl
          rw [(change_of_act hact).stage?_new hnew hstage]
          rfl
      | some call =>
          have hold : t.job? place = some call.job := job?_of_calls hcall
          have hrefused := Option.some_inj.mp (((change_of_act hact).job? hold).symm.trans hjob)
          have hresting := ih (hrefused ▸ hold) (stage?_of_calls hcall)
          rcases resting_of_act hact hcall hresting hstage with rfl | ⟨-, rfl | ⟨-, rfl⟩⟩
          · exact hresting
          · rfl
          · rw [hrefused, firstStage_refused]
            rfl

/-! ## What is queued -/

theorem asks?_eq_none {s : Session} {action : Action} (h : action.place? = none) :
    s.asks? action = none := by
  unfold asks?
  split
  · cases h
  · rfl

theorem asks?_eq_some {s : Session} {action : Action} {asked : Asked}
    (h : s.asks? action = some asked) :
    action = .move (.call asked.place) ∧ s.outboxOpen ∧
      s.stage? asked.place = some (.enqueue asked.exchange asked.stream) := by
  unfold asks? at h
  split at h
  · split at h
    · next hstage =>
      split at h <;> cases h
      next hopen => exact ⟨rfl, hopen, hstage⟩
    · cases h
  · cases h

/-- Only a call that queues its request adds to the frames. -/
theorem frames_of_act {s t : Session} {action : Action} (h : s.act action = some t) :
    t.frames = s.frames ++ (s.asks? action).toList.map fun asked =>
      (s.request asked.exchange).frame asked.stream := by
  have hsame (hframes : t.frames = s.frames) (hnone : s.asks? action = none) :
      t.frames = s.frames ++ (s.asks? action).toList.map fun asked =>
        (s.request asked.exchange).frame asked.stream := by
    rw [hframes, hnone, Option.toList_none, List.map_nil, List.append_nil]
  cases change_of_act h with
  | @moves place call u stage hcall hleads =>
      have hstage : s.stage? place = some call.stage := stage?_of_calls hcall
      generalize call.stage = old at hleads hstage
      cases hleads with
      | enqueue hopen exchange stream =>
          simp only [asks?, hstage, hopen, if_true]
          exact (List.append_assoc ..).symm
      | refused stream => exact hsame (keeps_cancel s stream).frames (by simp [asks?, hstage])
      | lost hgone stream =>
          exact hsame (keeps_cancel s stream).frames (by simp [asks?, hstage, hgone])
      | close part reason =>
          exact hsame (keeps_closePart s reason part).frames (by simp [asks?, hstage])
      | _ => exact hsame rfl (by simp [asks?, hstage])
  | waitOver | called => exact hsame rfl rfl
  | left haction => rcases haction with rfl | rfl <;> exact hsame rfl rfl
  | works hworks => exact hsame hworks.frames_eq (asks?_eq_none hworks.place?_eq_none)

theorem Leads.options {s u : Session} {place : Nat} {call : Call} {old stage : Stage}
    (h : Leads s place call old u stage) : u.options = s.options := by
  cases h with
  | refused stream | lost _ stream => exact (keeps_cancel s stream).options
  | close part reason => exact (keeps_closePart s reason part).options
  | _ => rfl

theorem Works.options {s t : Session} {action : Action} (h : s.Works action t) :
    t.options = s.options := by
  cases h with
  | reads =>
      unfold dispatch
      split
      · rfl
      · split <;> rfl
  | readerCloses _ hclose | writerCloses _ hclose | closes _ hclose =>
      subst hclose
      exact (keeps_closePart s _ _).options
  | pause =>
      unfold Session.pause
      split <;> rfl
  | _ => rfl

theorem options_of_act {s t : Session} {action : Action} (h : s.act action = some t) :
    t.options = s.options := by
  cases change_of_act h with
  | moves _ hleads => exact hleads.options
  | waitOver | left | called => rfl
  | works hworks => exact hworks.options

theorem Run.options {s t : Session} {steps : List (Session × Action)} (h : Run s steps t) :
    t.options = s.options := by
  induction h with
  | start => rfl
  | act _ _ hact ih => rw [options_of_act hact, ih]

end Session

end CqlClient
