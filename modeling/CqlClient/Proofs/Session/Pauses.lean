import CqlClient.Proofs.Session.Scenes

/-!
Calls that begin while queries are held back, and calls that begin too late. The former may perform
the handshake but queue no query before the next resumption. The latter only learn that the session
is closed. What is under way when the session is paused goes on as if it were not.
-/

namespace CqlClient.Session

/-- The session with another phase and another noted pause. -/
def rephase (s : Session) (phase : Phase) (noted : Bool) : Session :=
  { s with phase, pauseRequested := noted }

/-- The actions by which requests are sent and their responses come back to the calls. -/
def Carries (s : Session) : Action → Prop
  | .arrive _ => True
  | .move .reader => s.reader.isServing ∨ s.reader.duty = .striking
  | .move .writer => s.writer.isServing
  | .move (.call place) => ∃ stage exchange, s.stage? place = some stage ∧
      stage.exchange? = some exchange
  | _ => False

/-! ## What is under way when the session is paused -/

section Rephase

variable (s : Session) (phase : Phase) (noted : Bool)

theorem pause_eq_rephase : s.pause = s.rephase s.pause.phase s.pause.pauseRequested := by
  unfold pause rephase
  split <;> rfl

theorem cancel_rephase (stream : Int16) :
    (s.rephase phase noted).cancel stream = (s.cancel stream).rephase phase noted := by
  rw [cancel, cancel, show (s.rephase phase noted).inFlight = s.inFlight from rfl]
  cases s.inFlight.take? stream <;> rfl

theorem dispatch_rephase (frame : Frame) :
    (s.rephase phase noted).dispatch frame = (s.dispatch frame).rephase phase noted := by
  rw [dispatch, dispatch, show (s.rephase phase noted).inFlight = s.inFlight from rfl]
  split
  · rfl
  · cases s.inFlight.take? frame.stream <;> rfl

theorem conclude_rephase (place : Nat) (verdict : Verdict) :
    (s.rephase phase noted).conclude place verdict =
      (s.conclude place verdict).rephase phase noted := by
  cases verdict with
  | answered => rfl
  | breach reason =>
      rw [conclude, conclude, show (s.rephase phase noted).strike =
        (s.strike.1.rephase phase noted, s.strike.2) from rfl]
      rcases s.strike with ⟨u, _ | closing⟩ <;> rfl

theorem afterStartup_rephase (place : Nat) :
    (s.rephase phase noted).afterStartup place = (s.afterStartup place).rephase phase noted := by
  rw [afterStartup, afterStartup, show (s.rephase phase noted).options = s.options from rfl]
  split
  · rfl
  · split <;> rfl

theorem receive_rephase (place : Nat) (exchange : Exchange) (result : Except ClientError Frame) :
    (s.rephase phase noted).receive place exchange result =
      (s.receive place exchange result).rephase phase noted := by
  cases result with
  | error => cases exchange <;> rfl
  | ok frame =>
      cases exchange with
      | query => exact conclude_rephase ..
      | startup =>
          simp only [receive]
          cases Handshake.checkStartup frame with
          | ok => exact afterStartup_rephase ..
          | error => rfl
      | use =>
          simp only [receive]
          cases Handshake.checkUse frame <;> rfl

theorem register_rephase (place : Nat) (exchange : Exchange) :
    (s.rephase phase noted).register place exchange =
      (s.register place exchange).rephase phase noted := by
  rw [register, register, show (s.rephase phase noted).inFlight = s.inFlight from rfl]
  cases s.inFlight.register place with
  | none => exact receive_rephase ..
  | some => rfl

theorem enqueue_rephase (place : Nat) (exchange : Exchange) (stream : Int16) :
    (s.rephase phase noted).enqueue place exchange stream =
      (s.enqueue place exchange stream).rephase phase noted := by
  rw [enqueue, enqueue, show (s.rephase phase noted).outboxOpen = s.outboxOpen from rfl]
  split
  · rfl
  · rw [cancel_rephase, receive_rephase]

variable {s phase}

/-- A call that is at an exchange asks for no more of the phase than whether it is closed. -/
theorem moveCall_rephase {place : Nat} {call : Call} {exchange : Exchange}
    (hcall : s.calls[place]? = some call) (hexchange : call.stage.exchange? = some exchange)
    (hphase : phase = .closed ↔ s.phase = .closed) :
    (s.rephase phase noted).moveCall place = (s.moveCall place).map (·.rephase phase noted) := by
  have hclosed : (s.rephase phase noted).isClosed = s.isClosed := by
    rw [isClosed, isClosed, rephase, Bool.eq_iff_iff, beq_iff_eq, beq_iff_eq, hphase]
  simp only [moveCall, show (s.rephase phase noted).calls = s.calls from rfl, hcall,
    Option.bind_eq_bind, Option.bind_some]
  cases hstage : call.stage with
  | register => exact congrArg some (register_rephase ..)
  | check =>
      dsimp only
      rw [hclosed]
      split
      · rw [cancel_rephase, receive_rephase]
        rfl
      · rfl
  | enqueue => exact congrArg some (enqueue_rephase ..)
  | await =>
      dsimp only
      cases call.inbox with
      | none => rfl
      | some => exact congrArg some (receive_rephase { s with calls := _ } ..)
  | _ => rw [hstage] at hexchange; cases hexchange

theorem moveReader_rephase (h : s.reader.isServing ∨ s.reader.duty = .striking) :
    (s.rephase phase noted).moveReader = s.moveReader.map (·.rephase phase noted) := by
  rw [moveReader, moveReader, show (s.rephase phase noted).reader = s.reader from rfl]
  rcases h with hserving | hstriking
  · obtain ⟨hduty, hstopped⟩ : s.reader.duty = .serving ∧ s.reader.stopped = false := by
      simpa [Worker.isServing] using hserving
    simp only [hduty, hstopped, show (s.rephase phase noted).arrivals = s.arrivals from rfl]
    rcases s.arrivals with _ | ⟨err | frame, rest⟩
    · rfl
    · rfl
    · exact congrArg some (dispatch_rephase { s with arrivals := rest } ..)
  · simp only [hstriking]
    rfl

theorem moveWriter_rephase (h : s.writer.isServing) :
    (s.rephase phase noted).moveWriter = s.moveWriter.map (·.rephase phase noted) := by
  obtain ⟨hduty, hstopped⟩ : s.writer.duty = .serving ∧ s.writer.stopped = false := by
    simpa [Worker.isServing] using h
  rw [moveWriter, moveWriter, show (s.rephase phase noted).writer = s.writer from rfl]
  simp only [hduty, hstopped, show (s.rephase phase noted).queued = s.queued from rfl,
    show (s.rephase phase noted).outboxOpen = s.outboxOpen from rfl]
  cases s.queued with
  | cons => rfl
  | nil => cases s.outboxOpen <;> rfl

/-- To what carries requests and responses the phase does not matter, unless it is closed. -/
theorem act_rephase {action : Action} (h : s.Carries action)
    (hphase : phase = .closed ↔ s.phase = .closed) :
    (s.rephase phase noted).act action = (s.act action).map (·.rephase phase noted) := by
  unfold Carries at h
  split at h
  · rfl
  · exact moveReader_rephase noted h
  · exact moveWriter_rephase noted h
  · obtain ⟨stage, exchange, hstage, hexchange⟩ := h
    obtain ⟨call, hcall, rfl⟩ := Option.map_eq_some_iff.mp hstage
    exact moveCall_rephase noted hcall hexchange hphase
  · cases h

end Rephase

/-- What carries requests and responses leaves the phase as it is. -/
theorem phase_of_carries {s t : Session} {action : Action} (h : s.Carries action)
    (hact : s.act action = some t) :
    t.phase = s.phase ∧ t.pauseRequested = s.pauseRequested := by
  have heq : s.act action = (s.act action).map (·.rephase s.phase s.pauseRequested) :=
    act_rephase s.pauseRequested h Iff.rfl
  rw [hact] at heq
  have hsame : t = t.rephase s.phase s.pauseRequested := Option.some_inj.mp heq
  exact ⟨(congrArg Session.phase hsame :), (congrArg Session.pauseRequested hsame :)⟩

theorem pause_congr {s t : Session} (hphase : t.phase = s.phase)
    (hnoted : t.pauseRequested = s.pauseRequested) :
    t.pause = t.rephase s.pause.phase s.pause.pauseRequested := by
  unfold pause rephase
  rw [hphase]
  cases s.phase <;> simp [← hphase, ← hnoted]

/-- A pause and what carries requests and responses do not get in the way of one another. -/
theorem Carries.pause {s : Session} {action : Action} (h : s.Carries action) :
    s.pause.act action = (s.act action).map Session.pause := by
  have hclosed : s.pause.phase = .closed ↔ s.phase = .closed := by
    unfold Session.pause
    cases hphase : s.phase <;> simp [hphase]
  rw [pause_eq_rephase, act_rephase _ h hclosed]
  cases hact : s.act action with
  | none => rfl
  | some t =>
      obtain ⟨hphase, hnoted⟩ := phase_of_carries h hact
      exact congrArg some (pause_congr hphase hnoted).symm

/-- A run that carries requests and responses goes the same way after a pause. -/
theorem Run.pause {s t : Session} {steps : List (Session × Action)} (h : Run s steps t)
    (hcarries : ∀ step ∈ steps, step.1.Carries step.2) :
    Run s.pause (steps.map fun step => (step.1.pause, step.2)) t.pause := by
  induction h with
  | start => exact .start
  | @act steps t u action _ hact ih =>
      rw [List.map_append]
      have hlast : t.Carries action := hcarries (t, action) (by simp)
      refine .act action (ih fun step hstep => hcarries step (by simp [hstep])) ?_
      rw [hlast.pause, hact]
      rfl

/-! ## Calls that are held back -/

theorem not_next_uninitialized {phase : Phase} : ¬ phase.Next .uninitialized := by
  intro h
  cases h

theorem Run.started {s t : Session} {steps : List (Session × Action)} (h : Run s steps t)
    (hphase : s.phase ≠ .uninitialized) : t.phase ≠ .uninitialized := by
  induction h with
  | start => exact hphase
  | act _ _ hact ih =>
      rcases (turns_of_act hact).next with hsame | hnext
      · rwa [hsame]
      · intro hfirst
        exact not_next_uninitialized (hfirst ▸ hnext)

theorem Run.not_active {options : SessionOptions} {steps : List (Session × Action)} {s : Session}
    (h : Run (.new options) steps s) (hheld : Held steps) : s.phase ≠ .active := by
  intro hactive
  have hknows := h.remembers
  rw [Remembers, hactive] at hknows
  exact hknows hheld

theorem held_append {before later : List (Session × Action)} (h : Held before)
    (hlater : ∀ step ∈ later, step.2.holds? ≠ some false) : Held (before ++ later) := by
  induction later using List.reverseRecOn with
  | nil => rwa [List.append_nil]
  | append_singleton later step ih =>
      rw [← List.append_assoc]
      refine held_concat.mpr ?_
      have hold := ih fun other hother => hlater other (List.mem_append_left _ hother)
      cases hholds : step.2.holds? with
      | none => exact .inr ⟨rfl, hold⟩
      | some held =>
          cases held with
          | true => exact .inl rfl
          | false => exact absurd hholds (hlater step (by simp))

/-- A call that begins while queries are held back comes to no query before the next resumption, and
takes part in no handshake that has been claimed. -/
theorem Run.held_back {options : SessionOptions} {before later : List (Session × Action)}
    {s t : Session} (hbefore : Run (.new options) before s) (hheld : Held before)
    (h : Run s later t) (hlater : ∀ step ∈ later, step.2.holds? ≠ some false) {place : Nat}
    (hplace : ∀ stage, s.stage? place = some stage → stage = .begin) {stage : Stage}
    (hstage : t.stage? place = some stage) :
    (∀ request, stage.exchange? ≠ some (.query request)) ∧
      (s.phase ≠ .uninitialized → stage.isAside) := by
  induction h generalizing stage with
  | start =>
      rw [hplace stage hstage]
      exact ⟨by simp [Stage.exchange?], fun _ => rfl⟩
  | @act later t u action hrun hact ih =>
      have hquiet : ∀ step ∈ later, step.2.holds? ≠ some false :=
        fun step hstep => hlater step (List.mem_append_left _ hstep)
      have hactive := (hbefore.append hrun).not_active (held_append hheld hquiet)
      rcases (change_of_act hact).stage?_cases hstage with hold | hgiven | ⟨-, call, v, hcall, hleads⟩
      · exact ih hquiet hold
      · refine ⟨fun request hquery => ?_, fun _ => isAside_of_isGiven hgiven⟩
        rw [exchange?_of_isGiven hgiven] at hquery
        cases hquery
      · obtain ⟨hquery, haside⟩ := ih hquiet (stage?_of_calls hcall)
        constructor
        · intro request hnext
          rcases hleads.query hnext with hold | ⟨hphase, -⟩
          · exact hquery request hold
          · exact hactive hphase
        · intro hstarted
          rcases hleads.aside (haside hstarted) hactive with ⟨hnext, -⟩ | ⟨hfirst, -⟩
          · exact hnext
          · exact absurd hfirst (hrun.started hstarted)

/-! ## Calls that begin too late -/

theorem firstStage_closed {s : Session} (hclosed : s.phase = .closed)
    (query : Except EncodeError QueryRequest) :
    s.firstStage (.query query) = .done (.error .connectionClosed) := by
  simp only [firstStage, isClosed, hclosed]
  rfl

/-- A query that begins after the session has been closed only learns that. -/
theorem Run.too_late {s t : Session} {steps : List (Session × Action)} (h : Run s steps t)
    (hclosed : s.phase = .closed) {place : Nat}
    (hplace : ∀ stage, s.stage? place = some stage → stage = .begin)
    {query : Except EncodeError QueryRequest} (hjob : t.job? place = some (.query query))
    {stage : Stage} (hstage : t.stage? place = some stage) :
    stage = .begin ∨ stage = .dropped ∨ stage = .done (.error .connectionClosed) := by
  induction h generalizing stage with
  | start => exact .inl (hplace stage hstage)
  | @act steps t u action hrun hact ih =>
      cases hcall : t.calls[place]? with
      | none =>
          have hnew : t.stage? place = none := by rw [stage?, hcall]; rfl
          exact .inl ((change_of_act hact).stage?_new hnew hstage)
      | some call =>
          have hold : t.job? place = some call.job := job?_of_calls hcall
          have hquery := Option.some_inj.mp (((change_of_act hact).job? hold).symm.trans hjob)
          have hstages := ih (hquery ▸ hold) (stage?_of_calls hcall)
          have hresting : call.stage.isResting := by
            rcases hstages with heq | heq | heq <;> rw [heq] <;> rfl
          rcases resting_of_act hact hcall hresting hstage with rfl | ⟨-, rfl | ⟨-, rfl⟩⟩
          · exact hstages
          · exact .inr (.inl rfl)
          · rw [hquery, firstStage_closed (hrun.stays_closed hclosed)]
            exact .inr (.inr rfl)

/-! ## The laws of pauses and of closed sessions -/

/-- A call that begins while queries are held back queues no query before the next resumption, and
nothing at all if the handshake has been claimed. -/
theorem Run.asked_held_back {options : SessionOptions} {before later : List (Session × Action)}
    {s t : Session} (hbefore : Run (.new options) before s) (hheld : Held before)
    (h : Run s later t) (hlater : ∀ step ∈ later, step.2.holds? ≠ some false) {request : Asked}
    (hplace : ∀ stage, s.stage? request.place = some stage → stage = .begin)
    (hrequest : request ∈ asked later) :
    s.phase = .uninitialized ∧ ∀ query, request.exchange ≠ .query query := by
  obtain ⟨⟨u, action⟩, hmem, hasks⟩ := List.mem_filterMap.mp hrequest
  obtain ⟨early, late, rfl⟩ := List.append_of_mem hmem
  obtain ⟨hrun, -⟩ := h.at_step
  obtain ⟨-, -, hstage⟩ := asks?_eq_some hasks
  have hquiet : ∀ step ∈ early, step.2.holds? ≠ some false :=
    fun step hstep => hlater step (List.mem_append_left _ hstep)
  obtain ⟨hquery, haside⟩ := hbefore.held_back hheld hrun hquiet hplace hstage
  constructor
  · by_contra hstarted
    cases haside hstarted
  · intro query hexchange
    exact hquery query (congrArg some hexchange)

/-- A query that begins after the session has been closed ends with its first step. -/
theorem Run.act_too_late {s t u : Session} {before after : List (Session × Action)} {place : Nat}
    (h : Run s (before ++ (u, .move (.call place)) :: after) t) (hclosed : s.phase = .closed)
    (hplace : ∀ stage, s.stage? place = some stage → stage = .begin)
    {query : Except EncodeError QueryRequest} (hjob : t.job? place = some (.query query)) :
    u.act (.move (.call place)) = some (u.moveTo place (.done (.error .connectionClosed))) := by
  obtain ⟨hbefore, v, hact, hafter⟩ := h.at_step
  obtain ⟨call, w, next, hcall, hleads, -⟩ := leads_of_moveCall hact
  have hold : u.job? place = some call.job := job?_of_calls hcall
  have hquery := Option.some_inj.mp ((hafter.job? ((change_of_act hact).job? hold)).symm.trans hjob)
  have hstages := hbefore.too_late hclosed hplace (hquery ▸ hold) (stage?_of_calls hcall)
  have hbegin : call.stage = .begin := by
    rcases hstages with heq | heq | heq
    · exact heq
    · rw [heq] at hleads
      cases hleads
    · rw [heq] at hleads
      cases hleads
  rw [Session.act, move, moveCall_begin hcall hbegin, hquery,
    firstStage_closed (hbefore.stays_closed hclosed)]

/-- A call that begins after a pause queues no query before the next resumption, and nothing at all
unless the session was uninitialized, so that the call may perform the handshake. A pause leaves the
calls and the table of those that wait as they are, and what carries requests and responses goes on
after it to the same effect. A query that begins in a closed session can end at once, and its call
does nothing else. -/
theorem Run.pause_laws {options : SessionOptions} {before : List (Session × Action)} {s : Session}
    (h : Run (.new options) before s) :
    (∀ later t place, Held before → Run s later t → (∀ step ∈ later, step.2.holds? ≠ some false) →
      (∀ stage, s.stage? place = some stage → stage = .begin) →
        ∀ request ∈ asked later, request.place = place →
          s.phase = .uninitialized ∧ ∀ query, request.exchange ≠ .query query) ∧
      (s.pause.inFlight = s.inFlight ∧ s.pause.calls = s.calls ∧
        ∀ later t, Run s later t → (∀ step ∈ later, step.1.Carries step.2) →
          Run s.pause (later.map fun step => (step.1.pause, step.2)) t.pause) ∧
      (s.phase = .closed → ∀ later t place query, Run s later t →
        (∀ stage, s.stage? place = some stage → stage = .begin) →
          t.job? place = some (.query query) →
            (∀ stage, t.stage? place = some stage →
              stage = .begin ∨ stage = .dropped ∨ stage = .done (.error .connectionClosed)) ∧
            (t.stage? place = some .begin → t.act (.move (.call place)) =
              some (t.moveTo place (.done (.error .connectionClosed)))) ∧
            ∀ u, (u, .move (.call place)) ∈ later → u.act (.move (.call place)) =
              some (u.moveTo place (.done (.error .connectionClosed)))) := by
  refine ⟨?_, ⟨?_, ?_, ?_⟩, ?_⟩
  · rintro later t place hheld hrun hlater hplace request hrequest rfl
    exact h.asked_held_back hheld hrun hlater hplace hrequest
  · rw [pause_eq_rephase]
    rfl
  · rw [pause_eq_rephase]
    rfl
  · exact fun later t hrun hcarries => hrun.pause hcarries
  · intro hclosed later t place query hrun hplace hjob
    refine ⟨fun stage hstage => hrun.too_late hclosed hplace hjob hstage, ?_, ?_⟩
    · intro hbegin
      obtain ⟨call, hcall, hstage⟩ := Option.map_eq_some_iff.mp hbegin
      have hold : t.job? place = some call.job := job?_of_calls hcall
      rw [Session.act, move, moveCall_begin hcall hstage, Option.some_inj.mp (hold.symm.trans hjob),
        firstStage_closed (hrun.stays_closed hclosed)]
    · intro u hmem
      obtain ⟨early, late, rfl⟩ := List.append_of_mem hmem
      exact hrun.act_too_late hclosed hplace hjob

/-- A query that is the first call of a session performs the handshake, paused or not. -/
theorem early_pause :
    ∃ before later s t, Run (.new (.standard ⟨"node", 9042⟩ "")) before s ∧ Held before ∧
      Run s later t ∧ (∀ step ∈ later, step.2.holds? ≠ some false) ∧
        (∀ stage, s.stage? 0 = some stage → stage = .begin) ∧
          (∃ request, t.job? 0 = some (.query (.ok request))) ∧
            ∃ deadline, asked later = [⟨0, .startup deadline, 0⟩] := by
  have hnew : Run (.new (.standard ⟨"node", 9042⟩ "")) _ _ := .start
  have hpaused := hnew.act .pause rfl
  have hstart : Run ((Session.new (.standard ⟨"node", 9042⟩ "")).pause) _ _ := .start
  have hcalled := hstart.act (.call (.query (.ok ⟨"SELECT 1", .one, []⟩)) none) rfl
  have hsettles := hcalled.act (.move (.call 0)) rfl
  have hclaims := hsettles.act (.move (.call 0)) rfl
  have hconnects := hclaims.act (.move (.call 0)) rfl
  have hready := hconnects.act (.transport .ready) rfl
  have hopens := hready.act (.move (.call 0)) rfl
  have hstarts := hopens.act (.move (.call 0)) rfl
  have hrecords := hstarts.act (.move (.call 0)) rfl
  have hregisters := hrecords.act (.move (.call 0)) rfl
  have hchecks := hregisters.act (.move (.call 0)) rfl
  have henqueues := hchecks.act (.move (.call 0)) rfl
  have hawaits := henqueues.act (.move (.call 0)) rfl
  refine ⟨_, _, _, _, hpaused, rfl, hawaits, by simp [Action.holds?], ?_, ⟨_, rfl⟩, _, rfl⟩
  intro stage hstage
  cases hstage

/-- A call that begins after a pause, with no resumption since, queues the startup message. -/
theorem startup_queued_while_held :
    ∃ before later s t, Run (.new (.standard ⟨"node", 9042⟩ "")) before s ∧ Held before ∧
      Run s later t ∧ (∀ step ∈ later, step.2.holds? ≠ some false) ∧
        (∀ stage, s.stage? 0 = some stage → stage = .begin) ∧
          (∃ request, t.job? 0 = some (.query (.ok request))) ∧
            ∃ request ∈ asked later, request.place = 0 := by
  obtain ⟨before, later, s, t, hbefore, hheld, hlater, hquiet, hbegin, hjob, deadline, hasked⟩ :=
    early_pause
  exact ⟨before, later, s, t, hbefore, hheld, hlater, hquiet, hbegin, hjob, _,
    by rw [hasked]; exact List.mem_singleton_self _, rfl⟩

/-- A call that begins after a pause and performs the handshake, and one that begins in a closed
session. -/
theorem pause_laws_of_early_pause_and_close :
    (∃ before later s t, Run (.new (.standard ⟨"node", 9042⟩ "")) before s ∧ Held before ∧
      Run s later t ∧ asked later ≠ [] ∧
        ∀ request ∈ asked later, request.place = 0 → ∀ query, request.exchange ≠ .query query) ∧
      ∃ before later s t, Run (.new (.standard ⟨"node", 9042⟩ "")) before s ∧ s.phase = .closed ∧
        Run s later t ∧ ∃ stage, t.stage? 0 = some stage ∧
          (stage = .begin ∨ stage = .dropped ∨ stage = .done (.error .connectionClosed)) := by
  constructor
  · obtain ⟨before, later, s, t, hbefore, hheld, hlater, hquiet, hbegin, -, deadline, hasked⟩ :=
      early_pause
    obtain ⟨hlaw, -⟩ := hbefore.pause_laws
    refine ⟨before, later, s, t, hbefore, hheld, hlater, by simp [hasked], ?_⟩
    intro request hrequest hplace
    exact (hlaw later t 0 hheld hlater hquiet hbegin request hrequest hplace).2
  · have hnew : Run (.new (.standard ⟨"node", 9042⟩ "")) _ _ := .start
    have hcloses := hnew.act .close rfl
    have hclosed := hcloses.act (.move (.closer 0)) rfl
    have hstart : Run { Session.new (.standard ⟨"node", 9042⟩ "") with
      phase := .closed, closers := [some .dropOutbox] } _ _ := .start
    have hcalled := hstart.act (.call (.query (.ok ⟨"SELECT 1", .one, []⟩)) none) rfl
    have hends := hcalled.act (.move (.call 0)) rfl
    obtain ⟨-, -, hlaw⟩ := hclosed.pause_laws
    obtain ⟨hstages, -⟩ := hlaw rfl _ _ 0 _ hends (fun _ hstage => by cases hstage) rfl
    exact ⟨_, _, _, _, hclosed, rfl, hends, _, rfl, hstages _ rfl⟩

end CqlClient.Session
