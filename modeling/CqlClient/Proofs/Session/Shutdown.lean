import CqlClient.Proofs.Session.Change

/-!
The order in which a session is closed. Whoever closes it latches the phase before the workers are
stopped, and the workers are stopped before the waiters are failed; a session whose workers are not
known yet has nothing asked and will ask nothing. So once waiters are failed no answer reaches a
call any more.
-/

namespace CqlClient

/-- The stages of a call whose request is being queued or has been. -/
def Stage.isAsking : Stage → Bool
  | .enqueue .. | .await .. => true
  | _ => false

/-- The stages that a call reaches only after the workers have been made known. -/
def Stage.isPrepared : Stage → Bool
  | .register _ | .check .. | .enqueue .. | .await .. | .land => true
  | _ => false

/-- The stages that a call comes to other than by a step of its own. -/
def Stage.isGiven : Stage → Bool
  | .begin | .close .latch _ _ | .done _ | .dropped => true
  | _ => false

/-- The part of closing that a worker has to do next, and why. -/
def Duty.part? : Duty → Option (Closing × ClientError)
  | .closing part reason _ => some (part, reason)
  | _ => none

/-- The part of closing that a call has to do next, and why. -/
def Stage.part? : Stage → Option (Closing × ClientError)
  | .close part reason _ => some (part, reason)
  | _ => none

theorem duty_eq_of_part? {duty : Duty} {part : Closing} {reason : ClientError}
    (h : duty.part? = some (part, reason)) : ∃ last, duty = .closing part reason last := by
  cases duty with
  | closing => cases h; exact ⟨_, rfl⟩
  | _ => cases h

theorem stage_eq_of_part? {stage : Stage} {part : Closing} {reason : ClientError}
    (h : stage.part? = some (part, reason)) : ∃ result, stage = .close part reason result := by
  cases stage with
  | close => cases h; exact ⟨_, rfl⟩
  | _ => cases h

theorem isPrepared_of_isAsking {stage : Stage} (h : stage.isAsking) : stage.isPrepared := by
  cases stage with
  | enqueue | await => rfl
  | _ => cases h

theorem not_isPrepared_of_isGiven {stage : Stage} (h : stage.isGiven) : ¬ stage.isPrepared := by
  intro hprepared
  cases stage with
  | register | check | enqueue | await | land => cases h
  | _ => cases hprepared

namespace Session

/-- Somebody has this part of closing as the next thing to do. -/
def IsClosing (s : Session) (part : Closing) : Prop :=
  (∃ reason last, s.reader.duty = .closing part reason last) ∨
    (∃ reason last, s.writer.duty = .closing part reason last) ∨ some part ∈ s.closers ∨
      ∃ place reason result, s.stage? place = some (.close part reason result)

/-- The part of closing that somebody has to do next, and why. -/
def part? (s : Session) : Actor → Option (Closing × ClientError)
  | .reader => s.reader.duty.part?
  | .writer => s.writer.duty.part?
  | .call place => (s.stage? place).bind Stage.part?
  | .closer place => s.closers[place]?.bind (·.map (·, .connectionClosed))

/-- All frames that have ever been queued, in their order. -/
def frames (s : Session) : List Frame := s.sent ++ s.queued

/-- No answer will be handed to a call any more: nobody reads, or there is nothing to answer. -/
def Deaf (s : Session) : Prop :=
  s.reader.stopped ∨ s.phase = .closed ∧ s.frames = [] ∧
    ∀ place stage, s.stage? place = some stage → ¬ stage.isAsking

/-- Before the workers are known to those who close the session, nothing has been asked. -/
def Unprepared (s : Session) : Prop :=
  s.phase ≠ .active ∧ s.phase ≠ .paused ∧ s.frames = [] ∧
    ∀ place stage, s.stage? place = some stage → ¬ stage.isPrepared

/-- The parts of closing are done in their order. -/
structure Orderly (s : Session) : Prop where
  prepared : s.workersRecorded ∨ s.Unprepared
  closed : ∀ part, s.IsClosing part → part ≠ .latch → s.phase = .closed
  stopped : s.reader.stopped → s.phase = .closed
  deaf : s.IsClosing .failWaiters → s.Deaf

/-! ## What steps leave alone -/

/-- What is on its way, and what closing has come to, is the same in both sessions. -/
structure Keeps (s t : Session) : Prop where
  options : t.options = s.options
  sent : t.sent = s.sent
  queued : t.queued = s.queued
  arrivals : t.arrivals = s.arrivals
  workersRecorded : t.workersRecorded = s.workersRecorded
  closers : t.closers = s.closers
  readerDuty : t.reader.duty = s.reader.duty
  writerDuty : t.writer.duty = s.writer.duty
  stopped : s.reader.stopped → t.reader.stopped

theorem Keeps.frames {s t : Session} (h : s.Keeps t) : t.frames = s.frames := by
  rw [Session.frames, h.sent, h.queued, Session.frames]

theorem keeps_cancel (s : Session) (stream : Int16) : s.Keeps (s.cancel stream) := by
  unfold cancel
  split
  · exact ⟨rfl, rfl, rfl, rfl, rfl, rfl, rfl, rfl, id⟩
  · exact ⟨rfl, rfl, rfl, rfl, rfl, rfl, rfl, rfl, id⟩

theorem Keeps.hand {s u : Session} (h : s.Keeps u) (place : Nat)
    (result : Except ClientError Frame) : s.Keeps (u.hand place result) :=
  ⟨h.options, h.sent, h.queued, h.arrivals, h.workersRecorded, h.closers, h.readerDuty, h.writerDuty,
    h.stopped⟩

theorem keeps_closePart (s : Session) (reason : ClientError) (part : Closing) :
    s.Keeps (s.closePart reason part) := by
  cases part with
  | latch | dropOutbox => exact ⟨rfl, rfl, rfl, rfl, rfl, rfl, rfl, rfl, id⟩
  | stopWorkers =>
      rw [closePart]
      split
      · exact ⟨rfl, rfl, rfl, rfl, rfl, rfl, rfl, rfl, fun _ => rfl⟩
      · exact ⟨rfl, rfl, rfl, rfl, rfl, rfl, rfl, rfl, id⟩
  | failWaiters =>
      apply closePart_failWaiters (P := s.Keeps) reason (fun u place h => h.hand place _)
      exact ⟨rfl, rfl, rfl, rfl, rfl, rfl, rfl, rfl, id⟩

theorem Leads.stays_closed {s u : Session} {place : Nat} {call : Call} {old stage : Stage}
    (h : Leads s place call old u stage) (hclosed : s.phase = .closed) : u.phase = .closed := by
  cases h with
  | claim hfirst | land hfirst =>
      rw [hfirst] at hclosed
      cases hclosed
  | refused | lost => rwa [phase_cancel]
  | close =>
      rw [phase_closePart]
      split
      · rfl
      · exact hclosed
  | _ => exact hclosed

/-- What is closed stays closed. -/
theorem Change.stays_closed {s t : Session} {action : Action} (h : s.Change action t)
    (hclosed : s.phase = .closed) : t.phase = .closed := by
  cases h with
  | moves _ hleads => exact hleads.stays_closed hclosed
  | waitOver | left | called => exact hclosed
  | works h =>
      cases h with
      | reads => rwa [phase_dispatch]
      | readerCloses _ hclose | writerCloses _ hclose | closes _ hclose =>
          subst hclose
          show (s.closePart _ _).phase = .closed
          rw [phase_closePart]
          split
          · rfl
          · exact hclosed
      | pause =>
          unfold Session.pause
          rw [hclosed]
          exact hclosed
      | resume =>
          unfold Session.resume
          rw [hclosed]
          rfl
      | _ => exact hclosed

theorem Leads.stays_stopped {s u : Session} {place : Nat} {call : Call} {old stage : Stage}
    (h : Leads s place call old u stage) (hstopped : s.reader.stopped) : u.reader.stopped := by
  cases h with
  | refused stream | lost _ stream => exact (keeps_cancel s stream).stopped hstopped
  | close part reason => exact (keeps_closePart s reason part).stopped hstopped
  | _ => exact hstopped

/-- A reader that has been stopped is never started again. -/
theorem Change.stays_stopped {s t : Session} {action : Action} (h : s.Change action t)
    (hstopped : s.reader.stopped) : t.reader.stopped := by
  cases h with
  | moves _ hleads => exact hleads.stays_stopped hstopped
  | waitOver | left | called => exact hstopped
  | works h =>
      cases h with
      | reads =>
          unfold dispatch
          split
          · exact hstopped
          · split <;> exact hstopped
      | readerCloses _ hclose | writerCloses _ hclose | closes _ hclose =>
          subst hclose
          exact (keeps_closePart s _ _).stopped hstopped
      | pause =>
          unfold Session.pause
          split <;> exact hstopped
      | _ => exact hstopped

/-! ## Where a step of a call goes -/

theorem firstStage_eq (s : Session) (job : Job) :
    s.firstStage job = .settle ∨ ∃ result, s.firstStage job = .done result := by
  unfold firstStage
  split
  · exact .inl rfl
  · split
    · exact .inr ⟨_, rfl⟩
    · split
      · exact .inr ⟨_, rfl⟩
      · exact .inl rfl

theorem settled_eq_some {s : Session} {job : Job} {stage : Stage} (h : s.settled job = some stage) :
    stage = .claim ∨ (∃ result, stage = .done result) ∨
      s.phase = .active ∧ ∃ request, stage = .register (.query request) := by
  unfold settled at h
  split at h <;> cases h
  · exact .inr (.inl ⟨_, rfl⟩)
  · exact .inr (.inl ⟨_, rfl⟩)
  · next hactive => exact .inr (.inr ⟨hactive, _, rfl⟩)
  · exact .inr (.inl ⟨_, rfl⟩)
  · exact .inr (.inl ⟨_, rfl⟩)
  · exact .inl rfl

theorem not_isAsking_of_leadsTo {exchange : Exchange} {stage : Stage} (h : exchange.LeadsTo stage) :
    ¬ stage.isAsking := by
  cases h <;> simp [Stage.isAsking]

/-- A call begins to ask only while the session is not closed. -/
theorem Leads.not_isAsking {s u : Session} {place : Nat} {call : Call} {old stage : Stage}
    (h : Leads s place call old u stage) (hold : ¬ old.isAsking) (hclosed : s.phase = .closed) :
    ¬ stage.isAsking ∧ u.frames = s.frames := by
  cases h with
  | begin =>
      rcases firstStage_eq s call.job with heq | ⟨result, heq⟩ <;> rw [heq] <;>
        exact ⟨by simp [Stage.isAsking], rfl⟩
  | settle h =>
      rcases settled_eq_some h with rfl | ⟨result, rfl⟩ | ⟨-, request, rfl⟩ <;>
        exact ⟨by simp [Stage.isAsking], rfl⟩
  | check hopen => exact absurd hclosed hopen
  | enqueue | lost | await => exact absurd rfl hold
  | exhausted hto => exact ⟨not_isAsking_of_leadsTo hto, rfl⟩
  | refused stream hto => exact ⟨not_isAsking_of_leadsTo hto, (keeps_cancel s stream).frames⟩
  | close part reason result =>
      refine ⟨?_, (keeps_closePart s reason part).frames⟩
      cases part <;> simp [stageAfter, Closing.next?, Stage.isAsking]
  | _ => exact ⟨by simp [Stage.isAsking], rfl⟩

/-- The stages after a call has gone to another one. -/
theorem stage?_moveTo_cases {s u : Session} {place other : Nat} {stage found : Stage}
    (hsame : u.stage? = s.stage?) (h : (u.moveTo place stage).stage? other = some found) :
    other = place ∧ found = stage ∨ s.stage? other = some found := by
  by_cases hplace : place = other
  · subst hplace
    rw [stage?, getElem?_moveTo, if_pos rfl] at h
    obtain ⟨_, hcall, rfl⟩ := Option.map_eq_some_iff.mp h
    obtain ⟨_, -, rfl⟩ := Option.map_eq_some_iff.mp hcall
    exact .inl ⟨rfl, rfl⟩
  · rw [stage?_moveTo_ne u hplace, hsame] at h
    exact .inr h

/-- Without a call nothing is queued. -/
theorem Works.frames_eq {s t : Session} {action : Action} (h : s.Works action t) :
    t.frames = s.frames := by
  cases h with
  | reads =>
      unfold dispatch
      split
      · rfl
      · split <;> rfl
  | writes hqueued =>
      rw [Session.frames, Session.frames, hqueued]
      exact (List.append_cons ..).symm
  | readerCloses _ hclose | writerCloses _ hclose | closes _ hclose =>
      subst hclose
      exact (keeps_closePart s _ _).frames
  | pause =>
      unfold Session.pause
      split <;> rfl
  | _ => rfl

/-- Whatever happens is a step of a call, or is done to a call alone, or is done without a call. -/
theorem Change.moves_or_gives_or_works {s t : Session} {action : Action} (h : s.Change action t) :
    (∃ place call u stage, s.calls[place]? = some call ∧ Leads s place call call.stage u stage ∧
        t = u.moveTo place stage) ∨
      (t = { s with calls := t.calls } ∧ ∀ place stage, t.stage? place = some stage →
        s.stage? place = some stage ∨ stage.isGiven) ∨ s.Works action t := by
  cases h with
  | moves hcall hleads => exact .inl ⟨_, _, _, _, hcall, hleads, rfl⟩
  | waitOver =>
      refine .inr (.inl ⟨rfl, ?_⟩)
      intro other found hfound
      rcases stage?_moveTo_cases rfl hfound with ⟨-, rfl⟩ | hold
      · exact .inr rfl
      · exact .inl hold
  | left _ _ hstage =>
      refine .inr (.inl ⟨rfl, ?_⟩)
      intro other found hfound
      rcases stage?_moveTo_cases rfl hfound with ⟨-, rfl⟩ | hold
      · right
        rcases hstage with rfl | ⟨result, rfl⟩ <;> rfl
      · exact .inl hold
  | called job limit =>
      refine .inr (.inl ⟨rfl, ?_⟩)
      intro other found hfound
      rw [stage?_call] at hfound
      split at hfound
      · cases hfound
        exact .inr rfl
      · exact .inl hfound
  | works h => exact .inr (.inr h)

/-- A session that is deaf stays so. -/
theorem Deaf.change {s t : Session} {action : Action} (h : s.Deaf) (hchange : s.Change action t) :
    t.Deaf := by
  rcases h with hstopped | ⟨hclosed, hframes, hasking⟩
  · exact .inl (hchange.stays_stopped hstopped)
  · refine .inr ⟨hchange.stays_closed hclosed, ?_⟩
    rcases hchange.moves_or_gives_or_works with
      ⟨place, call, u, stage, hcall, hleads, rfl⟩ | ⟨heq, hgiven⟩ | hworks
    · have hold : ¬ call.stage.isAsking := hasking place call.stage (stage?_of_calls hcall)
      obtain ⟨hstage, hsame⟩ := hleads.not_isAsking hold hclosed
      refine ⟨hsame.trans hframes, ?_⟩
      intro other found hfound
      rcases stage?_moveTo_cases (hleads.stage?_eq hcall) hfound with ⟨-, rfl⟩ | hfound
      · exact hstage
      · exact hasking other found hfound
    · have hsame : t.frames = s.frames := by
        rw [heq]
        rfl
      refine ⟨hsame.trans hframes, ?_⟩
      intro other found hfound
      rcases hgiven other found hfound with hold | hnew
      · exact hasking other found hold
      · intro hask
        exact not_isPrepared_of_isGiven hnew (isPrepared_of_isAsking hask)
    · exact ⟨hworks.frames_eq.trans hframes, hworks.stage?_eq ▸ hasking⟩

/-! ## The parts of closing -/

theorem isClosing_iff {s : Session} {part : Closing} :
    s.IsClosing part ↔ ∃ actor reason, s.part? actor = some (part, reason) := by
  constructor
  · rintro (⟨reason, last, h⟩ | ⟨reason, last, h⟩ | h | ⟨place, reason, result, h⟩)
    · exact ⟨.reader, reason, by rw [part?, h]; rfl⟩
    · exact ⟨.writer, reason, by rw [part?, h]; rfl⟩
    · obtain ⟨place, hplace⟩ := List.mem_iff_getElem?.mp h
      exact ⟨.closer place, .connectionClosed, by rw [part?, hplace]; rfl⟩
    · exact ⟨.call place, reason, by rw [part?, h]; rfl⟩
  · rintro ⟨actor, reason, h⟩
    cases actor with
    | reader =>
        obtain ⟨last, h⟩ := duty_eq_of_part? h
        exact .inl ⟨reason, last, h⟩
    | writer =>
        obtain ⟨last, h⟩ := duty_eq_of_part? h
        exact .inr (.inl ⟨reason, last, h⟩)
    | closer place =>
        obtain ⟨next, hplace, h⟩ := Option.bind_eq_some_iff.mp h
        obtain ⟨_, rfl, ⟨⟩⟩ := Option.map_eq_some_iff.mp h
        exact .inr (.inr (.inl (List.mem_of_getElem? hplace)))
    | call place =>
        obtain ⟨stage, hstage, h⟩ := Option.bind_eq_some_iff.mp h
        obtain ⟨result, rfl⟩ := stage_eq_of_part? h
        exact .inr (.inr (.inr ⟨place, reason, result, hstage⟩))

/-- The sessions differ only in who is to do what next, and no call has begun to ask. -/
structure Agrees (s t : Session) : Prop where
  phase : t.phase = s.phase
  outboxOpen : t.outboxOpen = s.outboxOpen
  stopped : t.reader.stopped = s.reader.stopped
  frames : t.frames = s.frames
  asking : ∀ place stage, t.stage? place = some stage → stage.isAsking → s.stage? place = some stage

theorem Agrees.deaf {s t : Session} (h : s.Agrees t) (hdeaf : s.Deaf) : t.Deaf := by
  rcases hdeaf with hstopped | ⟨hclosed, hnone, hasking⟩
  · exact .inl (h.stopped.trans hstopped)
  · refine .inr ⟨h.phase.trans hclosed, h.frames.trans hnone, ?_⟩
    intro place stage hfound hask
    exact hasking place stage (h.asking place stage hfound hask) hask

/-- Somebody has a part of closing to do after an action: it had the same part to do before, or the
part is the first one, or the action was to do the part before it. -/
def Arrives (s t : Session) (actor : Actor) (part : Closing) (reason : ClientError) : Prop :=
  s.part? actor = some (part, reason) ∨ part = .latch ∨ ∃ before why,
    s.part? actor = some (before, why) ∧ before.next? = some part ∧
      (s.closePart why before).Agrees t

theorem part?_dutyAfter {part before : Closing} {reason why : ClientError} {last : Bool}
    (h : (dutyAfter before why last).part? = some (part, reason)) : before.next? = some part := by
  unfold dutyAfter at h
  split at h
  · next hnext =>
    cases h
    exact hnext
  · split at h <;> cases h

theorem part?_stageAfter {part before : Closing} {reason why : ClientError} {result : CallResult}
    (h : (stageAfter before why result).part? = some (part, reason)) : before.next? = some part := by
  unfold stageAfter at h
  split at h
  · next hnext =>
    cases h
    exact hnext
  · cases h

/-- A call that is not closing the session begins with the first part. -/
theorem Leads.part? {s u : Session} {place : Nat} {call : Call} {old stage : Stage}
    (h : Leads s place call old u stage) {part : Closing} {reason : ClientError}
    (hpart : stage.part? = some (part, reason)) :
    part = .latch ∨ ∃ before why, old.part? = some (before, why) ∧ before.next? = some part ∧
      u = s.closePart why before := by
  have hto {exchange : Exchange} (hto : exchange.LeadsTo stage) : part = .latch := by
    cases hto <;> cases hpart
    rfl
  cases h with
  | begin =>
      rcases firstStage_eq s call.job with heq | ⟨_, heq⟩ <;> rw [heq] at hpart <;> cases hpart
  | settle h =>
      rcases settled_eq_some h with rfl | ⟨_, rfl⟩ | ⟨-, _, rfl⟩ <;> cases hpart
  | unreachable | closed =>
      cases hpart
      exact .inl rfl
  | exhausted h | refused _ h | lost _ _ h | await _ _ _ h => exact .inl (hto h)
  | close before why => exact .inr ⟨before, why, rfl, part?_stageAfter hpart, rfl⟩
  | _ => cases hpart

/-- The duties and the closers after a step of a call are those before it, but for workers that it
has started. -/
theorem Leads.duties {s u : Session} {place : Nat} {call : Call} {old stage : Stage}
    (h : Leads s place call old u stage) :
    u.closers = s.closers ∧ (u.reader.duty = s.reader.duty ∨ u.reader.duty = .serving) ∧
      (u.writer.duty = s.writer.duty ∨ u.writer.duty = .serving) := by
  cases h with
  | startWorkers => exact ⟨rfl, .inr rfl, .inr rfl⟩
  | refused stream | lost _ stream =>
      have hkept := keeps_cancel s stream
      exact ⟨hkept.closers, .inl hkept.readerDuty, .inl hkept.writerDuty⟩
  | close part reason =>
      have hkept := keeps_closePart s reason part
      exact ⟨hkept.closers, .inl hkept.readerDuty, .inl hkept.writerDuty⟩
  | _ => exact ⟨rfl, .inl rfl, .inl rfl⟩

theorem Leads.arrives {s u : Session} {place : Nat} {call : Call} {stage : Stage}
    (hcall : s.calls[place]? = some call) (hleads : Leads s place call call.stage u stage)
    {actor : Actor} {part : Closing} {reason : ClientError}
    (h : (u.moveTo place stage).part? actor = some (part, reason)) :
    Arrives s (u.moveTo place stage) actor part reason := by
  obtain ⟨hclosers, hreader, hwriter⟩ := hleads.duties
  cases actor with
  | reader =>
      change u.reader.duty.part? = _ at h
      rcases hreader with hsame | hserving
      · exact .inl ((congrArg Duty.part? hsame).symm.trans h)
      · rw [hserving] at h
        cases h
  | writer =>
      change u.writer.duty.part? = _ at h
      rcases hwriter with hsame | hserving
      · exact .inl ((congrArg Duty.part? hsame).symm.trans h)
      · rw [hserving] at h
        cases h
  | closer other =>
      left
      rw [Session.part?, ← hclosers]
      exact h
  | call other =>
      obtain ⟨found, hfound, hpart⟩ := Option.bind_eq_some_iff.mp h
      rcases stage?_moveTo_cases (hleads.stage?_eq hcall) hfound with ⟨rfl, rfl⟩ | hsame
      · rcases hleads.part? hpart with hlatch | ⟨before, why, hold, hnext, rfl⟩
        · exact .inr (.inl hlatch)
        · refine .inr (.inr ⟨before, why, ?_, hnext, rfl, rfl, rfl, rfl, ?_⟩)
          · rw [Session.part?, stage?_of_calls hcall]
            exact hold
          · intro place' stage' hstage hask
            rcases stage?_moveTo_cases rfl hstage with ⟨-, rfl⟩ | hstage
            · obtain ⟨result, rfl⟩ := stage_eq_of_part? hpart
              cases hask
            · exact hstage
      · exact .inl (Option.bind_eq_some_iff.mpr ⟨found, hsame, hpart⟩)

theorem dispatch_duties (s : Session) (frame : Frame) :
    ((s.dispatch frame).reader.duty = s.reader.duty ∨ (s.dispatch frame).reader.duty = .striking) ∧
      (s.dispatch frame).writer = s.writer ∧ (s.dispatch frame).closers = s.closers := by
  unfold dispatch
  split
  · exact ⟨.inl rfl, rfl, rfl⟩
  · split
    · exact ⟨.inl rfl, rfl, rfl⟩
    · exact ⟨.inr rfl, rfl, rfl⟩

theorem part?_congr {s t : Session} (hreader : t.reader.duty = s.reader.duty)
    (hwriter : t.writer.duty = s.writer.duty) (hclosers : t.closers = s.closers)
    (hstage : t.stage? = s.stage?) : t.part? = s.part? := by
  funext actor
  cases actor with
  | reader => exact congrArg Duty.part? hreader
  | writer => exact congrArg Duty.part? hwriter
  | closer => rw [part?, part?, hclosers]
  | call => rw [part?, part?, hstage]

theorem part?_closePart (s : Session) (reason : ClientError) (part : Closing) :
    (s.closePart reason part).part? = s.part? := by
  have hkept := keeps_closePart s reason part
  exact part?_congr hkept.readerDuty hkept.writerDuty hkept.closers (stage?_closePart s reason part)

theorem Works.arrives {s t : Session} {action : Action} (h : s.Works action t) {actor : Actor}
    {part : Closing} {reason : ClientError} (hpart : t.part? actor = some (part, reason)) :
    Arrives s t actor part reason := by
  -- Whoever has done nothing has the same to do.
  have hsame (hkept : t.part? actor = s.part? actor) : Arrives s t actor part reason :=
    .inl (hkept.symm.trans hpart)
  cases h with
  | reads =>
      obtain ⟨hreader, hwriter, hclosers⟩ := dispatch_duties _ _
      cases actor with
      | reader =>
          rcases hreader with hkept | hstriking
          · exact hsame (congrArg Duty.part? hkept)
          · rw [part?, hstriking] at hpart
            cases hpart
      | writer => exact hsame (congrArg (fun worker => worker.duty.part?) hwriter)
      | closer => exact hsame (by rw [part?, hclosers]; rfl)
      | call => exact hsame (by rw [part?, stage?_dispatch]; rfl)
  | ends =>
      cases actor with
      | reader => cases hpart; exact .inr (.inl rfl)
      | writer | closer | call => exact hsame rfl
  | strikes _ hnext =>
      cases actor with
      | reader =>
          rcases hnext with rfl | ⟨_, rfl⟩ <;> cases hpart
          exact .inr (.inl rfl)
      | writer | closer | call => exact hsame rfl
  | @readerCloses before why last _ hduty hclose =>
      subst hclose
      have hkept := congrFun (part?_closePart s why before)
      cases actor with
      | reader =>
          exact .inr (.inr ⟨before, why, by rw [part?, hduty]; rfl, part?_dutyAfter hpart,
            rfl, rfl, rfl, rfl, fun _ _ hstage _ => hstage⟩)
      | writer => exact hsame (hkept .writer)
      | closer place => exact hsame (hkept (.closer place))
      | call place => exact hsame (hkept (.call place))
  | @writerCloses before why last _ hduty hclose =>
      subst hclose
      have hkept := congrFun (part?_closePart s why before)
      cases actor with
      | writer =>
          exact .inr (.inr ⟨before, why, by rw [part?, hduty]; rfl, part?_dutyAfter hpart,
            rfl, rfl, rfl, rfl, fun _ _ hstage _ => hstage⟩)
      | reader => exact hsame (hkept .reader)
      | closer place => exact hsame (hkept (.closer place))
      | call place => exact hsame (hkept (.call place))
  | @closes place before _ hcloser hclose =>
      subst hclose
      have hkept := congrFun (part?_closePart s .connectionClosed before)
      cases actor with
      | closer other =>
          by_cases hplace : place = other
          · subst hplace
            have hnext : before.next? = some part := by
              rw [part?, List.getElem?_set_self', (keeps_closePart s _ before).closers, hcloser] at hpart
              obtain ⟨_, hnext, ⟨⟩⟩ := Option.map_eq_some_iff.mp hpart
              exact hnext
            exact .inr (.inr ⟨before, .connectionClosed, by rw [part?, hcloser]; rfl, hnext,
              rfl, rfl, rfl, rfl, fun _ _ hstage _ => hstage⟩)
          · apply hsame
            rw [← hkept (.closer other), part?, part?, List.getElem?_set_ne hplace]
      | reader => exact hsame (hkept .reader)
      | writer => exact hsame (hkept .writer)
      | call other => exact hsame (hkept (.call other))
  | finishes =>
      cases actor with
      | writer => cases hpart
      | reader | closer | call => exact hsame rfl
  | breakWriter =>
      cases actor with
      | writer => cases hpart; exact .inr (.inl rfl)
      | reader | closer | call => exact hsame rfl
  | close =>
      cases actor with
      | closer place =>
          rw [part?, Session.close, List.getElem?_append] at hpart
          split at hpart
          · exact .inl hpart
          · rw [List.getElem?_singleton] at hpart
            split at hpart <;> cases hpart
            exact .inr (.inl rfl)
      | reader | writer | call => exact hsame rfl
  | pause =>
      apply hsame
      unfold Session.pause
      split <;> rfl
  | _ => exact hsame rfl

/-- What somebody has to do next follows from what there was to do before. -/
theorem Change.arrives {s t : Session} {action : Action} (h : s.Change action t) {actor : Actor}
    {part : Closing} {reason : ClientError} (hpart : t.part? actor = some (part, reason)) :
    Arrives s t actor part reason := by
  rcases h.moves_or_gives_or_works with
    ⟨place, call, u, stage, hcall, hleads, rfl⟩ | ⟨heq, hgiven⟩ | hworks
  · exact hleads.arrives hcall hpart
  · cases actor with
    | reader | writer | closer =>
        rw [heq] at hpart
        exact .inl hpart
    | call place =>
        obtain ⟨stage, hstage, hpart⟩ := Option.bind_eq_some_iff.mp hpart
        rcases hgiven place stage hstage with hold | hnew
        · exact .inl (Option.bind_eq_some_iff.mpr ⟨stage, hold, hpart⟩)
        · obtain ⟨result, rfl⟩ := stage_eq_of_part? hpart
          right
          left
          cases part with
          | latch => rfl
          | _ => cases hnew
  · exact hworks.arrives hpart

/-! ## The order of closing -/

theorem stopped_of_closePart {s : Session} {reason : ClientError} {part : Closing}
    (h : (s.closePart reason part).reader.stopped) : s.reader.stopped ∨ part = .stopWorkers := by
  cases part with
  | latch | dropOutbox => exact .inl h
  | stopWorkers => exact .inr rfl
  | failWaiters =>
      left
      have hsame : (s.closePart reason .failWaiters).reader.stopped = s.reader.stopped :=
        closePart_failWaiters (P := fun u => u.reader.stopped = s.reader.stopped) reason
          (fun _ _ => id) rfl
      rwa [hsame] at h

/-- Only somebody who closes the session stops the reader. -/
theorem Change.stopped {s t : Session} {action : Action} (h : s.Change action t)
    (hstopped : t.reader.stopped) : s.reader.stopped ∨ s.IsClosing .stopWorkers := by
  have hclosePart {reason : ClientError} {part : Closing} (hbefore : s.IsClosing part)
      (h : (s.closePart reason part).reader.stopped) :
      s.reader.stopped ∨ s.IsClosing .stopWorkers := by
    rcases stopped_of_closePart h with hold | rfl
    · exact .inl hold
    · exact .inr hbefore
  cases h with
  | @moves place call u stage hcall hleads =>
      generalize hold : call.stage = old at hleads
      cases hleads with
      | refused stream | lost _ stream =>
          left
          unfold cancel at hstopped
          split at hstopped <;> exact hstopped
      | close part reason result =>
          exact hclosePart (.inr (.inr (.inr ⟨place, reason, result, hold ▸ stage?_of_calls hcall⟩)))
            hstopped
      | _ => exact .inl hstopped
  | waitOver | left | called => exact .inl hstopped
  | works h =>
      cases h with
      | reads =>
          left
          unfold dispatch at hstopped
          split at hstopped
          · exact hstopped
          · split at hstopped <;> exact hstopped
      | readerCloses hduty hclose =>
          subst hclose
          exact hclosePart (.inl ⟨_, _, hduty⟩) hstopped
      | writerCloses hduty hclose =>
          subst hclose
          exact hclosePart (.inr (.inl ⟨_, _, hduty⟩)) hstopped
      | closes hcloser hclose =>
          subst hclose
          exact hclosePart (.inr (.inr (.inl (List.mem_of_getElem? hcloser)))) hstopped
      | pause =>
          left
          unfold Session.pause at hstopped
          split at hstopped <;> exact hstopped
      | _ => exact .inl hstopped

theorem Change.stays_recorded {s t : Session} {action : Action} (h : s.Change action t)
    (hrecorded : s.workersRecorded) : t.workersRecorded := by
  cases h with
  | @moves place call u stage hcall hleads =>
      generalize call.stage = old at hleads
      cases hleads with
      | recordWorkers => rfl
      | refused stream | lost _ stream =>
          exact (keeps_cancel s stream).workersRecorded.trans hrecorded
      | close part reason => exact (keeps_closePart s reason part).workersRecorded.trans hrecorded
      | _ => exact hrecorded
  | waitOver | left | called => exact hrecorded
  | works h =>
      cases h with
      | reads =>
          unfold dispatch
          split
          · exact hrecorded
          · split <;> exact hrecorded
      | readerCloses _ hclose | writerCloses _ hclose | closes _ hclose =>
          subst hclose
          exact (keeps_closePart s _ _).workersRecorded.trans hrecorded
      | pause =>
          unfold Session.pause
          split <;> exact hrecorded
      | _ => exact hrecorded

/-- As long as the workers are not known, a call gets no further than to make them known. -/
theorem Leads.unprepared {s u : Session} {place : Nat} {call : Call} {old stage : Stage}
    (h : Leads s place call old u stage) (hold : ¬ old.isPrepared) (hactive : s.phase ≠ .active)
    (hpaused : s.phase ≠ .paused) :
    u.workersRecorded ∨
      u.phase ≠ .active ∧ u.phase ≠ .paused ∧ u.frames = s.frames ∧ ¬ stage.isPrepared := by
  cases h with
  | begin =>
      rcases firstStage_eq s call.job with heq | ⟨result, heq⟩ <;> rw [heq] <;>
        exact .inr ⟨hactive, hpaused, rfl, by simp [Stage.isPrepared]⟩
  | settle h =>
      rcases settled_eq_some h with rfl | ⟨result, rfl⟩ | ⟨hphase, -⟩
      · exact .inr ⟨hactive, hpaused, rfl, by simp [Stage.isPrepared]⟩
      · exact .inr ⟨hactive, hpaused, rfl, by simp [Stage.isPrepared]⟩
      · exact absurd hphase hactive
  | claim => exact .inr ⟨by simp, by simp, rfl, by simp [Stage.isPrepared]⟩
  | recordWorkers => exact .inl rfl
  | close part reason result =>
      refine .inr ⟨?_, ?_, (keeps_closePart s reason part).frames, ?_⟩
      · rw [phase_closePart]
        split
        · simp
        · exact hactive
      · rw [phase_closePart]
        split
        · simp
        · exact hpaused
      · cases part <;> simp [stageAfter, Closing.next?, Stage.isPrepared]
  | register | exhausted | check | refused | enqueue | lost | await | land | closed =>
      exact absurd rfl hold
  | _ => exact .inr ⟨hactive, hpaused, rfl, by simp [Stage.isPrepared]⟩

theorem Unprepared.change {s t : Session} {action : Action} (h : s.Unprepared)
    (hchange : s.Change action t) : t.workersRecorded ∨ t.Unprepared := by
  obtain ⟨hactive, hpaused, hframes, hstages⟩ := h
  rcases hchange.moves_or_gives_or_works with
    ⟨place, call, u, stage, hcall, hleads, rfl⟩ | ⟨heq, hgiven⟩ | hworks
  · have hold := hstages place call.stage (stage?_of_calls hcall)
    rcases hleads.unprepared hold hactive hpaused with hrecorded | hnext
    · exact .inl hrecorded
    · obtain ⟨hactive', hpaused', hsame, hstage⟩ := hnext
      refine .inr ⟨hactive', hpaused', hsame.trans hframes, ?_⟩
      intro other found hfound
      rcases stage?_moveTo_cases (hleads.stage?_eq hcall) hfound with ⟨-, rfl⟩ | hfound
      · exact hstage
      · exact hstages other found hfound
  · have hphase : t.phase = s.phase := by rw [heq]
    have hsame : t.frames = s.frames := by
      rw [heq]
      rfl
    refine .inr ⟨hphase ▸ hactive, hphase ▸ hpaused, hsame.trans hframes, ?_⟩
    intro other found hfound
    rcases hgiven other found hfound with hold | hnew
    · exact hstages other found hold
    · exact not_isPrepared_of_isGiven hnew
  · have hphase : t.phase = s.phase ∨ t.phase = .closed := by
      rcases hworks.phase with hsame | hclosed | ⟨hsettled, -⟩
      · exact .inl hsame
      · exact .inr hclosed
      · cases hphase : s.phase with
        | active => exact absurd hphase hactive
        | paused => exact absurd hphase hpaused
        | closed => exact .inr (hchange.stays_closed hphase)
        | uninitialized | connecting => rw [hphase] at hsettled; cases hsettled
    refine .inr ⟨?_, ?_, hworks.frames_eq.trans hframes, hworks.stage?_eq ▸ hstages⟩
    · rcases hphase with hsame | hclosed
      · rwa [hsame]
      · rw [hclosed]; simp
    · rcases hphase with hsame | hclosed
      · rwa [hsame]
      · rw [hclosed]; simp

/-- Once the workers have been stopped, or found to be unknown, the session is deaf. -/
theorem Orderly.deaf_closePart {s : Session} (h : s.Orderly) (hclosing : s.IsClosing .stopWorkers)
    (reason : ClientError) : (s.closePart reason .stopWorkers).Deaf := by
  rw [closePart]
  split
  · exact .inl rfl
  · next hunknown =>
    rcases h.prepared with hrecorded | ⟨-, -, hframes, hstages⟩
    · exact absurd hrecorded hunknown
    · refine .inr ⟨h.closed _ hclosing (by simp), hframes, ?_⟩
      intro place stage hstage hask
      exact hstages place stage hstage (isPrepared_of_isAsking hask)

theorem Orderly.change {s t : Session} {action : Action} (h : s.Orderly)
    (hchange : s.Change action t) : t.Orderly where
  prepared := by
    rcases h.prepared with hrecorded | hunprepared
    · exact .inl (hchange.stays_recorded hrecorded)
    · exact hunprepared.change hchange
  closed := by
    intro part hclosing hpart
    obtain ⟨actor, reason, hactor⟩ := isClosing_iff.mp hclosing
    rcases hchange.arrives hactor with hold | hlatch | ⟨before, why, hbefore, -, hdone⟩
    · exact hchange.stays_closed (h.closed part (isClosing_iff.mpr ⟨actor, reason, hold⟩) hpart)
    · exact absurd hlatch hpart
    · rw [hdone.phase, phase_closePart]
      split
      · rfl
      · next hlater => exact h.closed before (isClosing_iff.mpr ⟨actor, why, hbefore⟩) hlater
  stopped := by
    intro hstopped
    rcases hchange.stopped hstopped with hold | hclosing
    · exact hchange.stays_closed (h.stopped hold)
    · exact hchange.stays_closed (h.closed _ hclosing (by simp))
  deaf := by
    intro hclosing
    obtain ⟨actor, reason, hactor⟩ := isClosing_iff.mp hclosing
    rcases hchange.arrives hactor with hold | hlatch | ⟨before, why, hbefore, hnext, hdone⟩
    · exact (h.deaf (isClosing_iff.mpr ⟨actor, reason, hold⟩)).change hchange
    · cases hlatch
    · cases before with
      | stopWorkers =>
          exact hdone.deaf (h.deaf_closePart (isClosing_iff.mpr ⟨actor, why, hbefore⟩) why)
      | latch | dropOutbox | failWaiters => cases hnext

theorem orderly_new (options : SessionOptions) : (Session.new options).Orderly where
  prepared := .inr ⟨by simp [Session.new], by simp [Session.new], rfl, fun _ _ h => by cases h⟩
  closed := by
    rintro part (⟨_, _, h⟩ | ⟨_, _, h⟩ | h | ⟨_, _, _, h⟩) <;> cases h
  stopped := by
    intro h
    cases h
  deaf := by
    rintro (⟨_, _, h⟩ | ⟨_, _, h⟩ | h | ⟨_, _, _, h⟩) <;> cases h

end Session

end CqlClient
