import CqlClient.Proofs.Session.Closing

/-!
What a closed session still holds: a queue of frames, running workers, waiters in the table. As long
as it holds any of it somebody is left who will let go of it: one who closes the session and has not
come to that part yet, or the call that performs the handshake and has not looked yet whether the
session has been closed.
-/

namespace CqlClient

/-- The stages of a call that is still to open the queue of frames and to start the workers. -/
def Stage.isEarly : Stage → Bool
  | .connect _ | .openOutbox | .startWorkers => true
  | _ => false

/-- The stages of a call that has opened the queue of frames, and has not looked since whether the
session has been closed. -/
def Stage.isPreparing : Stage → Bool
  | .startWorkers | .recordWorkers | .register (.startup _) | .check (.startup _) _ => true
  | _ => false

/-- Whether a worker has been started and has neither ended nor been told to. -/
def Worker.Runs (worker : Worker) : Prop :=
  worker.duty ≠ .unstarted ∧ worker.duty ≠ .over ∧ worker.stopped = false

/-- A worker has not been started or stopped less than another one, at an earlier moment. -/
structure Worker.Follows (before after : Worker) : Prop where
  started : after.duty ≠ .unstarted → before.duty ≠ .unstarted
  runs : after.Runs → before.Runs

theorem Worker.Follows.refl (worker : Worker) : worker.Follows worker := ⟨id, id⟩

/-- A worker that is at something goes on to something else, or is stopped. -/
theorem Worker.Follows.of_runs {before after : Worker} (hstarted : before.duty ≠ .unstarted)
    (hover : before.duty ≠ .over) (hstopped : before.stopped → after.stopped) :
    before.Follows after where
  started _ := hstarted
  runs hruns := by
    refine ⟨hstarted, hover, ?_⟩
    by_contra hbefore
    have hafter := hstopped (Bool.not_eq_false _ ▸ hbefore)
    cases hafter.symm.trans hruns.2.2

namespace Session

/-- Some call has opened the queue of frames and has not looked since at the phase. -/
def Preparing (s : Session) : Prop := ∃ place stage, s.stage? place = some stage ∧ stage.isPreparing

/-- The workers are started once, and made known right after. -/
structure Staffed (s : Session) : Prop where
  fresh : (s.phase = .uninitialized ∨ ∃ place stage, s.stage? place = some stage ∧ stage.isEarly) →
    s.reader.duty = .unstarted ∧ s.writer.duty = .unstarted
  known : s.workersRecorded = false → (s.reader.duty ≠ .unstarted ∨ s.writer.duty ≠ .unstarted) →
    ∃ place, s.stage? place = some .recordWorkers

/-- Somebody will let go of whatever the closed session still holds. -/
structure Tended (s : Session) : Prop where
  outbox : s.outboxOpen → s.Due .dropOutbox ∨ s.Preparing
  workers : s.reader.Runs ∨ s.writer.Runs → s.Due .stopWorkers ∨ s.Preparing
  table : ∀ {stream place}, s.inFlight.get? stream = some place →
    s.Due .failWaiters ∨ ∃ exchange, s.stage? place = some (.check exchange stream)

/-! ## The workers -/

/-- A part of closing leaves the workers as they are, or tells both to end. -/
theorem closePart_workers (s : Session) (reason : ClientError) (part : Closing) :
    (s.closePart reason part).reader = s.reader ∧ (s.closePart reason part).writer = s.writer ∨
      (s.closePart reason part).reader = { s.reader with stopped := true } ∧
        (s.closePart reason part).writer = { s.writer with stopped := true } := by
  cases part with
  | latch | dropOutbox => exact .inl ⟨rfl, rfl⟩
  | stopWorkers =>
      rw [closePart]
      split
      · exact .inr ⟨rfl, rfl⟩
      · exact .inl ⟨rfl, rfl⟩
  | failWaiters =>
      left
      exact closePart_failWaiters (P := fun u => u.reader = s.reader ∧ u.writer = s.writer) reason
        (fun _ _ => id) ⟨rfl, rfl⟩

theorem follows_closePart (s : Session) (reason : ClientError) (part : Closing) :
    s.reader.Follows (s.closePart reason part).reader ∧
      s.writer.Follows (s.closePart reason part).writer := by
  rcases closePart_workers s reason part with ⟨hreader, hwriter⟩ | ⟨hreader, hwriter⟩ <;>
    rw [hreader, hwriter]
  · exact ⟨.refl _, .refl _⟩
  · exact ⟨⟨id, fun h => nomatch h.2.2⟩, id, fun h => nomatch h.2.2⟩

theorem stopped_closePart (s : Session) (reason : ClientError) (part : Closing) :
    (s.reader.stopped → (s.closePart reason part).reader.stopped) ∧
      (s.writer.stopped → (s.closePart reason part).writer.stopped) := by
  rcases closePart_workers s reason part with ⟨hreader, hwriter⟩ | ⟨hreader, hwriter⟩ <;>
    rw [hreader, hwriter]
  · exact ⟨id, id⟩
  · exact ⟨fun _ => rfl, fun _ => rfl⟩

theorem workers_dispatch (s : Session) (frame : Frame) :
    (s.dispatch frame).reader.stopped = s.reader.stopped ∧ (s.dispatch frame).writer = s.writer := by
  unfold dispatch
  split
  · exact ⟨rfl, rfl⟩
  · split <;> exact ⟨rfl, rfl⟩

theorem duty_of_isServing {worker : Worker} (h : worker.isServing) : worker.duty = .serving := by
  simp only [Worker.isServing, Bool.and_eq_true, beq_iff_eq] at h
  exact h.1

/-- The writer makes a step only if it is at something. -/
theorem duty_of_moveWriter {s t : Session} (h : s.moveWriter = some t) :
    s.writer.duty ≠ .unstarted ∧ s.writer.duty ≠ .over := by
  unfold moveWriter at h
  split at h
  · next hduty => rw [hduty]; exact ⟨nofun, nofun⟩
  · next hduty => rw [hduty]; exact ⟨nofun, nofun⟩
  all_goals cases h

/-- Nobody but the handshake starts a worker, and nobody brings one back. -/
theorem workers_follow {s t : Session} {action : Action} (hact : s.act action = some t)
    (hstart : ¬ s.StartsWorkers action) :
    s.reader.Follows t.reader ∧ s.writer.Follows t.writer := by
  cases change_of_act hact with
  | @moves place call u stage hcall hleads =>
      show s.reader.Follows u.reader ∧ s.writer.Follows u.writer
      generalize hold : call.stage = old at hleads
      cases hleads with
      | startWorkers => exact absurd ⟨place, rfl, hold ▸ stage?_of_calls hcall⟩ hstart
      | refused stream | lost _ stream =>
          obtain ⟨_, _, heq⟩ := cancel_eq s stream
          rw [heq]
          exact ⟨.refl _, .refl _⟩
      | close part reason => exact follows_closePart s reason part
      | _ => exact ⟨.refl _, .refl _⟩
  | waitOver | left | called => exact ⟨.refl _, .refl _⟩
  | works h =>
      cases h with
      | @reads frame rest hserving =>
          have hduty := duty_of_isServing hserving
          obtain ⟨hreader, hwriter⟩ := workers_dispatch { s with arrivals := rest } frame
          rw [hwriter]
          exact ⟨.of_runs (hduty ▸ nofun) (hduty ▸ nofun) hreader.trans, .refl _⟩
      | ends hserving =>
          have hduty := duty_of_isServing hserving
          exact ⟨.of_runs (hduty ▸ nofun) (hduty ▸ nofun) id, .refl _⟩
      | strikes hduty => exact ⟨.of_runs (hduty ▸ nofun) (hduty ▸ nofun) id, .refl _⟩
      | @readerCloses part reason _ _ hduty hclose =>
          subst hclose
          exact ⟨.of_runs (hduty ▸ nofun) (hduty ▸ nofun) (stopped_closePart s reason part).1,
            (follows_closePart s reason part).2⟩
      | @writerCloses part reason _ _ hduty hclose =>
          subst hclose
          exact ⟨(follows_closePart s reason part).1,
            .of_runs (hduty ▸ nofun) (hduty ▸ nofun) (stopped_closePart s reason part).2⟩
      | closes _ hclose =>
          subst hclose
          exact follows_closePart s _ _
      | finishes =>
          obtain ⟨hstarted, hover⟩ := duty_of_moveWriter hact
          exact ⟨.refl _, .of_runs hstarted hover id⟩
      | breakWriter =>
          simp only [act, Session.breakWriter] at hact
          split at hact
          · next hserving =>
            have hduty := duty_of_isServing hserving
            exact ⟨.refl _, .of_runs (hduty ▸ nofun) (hduty ▸ nofun) id⟩
          · cases hact
      | pause =>
          unfold Session.pause
          split <;> exact ⟨.refl _, .refl _⟩
      | _ => exact ⟨.refl _, .refl _⟩

/-! ## The call that prepares the handshake -/

theorem isOpening_of_isPreparing {stage : Stage} (h : stage.isPreparing) : stage.isOpening := by
  cases stage with
  | startWorkers | recordWorkers => rfl
  | register exchange | check exchange => cases exchange <;> first | rfl | cases h
  | _ => cases h

theorem not_isYielding_of_isPreparing {stage : Stage} (h : stage.isPreparing) :
    ¬ stage.isYielding := by
  cases stage with
  | begin | settle | connect | await => cases h
  | _ => exact Bool.false_ne_true

/-- A call comes to the beginning of the handshake from there, or by claiming it. -/
theorem Leads.isEarly {s u : Session} {place : Nat} {call : Call} {old stage : Stage}
    (h : Leads s place call old u stage) (hstage : stage.isEarly) :
    old.isEarly ∨ s.phase = .uninitialized := by
  have hto {exchange : Exchange} (hto : exchange.LeadsTo stage) : False := by
    cases hto <;> cases hstage
  cases h with
  | begin =>
      rcases firstStage_eq s call.job with heq | ⟨_, heq⟩ <;> rw [heq] at hstage <;> cases hstage
  | settle h =>
      rcases settled_eq_some h with rfl | ⟨_, rfl⟩ | ⟨-, _, rfl⟩ <;> cases hstage
  | claim hfirst => exact .inr hfirst
  | connect | openOutbox => exact .inl rfl
  | exhausted h | refused _ h | lost _ _ h | await _ _ _ h => exact (hto h).elim
  | close part => cases part <;> cases hstage
  | _ => cases hstage

/-- Nothing becomes uninitialized. -/
theorem Turns.uninitialized {s t : Session} {action : Action} (h : s.Turns t action)
    (hphase : t.phase = .uninitialized) : s.phase = .uninitialized := by
  rcases h.next with hsame | hnext
  · rw [← hsame, hphase]
  · rw [hphase] at hnext
    generalize s.phase = phase at hnext
    cases hnext

/-- The call that has started the workers makes them known by its next step, and no other call
prepares the handshake. -/
theorem staffed_of_start {s t : Session} {marks : List Mark} {action : Action}
    (hstart : s.StartsWorkers action) (hscene : Scene s marks) (hact : s.act action = some t) :
    t.Staffed := by
  obtain ⟨place, rfl, hstage⟩ := hstart
  obtain ⟨haside, hphase⟩ := hscene.alone hstage rfl
  obtain ⟨call, u, stage, hcall, hleads, rfl, hrecord⟩ := leads_of_act hact hstage
  cases hleads
  refine ⟨?_, fun _ _ => ⟨place, hrecord⟩⟩
  rintro (hfirst | ⟨other, stage, hother, hearly⟩)
  · exact absurd hfirst hphase
  · by_cases hplace : other = place
    · subst hplace
      cases hrecord.symm.trans hother
      cases hearly
    · rw [stage?_moveTo_ne _ (Ne.symm hplace)] at hother
      have hidle := haside other stage (by simpa using hplace) hother
      cases stage with
      | connect | openOutbox | startWorkers => cases hidle
      | _ => cases hearly

theorem Staffed.act {s t : Session} {marks : List Mark} {action : Action} (h : s.Staffed)
    (hscene : Scene s marks) (hact : s.act action = some t) : t.Staffed := by
  have hchange := change_of_act hact
  by_cases hstart : s.StartsWorkers action
  · exact staffed_of_start hstart hscene hact
  · obtain ⟨hreader, hwriter⟩ := workers_follow hact hstart
    constructor
    · intro hearly
      have hbefore : s.phase = .uninitialized ∨
          ∃ place stage, s.stage? place = some stage ∧ stage.isEarly := by
        rcases hearly with hfirst | ⟨place, stage, hstage, hearly⟩
        · exact .inl ((turns_of_act hact).uninitialized hfirst)
        rcases hchange.stage?_cases hstage with hold | hgiven | ⟨-, call, u, hcall, hleads⟩
        · exact .inr ⟨place, stage, hold, hearly⟩
        · cases stage with
          | connect | openOutbox | startWorkers => cases hgiven
          | _ => cases hearly
        · rcases hleads.isEarly hearly with hold | hfirst
          · exact .inr ⟨place, _, stage?_of_calls hcall, hold⟩
          · exact .inl hfirst
      obtain ⟨hnoReader, hnoWriter⟩ := h.fresh hbefore
      exact ⟨by_contra fun hne => hreader.started hne hnoReader,
        by_contra fun hne => hwriter.started hne hnoWriter⟩
    · intro hunknown hstarted
      have hbefore : s.workersRecorded = false := by
        by_contra hrecorded
        rw [Bool.not_eq_false] at hrecorded
        cases hunknown.symm.trans (hchange.stays_recorded hrecorded)
      obtain ⟨place, hplace⟩ := h.known hbefore (hstarted.imp hreader.started hwriter.started)
      refine ⟨place, stage?_stays hact hplace Bool.false_ne_true ?_⟩
      rintro rfl
      obtain ⟨call, u, stage, hcall, hleads, rfl, -⟩ := leads_of_act hact hplace
      cases hleads
      cases hunknown

theorem Run.staffed {options : SessionOptions} {steps : List (Session × Action)} {s : Session}
    (h : Run (.new options) steps s) : s.Staffed := by
  induction h with
  | start =>
      refine ⟨fun _ => ⟨rfl, rfl⟩, ?_⟩
      rintro - (hstarted | hstarted) <;> exact absurd rfl hstarted
  | act _ hrun hact ih => exact ih.act hrun.scene hact

theorem close_of_leadsTo {deadline : Nat} {stage : Stage}
    (hto : (Exchange.startup deadline).LeadsTo stage) (hover : stage.isOver) :
    ∃ reason result, stage = .close .latch reason result := by
  cases hto with
  | broken _ reason result => exact ⟨reason, result, rfl⟩
  | keyspace | ready => cases hover

/-- In a closed session the call that prepares the handshake goes on until it finds this out, and
closes the session itself then. -/
theorem Leads.preparing {s u : Session} {place : Nat} {call : Call} {old stage : Stage}
    (h : Leads s place call old u stage) (hold : old.isPreparing) (hclosed : s.phase = .closed) :
    stage.isPreparing ∨ ∃ reason result, stage = .close .latch reason result := by
  cases h with
  | startWorkers | recordWorkers => exact .inl rfl
  | @register exchange =>
      cases exchange with
      | startup => exact .inl rfl
      | use | query => cases hold
  | @exhausted exchange _ hto hover | @refused exchange _ _ hto hover =>
      cases exchange with
      | startup => exact .inr (close_of_leadsTo hto hover)
      | use | query => cases hold
  | check hopen => exact absurd hclosed hopen
  | _ => cases hold

theorem Preparing.act {s t : Session} {action : Action} (h : s.Preparing)
    (hclosed : s.phase = .closed) (hact : s.act action = some t) : t.Due .latch ∨ t.Preparing := by
  obtain ⟨place, stage, hstage, hpreparing⟩ := h
  by_cases haction : action = .move (.call place)
  · subst haction
    obtain ⟨call, u, next, hcall, hleads, rfl, hnext⟩ := leads_of_act hact hstage
    rcases hleads.preparing hpreparing hclosed with hstill | ⟨reason, result, rfl⟩
    · exact .inr ⟨place, next, hnext, hstill⟩
    · exact .inl ⟨.call place, .latch, reason, by rw [part?, hnext]; rfl, Nat.le_refl _⟩
  · have hkept := stage?_stays hact hstage (not_isYielding_of_isPreparing hpreparing) haction
    exact .inr ⟨place, stage, hkept, hpreparing⟩

/-! ## What is left to whom -/

theorem get?_cancel_self (s : Session) (stream : Int16) :
    (s.cancel stream).inFlight.get? stream = none := by
  obtain ⟨table, heq, htable⟩ := cancel_eq_handAll s stream
  obtain ⟨calls, hcalls⟩ := handAll_eq { s with inFlight := table }
    (s.handsOn stream (.error .connectionClosed))
  rw [heq, hcalls]
  exact (htable stream).trans (if_pos rfl)

theorem Staffed.unstarted {s : Session} {action : Action} (h : s.Staffed)
    (hstart : s.StartsWorkers action) : s.reader.duty = .unstarted ∧ s.writer.duty = .unstarted := by
  obtain ⟨place, -, hstage⟩ := hstart
  exact h.fresh (.inr ⟨place, _, hstage, rfl⟩)

/-- Whoever has just closed the session will let go of everything. -/
theorem Tended.of_latched {s : Session} (h : s.Due .dropOutbox) : s.Tended where
  outbox _ := .inl h
  workers _ := .inl (h.mono (by decide))
  table _ := .inl (h.mono (by decide))

section Tended

variable {s t : Session} {action : Action}

/-- An open queue of frames is somebody's to drop, or the handshake has only just opened it. -/
theorem Tended.outbox_act (h : s.Tended) (hstaffed : s.Staffed) (hclosed : s.phase = .closed)
    (hact : s.act action = some t) (hopen : t.outboxOpen) : t.Due .dropOutbox ∨ t.Preparing := by
  rcases (change_of_act hact).outboxOpen hopen with hold | ⟨place, rfl, hstage⟩
  · rcases h.outbox hold with hdue | hpreparing
    · rcases hdue.act hact hstaffed.unstarted with hlater | ⟨actor, reason, -, hdid, -⟩
      · exact .inl hlater
      · cases hdid.outboxOpen.symm.trans hopen
    · exact (hpreparing.act hclosed hact).imp_left (·.mono (Nat.zero_le _))
  · obtain ⟨call, u, stage, hcall, hleads, rfl, hnext⟩ := leads_of_act hact hstage
    cases hleads
    exact .inr ⟨place, _, hnext, rfl⟩

/-- Workers that run are somebody's to stop, or the handshake has only just started them. -/
theorem Tended.workers_act (h : s.Tended) (hstaffed : s.Staffed) (hclosed : s.phase = .closed)
    (hact : s.act action = some t) (hruns : t.reader.Runs ∨ t.writer.Runs) :
    t.Due .stopWorkers ∨ t.Preparing := by
  by_cases hstarts : s.StartsWorkers action
  · obtain ⟨place, rfl, hstage⟩ := hstarts
    obtain ⟨call, u, stage, hcall, hleads, rfl, hnext⟩ := leads_of_act hact hstage
    cases hleads
    exact .inr ⟨place, _, hnext, rfl⟩
  obtain ⟨hreader, hwriter⟩ := workers_follow hact hstarts
  have hbefore := hruns.imp hreader.runs hwriter.runs
  rcases h.workers hbefore with hdue | hpreparing
  · rcases hdue.act hact hstaffed.unstarted with hlater | ⟨actor, reason, rfl, hdid, hpart⟩
    · exact .inl hlater
    · -- Workers that are not known cannot be told, but then they are about to be made known.
      cases hrecorded : s.workersRecorded with
      | true =>
          simp only [hdid.readerStopped, hdid.writerStopped, Worker.Runs, closePart, hrecorded,
            if_true, Bool.true_eq_false, and_false, or_self] at hruns
      | false =>
          obtain ⟨place, hplace⟩ := hstaffed.known hrecorded (hbefore.imp (·.1) (·.1))
          have hother : Action.move actor ≠ .move (.call place) := by
            rintro ⟨⟩
            rw [part?, hplace] at hpart
            cases hpart
          exact .inr ⟨place, _, stage?_stays hact hplace Bool.false_ne_true hother, rfl⟩
  · exact (hpreparing.act hclosed hact).imp_left (·.mono (Nat.zero_le _))

/-- A waiter is somebody's to fail, or it has not looked yet whether the session has been closed. -/
theorem Tended.table_act (h : s.Tended) (hstaffed : s.Staffed) (hclosed : s.phase = .closed)
    (hact : s.act action = some t) {stream : Int16} {place : Nat}
    (hplace : t.inFlight.get? stream = some place) :
    t.Due .failWaiters ∨ ∃ exchange, t.stage? place = some (.check exchange stream) := by
  rcases (change_of_act hact).get? hplace with hold | ⟨hcheck, -⟩
  · rcases h.table hold with hdue | ⟨exchange, hstage⟩
    · rcases hdue.act hact hstaffed.unstarted with hlater | ⟨actor, reason, rfl, -, hpart⟩
      · exact .inl hlater
      · cases (get?_of_fails hpart hact stream).symm.trans hplace
    · by_cases haction : action = .move (.call place)
      · subst haction
        obtain ⟨call, u, next, hcall, hleads, rfl, -⟩ := leads_of_act hact hstage
        cases hleads with
        | check hopen => exact absurd hclosed hopen
        | refused => cases (get?_cancel_self s stream).symm.trans hplace
      · exact .inr ⟨exchange, stage?_stays hact hstage Bool.false_ne_true haction⟩
  · exact .inr hcheck

theorem Tended.act (h : s.Tended) (hstaffed : s.Staffed) (hclosed : s.phase = .closed)
    (hact : s.act action = some t) : t.Tended where
  outbox := h.outbox_act hstaffed hclosed hact
  workers := h.workers_act hstaffed hclosed hact
  table := h.table_act hstaffed hclosed hact

end Tended

theorem Run.tended {options : SessionOptions} {steps : List (Session × Action)} {s : Session}
    (h : Run (.new options) steps s) (hclosed : s.phase = .closed) : s.Tended := by
  induction h with
  | start => cases hclosed
  | @act steps s t action hrun hact ih =>
      by_cases hbefore : s.phase = .closed
      · exact (ih hbefore).act hrun.staffed hbefore hact
      · obtain ⟨actor, reason, rfl, hpart⟩ := latched_of_act hact hbefore hclosed
        have hdid := did_of_act hpart hact
        exact .of_latched ⟨actor, .dropOutbox, reason, hdid.next, Nat.le_refl _⟩

theorem performs_of_isOpening {s : Session} {place : Nat} {stage : Stage}
    (hstage : s.stage? place = some stage) (hopening : stage.isOpening) : s.Performs place := by
  refine ⟨stage, hstage, ?_⟩
  cases stage with
  | connect | openOutbox | startWorkers | recordWorkers | land => simp [Stage.stepsLeft]
  | register exchange | check exchange | enqueue exchange | await exchange =>
      cases exchange with
      | startup | use => simp [Stage.stepsLeft, Exchange.stepsLeft]
      | query => cases hopening
  | _ => cases hopening

/-- Once nobody closes the session any more and no call performs the handshake, a session that is
closed holds nothing: the queue of frames is gone, a worker that was started has ended or has been
told to, and nobody is in the table but a query that has just taken its stream and will find, by its
next step, that the session is closed. -/
theorem Run.leaves_nothing {options : SessionOptions} {steps : List (Session × Action)} {s : Session}
    (h : Run (.new options) steps s) (hclosed : s.phase = .closed)
    (hclosing : ∀ actor, s.part? actor = none) (hhandshake : ∀ place, ¬ s.Performs place) :
    s.outboxOpen = false ∧
      (∀ worker ∈ [s.reader, s.writer],
        worker.duty = .unstarted ∨ worker.duty = .over ∨ worker.stopped) ∧
      (∀ stream place, s.inFlight.get? stream = some place →
        ∃ request, s.stage? place = some (.check (.query request) stream)) ∧
      ((∀ place request stream, s.stage? place ≠ some (.check (.query request) stream)) →
        s.inFlight.entries = []) := by
  have hdue (part : Closing) : ¬ s.Due part := by
    rintro ⟨actor, before, reason, hpart, -⟩
    cases (hclosing actor).symm.trans hpart
  have hpreparing : ¬ s.Preparing := by
    rintro ⟨place, stage, hstage, hpreparing⟩
    exact hhandshake place (performs_of_isOpening hstage (isOpening_of_isPreparing hpreparing))
  obtain ⟨houtbox, hworkers, htable⟩ := h.tended hclosed
  have hruns : ¬ (s.reader.Runs ∨ s.writer.Runs) := fun hruns =>
    (hworkers hruns).elim (hdue _) hpreparing
  have hquery : ∀ stream place, s.inFlight.get? stream = some place →
      ∃ request, s.stage? place = some (.check (.query request) stream) := by
    intro stream place hplace
    rcases htable hplace with hlater | ⟨exchange, hstage⟩
    · exact absurd hlater (hdue _)
    · cases exchange with
      | query request => exact ⟨request, hstage⟩
      | startup | use => exact absurd (performs_of_isOpening hstage rfl) (hhandshake place)
  refine ⟨?_, ?_, hquery, ?_⟩
  · by_contra hopen
    rw [Bool.not_eq_false] at hopen
    exact (houtbox hopen).elim (hdue _) hpreparing
  · intro worker hworker
    have hidle : ¬ worker.Runs := by
      rw [List.mem_pair] at hworker
      rcases hworker with rfl | rfl
      · exact fun h => hruns (.inl h)
      · exact fun h => hruns (.inr h)
    by_contra hheld
    simp only [not_or, Bool.not_eq_true] at hheld
    exact hidle ⟨hheld.1, hheld.2.1, hheld.2.2⟩
  · intro hnone
    refine InFlight.entries_eq_nil fun stream => ?_
    by_contra hsome
    obtain ⟨place, hplace⟩ := Option.ne_none_iff_exists'.mp hsome
    obtain ⟨request, hstage⟩ := hquery stream place hplace
    exact hnone place request stream hstage

/-- The session is closed, from start to end, while the handshake waits for the transport. What the
handshake opens and starts after that it lets go of itself. -/
theorem leaves_nothing_of_close_during_connect :
    ∃ steps s, Run (.new (.standard ⟨"node", 9042⟩ "")) steps s ∧ s.phase = .closed ∧
      s.outboxOpen = false ∧ s.reader.duty = .serving ∧ s.reader.stopped ∧
        s.inFlight.entries = [] := by
  have hnew : Run (.new (.standard ⟨"node", 9042⟩ "")) _ _ := .start
  have hcalled := hnew.act (.call .opening none) rfl
  have hsettles := hcalled.act (.move (.call 0)) rfl
  have hclaims := hsettles.act (.move (.call 0)) rfl
  have hconnects := hclaims.act (.move (.call 0)) rfl
  have hcloses := hconnects.act .close rfl
  have hlatches := hcloses.act (.move (.closer 0)) rfl
  have hdrops := hlatches.act (.move (.closer 0)) rfl
  have hstops := hdrops.act (.move (.closer 0)) rfl
  have hfails := hstops.act (.move (.closer 0)) rfl
  have hready := hfails.act (.transport .ready) rfl
  have hopens := hready.act (.move (.call 0)) rfl
  have hstarts := hopens.act (.move (.call 0)) rfl
  have hrecords := hstarts.act (.move (.call 0)) rfl
  have hregisters := hrecords.act (.move (.call 0)) rfl
  have hchecks := hregisters.act (.move (.call 0)) rfl
  have hrefused := hchecks.act (.move (.call 0)) rfl
  have hlatchesToo := hrefused.act (.move (.call 0)) rfl
  have hdropsToo := hlatchesToo.act (.move (.call 0)) rfl
  have hstopsToo := hdropsToo.act (.move (.call 0)) rfl
  have hends := hstopsToo.act (.move (.call 0)) rfl
  obtain ⟨houtbox, -, -, htable⟩ := hends.leaves_nothing rfl
    (by
      intro actor
      cases actor with
      | reader | writer => rfl
      | call place | closer place => cases place <;> rfl)
    (by
      rintro (_ | place) ⟨stage, hstage, hleft⟩ <;> cases hstage
      exact absurd hleft (Nat.lt_irrefl 0))
  refine ⟨_, _, hends, rfl, houtbox, rfl, rfl, htable ?_⟩
  rintro (_ | place) request stream hstage <;> cases hstage

end Session

end CqlClient
