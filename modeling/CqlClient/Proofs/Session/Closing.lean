import CqlClient.Proofs.Session.Drained

/-!
What becomes of the parts of closing. Whoever has a part to do keeps it until doing it, whatever the
others do, and has the next part then. So as long as somebody has an early part to do, the later
ones will be done.
-/

namespace CqlClient

/-- The place of a part of closing in their order. -/
def Closing.order : Closing → Nat
  | latch => 0
  | dropOutbox => 1
  | stopWorkers => 2
  | failWaiters => 3

theorem Closing.order_injective {part other : Closing} (h : part.order = other.order) :
    part = other := by
  cases part <;> cases other <;> first | rfl | cases h

theorem Closing.exists_next {before part : Closing} (h : before.order < part.order) :
    ∃ next, before.next? = some next ∧ next.order ≤ part.order := by
  cases before with
  | latch => exact ⟨.dropOutbox, rfl, h⟩
  | dropOutbox => exact ⟨.stopWorkers, rfl, h⟩
  | stopWorkers => exact ⟨.failWaiters, rfl, h⟩
  | failWaiters => cases part <;> simp [order] at h

/-- Whether a call can be taken from this stage other than by a step of its own. -/
def Stage.isYielding : Stage → Bool
  | .begin | .settle | .connect _ | .await .. => true
  | _ => false

theorem isYielding_of_isWaiting {call : Call} (h : call.isWaiting) : call.stage.isYielding := by
  unfold Call.isWaiting at h
  split at h
  · next hstage => rw [hstage]; rfl
  · next hstage => rw [hstage]; rfl
  · next hstage => rw [hstage]; rfl
  · cases h

namespace Session

/-- Somebody has this part of closing to do, or an earlier one, and will come to it. -/
def Due (s : Session) (part : Closing) : Prop :=
  ∃ actor before reason, s.part? actor = some (before, reason) ∧ before.order ≤ part.order

/-- An actor has done a part of closing and has the next one to do. -/
structure Did (s t : Session) (actor : Actor) (part : Closing) (reason : ClientError) : Prop where
  next : t.part? actor = part.next?.map (·, reason)
  phase : t.phase = (s.closePart reason part).phase
  outboxOpen : t.outboxOpen = (s.closePart reason part).outboxOpen
  inFlight : t.inFlight = (s.closePart reason part).inFlight
  readerStopped : t.reader.stopped = (s.closePart reason part).reader.stopped
  writerStopped : t.writer.stopped = (s.closePart reason part).writer.stopped

/-! ## Who keeps what -/

theorem isYielding_of_waitOver {s : Session} {stage : Stage} {wait : HandshakeError}
    (h : s.waitOver stage = some wait) : stage.isYielding := by
  unfold waitOver at h
  split at h
  · rfl
  · rfl
  · rfl
  · cases h

/-- The step of a call of which the stage is known. -/
theorem leads_of_act {s t : Session} {place : Nat} {old : Stage}
    (hact : s.act (.move (.call place)) = some t) (hstage : s.stage? place = some old) :
    ∃ call u stage, s.calls[place]? = some call ∧ Leads s place call old u stage ∧
      t = u.moveTo place stage ∧ t.stage? place = some stage := by
  obtain ⟨call, u, stage, hcall, hleads, rfl⟩ := leads_of_moveCall hact
  have hfound := (congrFun (hleads.stage?_eq hcall) place).trans (stage?_of_calls hcall)
  cases (stage?_of_calls hcall).symm.trans hstage
  exact ⟨call, u, stage, hcall, hleads, rfl, stage?_moveTo_self hfound stage⟩

/-- A call that does not yield is where it was until it makes a step itself. -/
theorem stage?_stays {s t : Session} {action : Action} (hact : s.act action = some t) {place : Nat}
    {stage : Stage} (hstage : s.stage? place = some stage) (hkept : ¬ stage.isYielding)
    (haction : action ≠ .move (.call place)) : t.stage? place = some stage := by
  cases change_of_act hact with
  | @moves mover call u next hcall hleads =>
      have hplace : mover ≠ place := fun heq => haction (heq ▸ rfl)
      rw [stage?_moveTo_ne u hplace, hleads.stage?_eq hcall, hstage]
  | @waitOver other _ hother _ hwait =>
      by_cases hplace : other = place
      · subst hplace
        rw [hstage] at hother
        cases hother
        exact absurd (isYielding_of_waitOver hwait) hkept
      · rw [Session.fail, stage?_moveTo_ne s hplace, hstage]
  | @left other _ hleft =>
      by_cases hplace : other = place
      · subst hplace
        obtain ⟨call, hcall, rfl⟩ := Option.map_eq_some_iff.mp hstage
        rcases hleft with rfl | rfl
        · rcases (abandon_eq_some hcall hact).2 with hbegin | hwaiting
          · rw [hbegin] at hkept
            exact absurd rfl hkept
          · exact absurd (isYielding_of_isWaiting hwaiting) hkept
        · exact absurd (isYielding_of_isWaiting (isWaiting_of_giveUpCall hcall hact)) hkept
      · rw [stage?_moveTo_ne s hplace, hstage]
  | called job limit =>
      obtain ⟨call, hcall, -⟩ := Option.map_eq_some_iff.mp hstage
      have hlt := (List.getElem?_eq_some_iff.mp hcall).1
      rw [stage?_call, if_neg (Nat.ne_of_lt hlt), hstage]
  | works hworks => rw [hworks.stage?_eq, hstage]

/-- A step of a call leaves the duties of the workers alone, unless it starts them. -/
theorem Leads.duties_stay {s u : Session} {place : Nat} {call : Call} {old stage : Stage}
    (h : Leads s place call old u stage) (hold : old ≠ .startWorkers) :
    u.reader.duty = s.reader.duty ∧ u.writer.duty = s.writer.duty := by
  cases h with
  | startWorkers => exact absurd rfl hold
  | refused stream | lost _ stream =>
      have hkept := keeps_cancel s stream
      exact ⟨hkept.readerDuty, hkept.writerDuty⟩
  | close part reason =>
      have hkept := keeps_closePart s reason part
      exact ⟨hkept.readerDuty, hkept.writerDuty⟩
  | _ => exact ⟨rfl, rfl⟩

/-- The action starts the workers. -/
def StartsWorkers (s : Session) (action : Action) : Prop :=
  ∃ place, action = .move (.call place) ∧ s.stage? place = some .startWorkers

theorem Change.readerDuty {s t : Session} {action : Action} (h : s.Change action t)
    (haction : action ≠ .move .reader) (hstart : ¬ s.StartsWorkers action) :
    t.reader.duty = s.reader.duty := by
  cases h with
  | moves hcall hleads =>
      exact (hleads.duties_stay fun heq => hstart ⟨_, rfl, heq ▸ stage?_of_calls hcall⟩).1
  | waitOver | left | called => rfl
  | works h =>
      cases h with
      | reads | ends | strikes | readerCloses => exact absurd rfl haction
      | writerCloses _ hclose | closes _ hclose =>
          subst hclose
          exact (keeps_closePart s _ _).readerDuty
      | pause =>
          unfold Session.pause
          split <;> rfl
      | _ => rfl

theorem writerDuty_of_act {s t : Session} {action : Action} (hact : s.act action = some t)
    (haction : action ≠ .move .writer) (hstart : ¬ s.StartsWorkers action) :
    t.writer.duty = s.writer.duty ∨ s.writer.isServing := by
  cases change_of_act hact with
  | moves hcall hleads =>
      exact .inl (hleads.duties_stay fun heq => hstart ⟨_, rfl, heq ▸ stage?_of_calls hcall⟩).2
  | waitOver | left | called => exact .inl rfl
  | works h =>
      cases h with
      | writes | finishes | writerCloses => exact absurd rfl haction
      | reads =>
          obtain ⟨_, _, _, heq⟩ := dispatch_eq _ _
          exact .inl (by rw [heq])
      | readerCloses _ hclose | closes _ hclose =>
          subst hclose
          exact .inl (keeps_closePart s _ _).writerDuty
      | pause =>
          unfold Session.pause
          split <;> exact .inl rfl
      | breakWriter =>
          simp only [act, Session.breakWriter] at hact
          split at hact
          · next hserving => exact .inr hserving
          · cases hact
      | _ => exact .inl rfl

theorem Change.closer? {s t : Session} {action : Action} (h : s.Change action t) {place : Nat}
    {next : Option Closing} (hcloser : s.closers[place]? = some next)
    (haction : action ≠ .move (.closer place)) : t.closers[place]? = some next := by
  cases h with
  | moves _ hleads =>
      exact (congrArg (·[place]?) hleads.duties.1).trans hcloser
  | waitOver | left | called => exact hcloser
  | works h =>
      cases h with
      | reads =>
          obtain ⟨_, _, _, heq⟩ := dispatch_eq _ _
          rw [heq]
          exact hcloser
      | readerCloses _ hclose | writerCloses _ hclose =>
          subst hclose
          rw [← hcloser, ← (keeps_closePart s _ _).closers]
      | @closes other _ _ _ hclose =>
          subst hclose
          have hother : other ≠ place := fun heq => haction (heq ▸ rfl)
          rw [List.getElem?_set_ne hother, (keeps_closePart s _ _).closers, hcloser]
      | close =>
          have hlt := (List.getElem?_eq_some_iff.mp hcloser).1
          rw [Session.close, List.getElem?_append_left hlt, hcloser]
      | pause =>
          unfold Session.pause
          split <;> exact hcloser
      | _ => exact hcloser

theorem calls_closePart {s : Session} {reason : ClientError} {part : Closing}
    (hpart : part ≠ .failWaiters) :
    (s.closePart reason part).calls = s.calls ∧ (s.closePart reason part).inFlight = s.inFlight := by
  cases part with
  | latch | dropOutbox => exact ⟨rfl, rfl⟩
  | stopWorkers =>
      rw [closePart]
      split <;> exact ⟨rfl, rfl⟩
  | failWaiters => exact absurd rfl hpart

/-- Whoever has a part of closing to do still has it after what others do. -/
theorem part?_stays {s t : Session} {action : Action} (hact : s.act action = some t) {actor : Actor}
    {part : Closing} {reason : ClientError} (hpart : s.part? actor = some (part, reason))
    (haction : action ≠ .move actor)
    (hstart : s.StartsWorkers action → s.reader.duty = .unstarted ∧ s.writer.duty = .unstarted) :
    t.part? actor = some (part, reason) := by
  have hchange := change_of_act hact
  cases actor with
  | reader =>
      have hquiet : ¬ s.StartsWorkers action := by
        intro hstarts
        rw [part?, (hstart hstarts).1] at hpart
        cases hpart
      rw [part?, hchange.readerDuty haction hquiet]
      exact hpart
  | writer =>
      have hquiet : ¬ s.StartsWorkers action := by
        intro hstarts
        rw [part?, (hstart hstarts).2] at hpart
        cases hpart
      rcases writerDuty_of_act hact haction hquiet with hsame | hserving
      · rw [part?, hsame]
        exact hpart
      · obtain ⟨last, hduty⟩ := duty_eq_of_part? hpart
        simp [Worker.isServing, hduty] at hserving
  | closer place =>
      obtain ⟨next, hcloser, hnext⟩ := Option.bind_eq_some_iff.mp hpart
      rw [part?, hchange.closer? hcloser haction]
      exact hnext
  | call place =>
      obtain ⟨stage, hstage, hnext⟩ := Option.bind_eq_some_iff.mp hpart
      obtain ⟨result, rfl⟩ := stage_eq_of_part? hnext
      rw [part?, stage?_stays hact hstage Bool.false_ne_true haction]
      rfl

theorem part?_dutyAfter_eq (part : Closing) (reason : ClientError) (last : Bool) :
    (dutyAfter part reason last).part? = part.next?.map (·, reason) := by
  cases part with
  | failWaiters => cases last <;> rfl
  | _ => rfl

theorem part?_stageAfter_eq (part : Closing) (reason : ClientError) (result : CallResult) :
    (stageAfter part reason result).part? = part.next?.map (·, reason) := by
  cases part <;> rfl

/-- The step of a call that closes the session. -/
theorem act_of_close {s : Session} {place : Nat} {part : Closing} {reason : ClientError}
    {result : CallResult} (hstage : s.stage? place = some (.close part reason result)) :
    s.act (.move (.call place)) =
      some ((s.closePart reason part).moveTo place (stageAfter part reason result)) := by
  obtain ⟨call, hcall, hclose⟩ := Option.map_eq_some_iff.mp hstage
  simp only [act, move, moveCall, hcall, Option.bind_eq_bind, Option.bind_some, hclose]

/-- Whoever has a part of closing to do is not blocked, and does it by the next step. -/
theorem exists_did {s : Session} {actor : Actor} {part : Closing} {reason : ClientError}
    (hpart : s.part? actor = some (part, reason)) :
    ∃ t, s.act (.move actor) = some t ∧ Did s t actor part reason := by
  cases actor with
  | reader =>
      obtain ⟨last, hduty⟩ := duty_eq_of_part? hpart
      let u := s.closePart reason part
      refine ⟨{ u with reader := { u.reader with duty := dutyAfter part reason last } }, ?_,
        part?_dutyAfter_eq .., rfl, rfl, rfl, rfl, rfl⟩
      simp only [act, move, moveReader, hduty, u]
  | writer =>
      obtain ⟨last, hduty⟩ := duty_eq_of_part? hpart
      let u := s.closePart reason part
      refine ⟨{ u with writer := { u.writer with duty := dutyAfter part reason last } }, ?_,
        part?_dutyAfter_eq .., rfl, rfl, rfl, rfl, rfl⟩
      simp only [act, move, moveWriter, hduty, u]
  | closer place =>
      obtain ⟨next, hcloser, hnext⟩ := Option.bind_eq_some_iff.mp hpart
      obtain ⟨_, rfl, ⟨⟩⟩ := Option.map_eq_some_iff.mp hnext
      let u := s.closePart .connectionClosed part
      refine ⟨{ u with closers := u.closers.set place part.next? }, ?_, ?_, rfl, rfl, rfl, rfl, rfl⟩
      · simp only [act, move, moveCloser, hcloser, u]
      · rw [part?, List.getElem?_set_self', (keeps_closePart s _ part).closers, hcloser]
        rfl
  | call place =>
      obtain ⟨stage, hstage, hnext⟩ := Option.bind_eq_some_iff.mp hpart
      obtain ⟨result, rfl⟩ := stage_eq_of_part? hnext
      refine ⟨_, act_of_close hstage, ?_, rfl, rfl, rfl, rfl, rfl⟩
      rw [← stage?_closePart s reason part] at hstage
      rw [part?, stage?_moveTo_self hstage]
      exact part?_stageAfter_eq ..

theorem did_of_act {s t : Session} {actor : Actor} {part : Closing} {reason : ClientError}
    (hpart : s.part? actor = some (part, reason)) (hact : s.act (.move actor) = some t) :
    Did s t actor part reason := by
  obtain ⟨u, hu, hdid⟩ := exists_did hpart
  cases hact.symm.trans hu
  exact hdid

/-! ## What will be done -/

theorem Due.mono {s : Session} {part later : Closing} (h : s.Due part)
    (horder : part.order ≤ later.order) : s.Due later := by
  obtain ⟨actor, before, reason, hpart, hbefore⟩ := h
  exact ⟨actor, before, reason, hpart, hbefore.trans horder⟩

theorem due_of_part? {s : Session} {actor : Actor} {part : Closing} {reason : ClientError}
    (h : s.part? actor = some (part, reason)) : s.Due part := ⟨actor, part, reason, h, Nat.le_refl _⟩

/-- What will be done is either still to be done, or it is what has just been done. -/
theorem Due.act {s t : Session} {part : Closing} {action : Action} (h : s.Due part)
    (hact : s.act action = some t)
    (hstart : s.StartsWorkers action → s.reader.duty = .unstarted ∧ s.writer.duty = .unstarted) :
    t.Due part ∨ ∃ actor reason, action = .move actor ∧ Did s t actor part reason ∧
      s.part? actor = some (part, reason) := by
  obtain ⟨actor, before, reason, hpart, horder⟩ := h
  by_cases haction : action = .move actor
  · subst haction
    have hdid := did_of_act hpart hact
    rcases Nat.eq_or_lt_of_le horder with heq | hlt
    · cases Closing.order_injective heq
      exact .inr ⟨actor, reason, rfl, hdid, hpart⟩
    · obtain ⟨next, hnext, hle⟩ := Closing.exists_next hlt
      exact .inl ⟨actor, next, reason, by rw [hdid.next, hnext]; rfl, hle⟩
  · exact .inl ⟨actor, before, reason, part?_stays hact hpart haction hstart, horder⟩

/-- A session is closed by somebody who has this to do. -/
theorem latched_of_act {s t : Session} {action : Action} (hact : s.act action = some t)
    (hopen : s.phase ≠ .closed) (hclosed : t.phase = .closed) :
    ∃ actor reason, action = .move actor ∧ s.part? actor = some (.latch, reason) := by
  have hlatch {part : Closing} {reason : ClientError}
      (h : (s.closePart reason part).phase = .closed) : part = .latch := by
    rw [phase_closePart] at h
    by_contra hlater
    rw [if_neg hlater] at h
    exact hopen h
  cases change_of_act hact with
  | @moves place call u stage hcall hleads =>
      generalize hold : call.stage = old at hleads
      cases hleads with
      | claim => cases hclosed
      | land hconnecting =>
          have hland := Option.some_inj.mp (hact.symm.trans (moveCall_land hcall hold))
          rw [hland, Session.land, if_pos hconnecting] at hclosed
          change (if s.pauseRequested then Phase.paused else .active) = .closed at hclosed
          split at hclosed <;> cases hclosed
      | refused | lost => exact absurd ((phase_cancel s _).symm.trans hclosed) hopen
      | close part reason =>
          cases hlatch hclosed
          refine ⟨_, reason, rfl, ?_⟩
          rw [part?, stage?_of_calls hcall, hold]
          rfl
      | _ => exact absurd hclosed hopen
  | waitOver | left | called => exact absurd hclosed hopen
  | works h =>
      cases h with
      | reads => exact absurd ((phase_dispatch ..).symm.trans hclosed) hopen
      | readerCloses hduty hclose =>
          subst hclose
          cases hlatch hclosed
          exact ⟨_, _, rfl, by rw [part?, hduty]; rfl⟩
      | writerCloses hduty hclose =>
          subst hclose
          cases hlatch hclosed
          exact ⟨_, _, rfl, by rw [part?, hduty]; rfl⟩
      | closes hcloser hclose =>
          subst hclose
          cases hlatch hclosed
          exact ⟨_, _, rfl, by rw [part?, hcloser]; rfl⟩
      | pause =>
          unfold Session.pause at hclosed
          split at hclosed
          · cases hclosed
          all_goals exact absurd hclosed hopen
      | resume =>
          change (if s.phase = .paused then Phase.active else s.phase) = .closed at hclosed
          split at hclosed
          · cases hclosed
          · exact absurd hclosed hopen
      | _ => exact absurd hclosed hopen

end Session

end CqlClient
