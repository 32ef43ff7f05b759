import CqlClient.Proofs.Session.Scenes
import CqlClient.Proofs.Session.Waiters

/-!
What is left when somebody has closed the session. The calls that wait have been told, and the
others are turned away before they wait. A handshake that has been closed while it was under way may
still open the queue of frames, but then it is the only call that could use it, and it does not.
-/

namespace CqlClient.Session

/-- If frames can be queued, no call is about to queue one or waits for an answer to one. -/
def Mute (s : Session) : Prop :=
  s.outboxOpen → ∀ place stage, s.stage? place = some stage → ¬ stage.isAsking

/-- The session is closed, and no call in the table is about to wait or waits. -/
structure Drained (s : Session) : Prop where
  closed : s.phase = .closed
  mute : s.Mute
  told : ∀ stream place stage, s.inFlight.get? stream = some place →
    s.stage? place = some stage → ¬ stage.isAsking

/-! ## Who can still ask -/

theorem not_isAsking_of_isAside {stage : Stage} (h : stage.isAside) : ¬ stage.isAsking := by
  cases stage with
  | begin | settle | claim | close | done | dropped => exact Bool.false_ne_true
  | _ => cases h

/-- In a closed session nobody begins to ask, or gets further with it. -/
theorem Mute.asking {s t : Session} {action : Action} (h : s.Mute) (hclosed : s.phase = .closed)
    (hchange : s.Change action t) {place : Nat} {stage : Stage} (hstage : t.stage? place = some stage)
    (hask : stage.isAsking) : s.stage? place = some stage := by
  rcases hchange.stage?_cases hstage with hold | hgiven | ⟨-, call, u, hcall, hleads⟩
  · exact hold
  · exact absurd (isPrepared_of_isAsking hask) (not_isPrepared_of_isGiven hgiven)
  by_cases hbefore : call.stage.isAsking
  · have hshut : ¬ s.outboxOpen := fun hopen =>
      h hopen place call.stage (stage?_of_calls hcall) hbefore
    generalize call.stage = old at hleads hbefore
    cases hleads with
    | enqueue hopen => exact absurd hopen hshut
    | lost _ _ hto | await _ _ _ hto => exact absurd hask (not_isAsking_of_leadsTo hto)
    | _ => cases hbefore
  · exact absurd hask (hleads.not_isAsking hbefore hclosed).1

theorem outboxOpen_of_closePart {s : Session} {reason : ClientError} {part : Closing}
    (h : (s.closePart reason part).outboxOpen) : s.outboxOpen ∧ part ≠ .dropOutbox := by
  cases part with
  | latch => exact ⟨h, by decide⟩
  | dropOutbox => cases h
  | stopWorkers =>
      rw [closePart] at h
      split at h <;> exact ⟨h, by decide⟩
  | failWaiters =>
      obtain ⟨calls, heq⟩ := handAll_eq { s with inFlight := s.inFlight.drain.2 }
        (s.inFlight.waiters.map (·, .error reason))
      rw [closePart_eq_handAll, heq] at h
      exact ⟨h, by decide⟩

theorem Works.outboxOpen {s t : Session} {action : Action} (h : s.Works action t)
    (hopen : t.outboxOpen) : s.outboxOpen := by
  cases h with
  | reads =>
      obtain ⟨_, _, _, heq⟩ := dispatch_eq _ _
      rw [heq] at hopen
      exact hopen
  | readerCloses _ hclose | writerCloses _ hclose | closes _ hclose =>
      subst hclose
      exact (outboxOpen_of_closePart hopen).1
  | pause =>
      unfold Session.pause at hopen
      split at hopen <;> exact hopen
  | _ => exact hopen

/-- Only the handshake opens the queue of frames. -/
theorem Change.outboxOpen {s t : Session} {action : Action} (h : s.Change action t)
    (hopen : t.outboxOpen) :
    s.outboxOpen ∨
      ∃ place, action = .move (.call place) ∧ s.stage? place = some .openOutbox := by
  cases h with
  | @moves place call u stage hcall hleads =>
      have hstage := stage?_of_calls hcall
      generalize call.stage = old at hleads hstage
      cases hleads with
      | openOutbox => exact .inr ⟨place, rfl, hstage⟩
      | refused stream | lost _ stream =>
          obtain ⟨_, _, heq⟩ := cancel_eq s stream
          rw [heq] at hopen
          exact .inl hopen
      | close => exact .inl (outboxOpen_of_closePart hopen).1
      | _ => exact .inl hopen
  | waitOver | left | called => exact .inl hopen
  | works hworks => exact .inl (hworks.outboxOpen hopen)

/-- While a call performs the handshake, all others stand aside. -/
theorem Scene.alone {s : Session} {marks : List Mark} (h : Scene s marks) {place : Nat}
    {stage : Stage} (hstage : s.stage? place = some stage) (hopening : stage.isOpening) :
    s.AsideBut (some place) ∧ s.phase ≠ .uninitialized := by
  cases h with
  | unclaimed _ _ _ haside | broken _ _ _ haside =>
      exact absurd hopening (not_isOpening_of_isAside (haside place _ (by simp) hstage))
  | @performed owner _ hphase _ _ _ haside =>
      by_cases hplace : place = owner
      · refine ⟨hplace ▸ haside, ?_⟩
        rcases hphase with hphase | hphase <;> rw [hphase] <;> decide
      · have hidle := haside place _ (by simpa using hplace) hstage
        exact absurd hopening (not_isOpening_of_isAside hidle)
  | landed _ _ _ _ hstages => exact absurd hopening (hstages place _ hstage)

theorem Mute.act {s t : Session} {marks : List Mark} {action : Action} (h : s.Mute)
    (hclosed : s.phase = .closed) (hscene : Scene s marks) (hchange : s.Change action t) : t.Mute := by
  intro hopen place stage hstage hask
  have hold := h.asking hclosed hchange hstage hask
  rcases hchange.outboxOpen hopen with hsame | ⟨owner, -, howner⟩
  · exact h hsame place stage hold hask
  · by_cases hplace : place = owner
    · subst hplace
      cases hold.symm.trans howner
      cases hask
    · have haside := (hscene.alone howner rfl).1 place stage (by simpa using hplace) hold
      exact not_isAsking_of_isAside haside hask

theorem Run.orderly {options : SessionOptions} {steps : List (Session × Action)} {s : Session}
    (h : Run (.new options) steps s) : s.Orderly := by
  induction h with
  | start => exact orderly_new options
  | act _ _ hact ih => exact ih.change (change_of_act hact)

/-- Whoever is about to stop the workers or to fail those that wait has dropped the queue of frames. -/
theorem Run.mute {options : SessionOptions} {steps : List (Session × Action)} {s : Session}
    (h : Run (.new options) steps s) {actor : Actor} {part : Closing} {reason : ClientError}
    (hactor : s.part? actor = some (part, reason))
    (hpart : part = .stopWorkers ∨ part = .failWaiters) : s.Mute := by
  induction h generalizing actor part reason with
  | start =>
      have hclosing := isClosing_iff.mpr ⟨actor, reason, hactor⟩
      rcases hclosing with ⟨_, _, h⟩ | ⟨_, _, h⟩ | h | ⟨_, _, _, h⟩ <;> cases h
  | @act steps s t action hrun hact ih =>
      have hchange := change_of_act hact
      have hstays {actor : Actor} {part : Closing} {reason : ClientError}
          (hactor : s.part? actor = some (part, reason))
          (hpart : part = .stopWorkers ∨ part = .failWaiters) : t.Mute := by
        have hclosing := isClosing_iff.mpr ⟨actor, reason, hactor⟩
        have hlater : part ≠ .latch := by rcases hpart with rfl | rfl <;> exact nofun
        exact (ih hactor hpart).act (hrun.orderly.closed part hclosing hlater) hrun.scene hchange
      rcases hchange.arrives hactor with hold | rfl | ⟨before, why, hbefore, hnext, hdone⟩
      · exact hstays hold hpart
      · rcases hpart with h | h <;> cases h
      · cases before with
        | latch =>
            cases hnext
            rcases hpart with h | h <;> cases h
        | dropOutbox =>
            intro hopen
            cases hdone.outboxOpen.symm.trans hopen
        | stopWorkers => exact hstays hbefore (.inl rfl)
        | failWaiters => cases hnext

/-! ## Who is in the table -/

theorem get?_cancel {s : Session} {stream other : Int16} {place : Nat}
    (h : (s.cancel stream).inFlight.get? other = some place) :
    s.inFlight.get? other = some place := by
  obtain ⟨table, heq, htable⟩ := cancel_eq_handAll s stream
  obtain ⟨calls, hcalls⟩ := handAll_eq { s with inFlight := table }
    (s.handsOn stream (.error .connectionClosed))
  rw [heq, hcalls, htable] at h
  split at h
  · cases h
  · exact h

theorem get?_failWaiters (s : Session) (reason : ClientError) (stream : Int16) :
    (s.closePart reason .failWaiters).inFlight.get? stream = none := by
  obtain ⟨calls, heq⟩ := handAll_eq { s with inFlight := s.inFlight.drain.2 }
    (s.inFlight.waiters.map (·, .error reason))
  rw [closePart_eq_handAll, heq]
  exact InFlight.get?_drain ..

theorem get?_closePart {s : Session} {reason : ClientError} {part : Closing} {stream : Int16}
    {place : Nat} (h : (s.closePart reason part).inFlight.get? stream = some place) :
    s.inFlight.get? stream = some place := by
  cases part with
  | latch | dropOutbox => exact h
  | stopWorkers =>
      rw [closePart] at h
      split at h <;> exact h
  | failWaiters => cases (get?_failWaiters s reason stream).symm.trans h

theorem Works.get? {s t : Session} {action : Action} (h : s.Works action t) {stream : Int16}
    {place : Nat} (hplace : t.inFlight.get? stream = some place) :
    s.inFlight.get? stream = some place := by
  cases h with
  | @reads frame rest =>
      by_cases hevent : frame.stream = Frame.eventStream
      · rw [dispatch, if_pos hevent] at hplace
        exact hplace
      · obtain ⟨table, reader, heq, htable⟩ :=
          dispatch_eq_handAll { s with arrivals := rest } hevent
        obtain ⟨calls, hcalls⟩ := handAll_eq { s with arrivals := rest, inFlight := table }
          (handsOn { s with arrivals := rest } frame.stream (.ok frame))
        rw [heq, hcalls] at hplace
        change table.get? stream = some place at hplace
        rw [htable] at hplace
        split at hplace
        · cases hplace
        · exact hplace
  | readerCloses _ hclose | writerCloses _ hclose | closes _ hclose =>
      subst hclose
      exact get?_closePart hplace
  | pause =>
      unfold Session.pause at hplace
      split at hplace <;> exact hplace
  | _ => exact hplace

/-- A call comes into the table only by taking a stream. -/
theorem Change.get? {s t : Session} {action : Action} (h : s.Change action t) {stream : Int16}
    {place : Nat} (hplace : t.inFlight.get? stream = some place) :
    s.inFlight.get? stream = some place ∨
      (∃ exchange, t.stage? place = some (.check exchange stream)) ∧
        stream ≠ Frame.eventStream := by
  cases h with
  | @moves mover call u stage hcall hleads =>
      have hstage := stage?_of_calls hcall
      generalize call.stage = old at hleads hstage
      cases hleads with
      | @register exchange taken table hregister =>
          obtain ⟨-, hrange, htable⟩ := InFlight.register_eq_some hregister
          change table.get? stream = some place at hplace
          rw [htable] at hplace
          split at hplace
          · next heq =>
            cases hplace
            subst heq
            exact .inr ⟨⟨exchange, stage?_moveTo_self hstage _⟩, InFlight.ne_eventStream hrange⟩
          · exact .inl hplace
      | refused | lost => exact .inl (get?_cancel hplace)
      | close => exact .inl (get?_closePart hplace)
      | _ => exact .inl hplace
  | waitOver | left | called => exact .inl hplace
  | works hworks => exact .inl (hworks.get? hplace)

/-! ## What a closing comes to -/

theorem Drained.act {s t : Session} {marks : List Mark} {action : Action} (h : s.Drained)
    (hscene : Scene s marks) (hchange : s.Change action t) : t.Drained where
  closed := hchange.stays_closed h.closed
  mute := h.mute.act h.closed hscene hchange
  told := by
    intro stream place stage hplace hstage hask
    rcases hchange.get? hplace with hold | ⟨⟨exchange, hcheck⟩, -⟩
    · exact h.told stream place stage hold (h.mute.asking h.closed hchange hstage hask) hask
    · cases hstage.symm.trans hcheck
      cases hask

theorem fails?_eq_some {s : Session} {action : Action} {reason : ClientError}
    (h : s.fails? action = some reason) :
    ∃ actor, action = .move actor ∧ s.part? actor = some (.failWaiters, reason) := by
  unfold fails? at h
  split at h
  · next actor =>
    split at h <;> cases h
    next hpart => exact ⟨actor, rfl, hpart⟩
  · cases h

/-- Whoever fails those that wait empties the table. -/
theorem get?_of_fails {s t : Session} {actor : Actor} {reason : ClientError}
    (hpart : s.part? actor = some (.failWaiters, reason)) (hact : s.act (.move actor) = some t)
    (stream : Int16) : t.inFlight.get? stream = none := by
  by_cases hcalls : ∃ place, actor = .call place
  · obtain ⟨place, rfl⟩ := hcalls
    obtain ⟨call, u, stage, hcall, hleads, rfl⟩ := leads_of_moveCall hact
    rw [Session.part?, stage?_of_calls hcall] at hpart
    obtain ⟨result, hstage⟩ := stage_eq_of_part? hpart
    rw [hstage] at hleads
    cases hleads
    exact get?_failWaiters s reason stream
  · obtain ⟨_, _, _, rfl⟩ := act_of_part? hpart (fun place heq => hcalls ⟨place, heq⟩) hact
    exact get?_failWaiters s reason stream

/-- When somebody has closed the session, it is drained from then on. -/
theorem Run.drained {options : SessionOptions} {steps : List (Session × Action)} {s : Session}
    (h : Run (.new options) steps s) (hended : endings steps ≠ []) : s.Drained := by
  induction h with
  | start => exact absurd rfl hended
  | @act steps s t action hrun hact ih =>
      have hchange := change_of_act hact
      rw [endings_concat] at hended
      cases hfails : s.fails? action with
      | none =>
          rw [hfails, Option.toList_none, List.append_nil] at hended
          exact (ih hended).act hrun.scene hchange
      | some reason =>
          obtain ⟨actor, rfl, hpart⟩ := fails?_eq_some hfails
          have hclosing := isClosing_iff.mpr ⟨actor, reason, hpart⟩
          have hclosed := hrun.orderly.closed .failWaiters hclosing nofun
          have hmute := hrun.mute hpart (.inr rfl)
          refine ⟨hchange.stays_closed hclosed, hmute.act hclosed hrun.scene hchange, ?_⟩
          intro stream place stage hplace
          cases (get?_of_fails hpart hact stream).symm.trans hplace

/-! ## What becomes of the round trips -/

/-- A call that waits in a drained session can take what it has been handed. -/
theorem Drained.answered {s : Session} {endings : List ClientError}
    {got : Nat → List (Except ClientError Frame)} (h : s.Drained) (htabled : Tabled s endings got)
    {place : Nat} {call : Call} {exchange : Exchange} {stream : Int16}
    (hcall : s.calls[place]? = some call) (hstage : call.stage = .await exchange stream) :
    ∃ result, call.inbox = some result ∧ got place = [result] ∧ Fits endings stream result ∧
      ∀ other, s.inFlight.get? other ≠ some place := by
  have hstance := htabled.stances place call hcall
  cases hstance with
  | waits hstream _ _ htable =>
      have hask : call.stage.isAsking := by rw [hstage]; rfl
      exact absurd hask (h.told _ place call.stage ((htable _).mpr rfl) (stage?_of_calls hcall))
  | handed hstream hinbox hgot hfits htable =>
      rw [hstage] at hstream
      cases hstream
      exact ⟨_, hinbox, hgot, hfits, htable⟩
  | ended hover => rw [hstage] at hover; cases hover
  | free hstream => rw [hstage] at hstream; cases hstream

theorem exchange?_ne_of_leadsTo {exchange : Exchange} {stage : Stage} (h : exchange.LeadsTo stage) :
    stage.exchange? ≠ some exchange := by
  cases h <;> exact nofun

/-- A call that is at an exchange in a drained session is not blocked, and by its next step it has
done with the exchange or comes to the look at whether the session has been closed since. -/
theorem Drained.returns {s : Session} {endings : List ClientError}
    {got : Nat → List (Except ClientError Frame)} (h : s.Drained) (htabled : Tabled s endings got)
    {place : Nat} {stage : Stage} {exchange : Exchange} (hstage : s.stage? place = some stage)
    (hexchange : stage.exchange? = some exchange) :
    ∃ t next, s.act (.move (.call place)) = some t ∧ t.stage? place = some next ∧
      (next.exchange? ≠ some exchange ∨
        stage = .register exchange ∧ ∃ stream, next = .check exchange stream) := by
  obtain ⟨call, hcall, rfl⟩ := Option.map_eq_some_iff.mp hstage
  have hmoves : ∃ t, s.moveCall place = some t := by
    simp only [moveCall, hcall, Option.bind_eq_bind, Option.bind_some]
    cases hcase : call.stage with
    | register | enqueue => exact ⟨_, rfl⟩
    | check =>
        dsimp only
        rw [isClosed, h.closed]
        exact ⟨_, rfl⟩
    | await =>
        obtain ⟨result, hinbox, -⟩ := h.answered htabled hcall hcase
        exact ⟨_, by rw [hinbox]; rfl⟩
    | _ => rw [hcase] at hexchange; cases hexchange
  obtain ⟨t, hmove⟩ := hmoves
  obtain ⟨found, u, next, hfound, hleads, rfl⟩ := leads_of_moveCall hmove
  cases hcall.symm.trans hfound
  refine ⟨_, next, hmove, stage?_moveTo_self ((hleads.stage?_eq hcall).symm ▸ hstage) next, ?_⟩
  have hquiet : call.stage.isAsking → s.outboxOpen = false := by
    intro hask
    by_contra hopen
    exact h.mute (by simpa using hopen) place call.stage hstage hask
  generalize call.stage = old at hleads hexchange hquiet
  cases hleads with
  | register =>
      cases hexchange
      exact .inr ⟨rfl, _, rfl⟩
  | check hopen => exact absurd h.closed hopen
  | enqueue hopen => cases hopen.symm.trans (hquiet rfl)
  | exhausted hto | refused _ hto | lost _ _ hto | await _ _ _ hto =>
      cases hexchange
      exact .inl (exchange?_ne_of_leadsTo hto)
  | _ => cases hexchange

/-- In a drained session nothing is queued any more. -/
theorem Drained.asks?_eq_none {s : Session} (h : s.Drained) (action : Action) :
    s.asks? action = none := by
  refine Option.eq_none_iff_forall_ne_some.mpr fun asked hasked => ?_
  obtain ⟨-, hopen, hstage⟩ := asks?_eq_some hasked
  exact h.mute hopen asked.place _ hstage rfl

theorem endings_append_ne_nil {steps : List (Session × Action)} (h : endings steps ≠ [])
    (later : List (Session × Action)) : endings (steps ++ later) ≠ [] := by
  rw [endings, List.filterMap_append]
  exact List.append_ne_nil_of_left_ne_nil h _

/-- After somebody has closed the session nothing is queued, and no call comes to wait. -/
theorem Run.after_drained {options : SessionOptions} {steps later : List (Session × Action)}
    {s t : Session} (h : Run (.new options) steps s) (hended : endings steps ≠ [])
    (hlater : Run s later t) :
    t.frames = s.frames ∧ ∀ place stage, t.stage? place = some stage → stage.isAsking →
      s.stage? place = some stage := by
  induction hlater with
  | start => exact ⟨rfl, fun _ _ hstage _ => hstage⟩
  | @act later u t action hrun hact ih =>
      have hdrained := (h.append hrun).drained (endings_append_ne_nil hended later)
      obtain ⟨hframes, hwaits⟩ := ih
      constructor
      · rw [frames_of_act hact, hdrained.asks?_eq_none, hframes]
        exact List.append_nil _
      · intro place stage hstage hask
        have hold := hdrained.mute.asking hdrained.closed (change_of_act hact) hstage hask
        exact hwaits place stage hold hask

/-- As soon as somebody has closed the session to the end, whatever the others are doing, each call
that waits for a response has been handed exactly one result, the frame on its stream or the reason
of a closing, and is in the table no more. From then on nothing is queued, and no call comes to wait.
A call that is at an exchange can always make its next step; with it the call has done with the
exchange, or it has only taken a stream, and the step after that will be its last one. -/
theorem Run.no_waiter_lost {options : SessionOptions} {steps : List (Session × Action)} {s : Session}
    (h : Run (.new options) steps s) (hended : endings steps ≠ []) :
    (∀ place call exchange stream, s.calls[place]? = some call →
      call.stage = .await exchange stream →
        ∃ result, call.inbox = some result ∧ received steps place = [result] ∧
          Fits (endings steps) stream result ∧ ∀ other, s.inFlight.get? other ≠ some place) ∧
      ∀ later t, Run s later t → t.frames = s.frames ∧
        (∀ place exchange stream, t.stage? place = some (.await exchange stream) →
          s.stage? place = some (.await exchange stream)) ∧
        ∀ place stage exchange, t.stage? place = some stage → stage.exchange? = some exchange →
          ∃ u next, t.act (.move (.call place)) = some u ∧ u.stage? place = some next ∧
            (next.exchange? ≠ some exchange ∨
              stage = .register exchange ∧ ∃ stream, next = .check exchange stream) := by
  constructor
  · intro place call exchange stream hcall hstage
    exact (h.drained hended).answered h.tabled hcall hstage
  · intro later t hlater
    obtain ⟨hframes, hwaits⟩ := h.after_drained hended hlater
    refine ⟨hframes, fun place exchange stream hstage => hwaits place _ hstage rfl, ?_⟩
    intro place stage exchange hstage hexchange
    have hrun := h.append hlater
    exact (hrun.drained (endings_append_ne_nil hended later)).returns hrun.tabled hstage hexchange

/-- The session is closed while the startup message waits for its answer. -/
theorem no_waiter_lost_during_startup :
    ∃ steps s, Run (.new (.standard ⟨"node", 9042⟩ "")) steps s ∧
      endings steps = [.connectionClosed] ∧ ∃ call exchange stream, s.calls[0]? = some call ∧
        call.stage = .await exchange stream ∧ ∃ result, call.inbox = some result ∧
          received steps 0 = [result] ∧ Fits (endings steps) stream result ∧
            ∀ other, s.inFlight.get? other ≠ some 0 := by
  have hnew : Run (.new (.standard ⟨"node", 9042⟩ "")) _ _ := .start
  have hcalled := hnew.act (.call .opening none) rfl
  have hsettles := hcalled.act (.move (.call 0)) rfl
  have hclaims := hsettles.act (.move (.call 0)) rfl
  have hconnects := hclaims.act (.move (.call 0)) rfl
  have hready := hconnects.act (.transport .ready) rfl
  have hopens := hready.act (.move (.call 0)) rfl
  have hstarts := hopens.act (.move (.call 0)) rfl
  have hrecords := hstarts.act (.move (.call 0)) rfl
  have hregisters := hrecords.act (.move (.call 0)) rfl
  have hchecks := hregisters.act (.move (.call 0)) rfl
  have henqueues := hchecks.act (.move (.call 0)) rfl
  have hawaits := henqueues.act (.move (.call 0)) rfl
  have hcloses := hawaits.act .close rfl
  have hlatches := hcloses.act (.move (.closer 0)) rfl
  have hdrops := hlatches.act (.move (.closer 0)) rfl
  have hstops := hdrops.act (.move (.closer 0)) rfl
  have hfails := hstops.act (.move (.closer 0)) rfl
  obtain ⟨hwaiting, -⟩ := hfails.no_waiter_lost (List.cons_ne_nil _ _)
  exact ⟨_, _, hfails, rfl, _, _, _, rfl, rfl, hwaiting 0 _ _ _ rfl rfl⟩

end CqlClient.Session
