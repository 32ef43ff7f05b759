import CqlClient.Proofs.Session.Ownership
import CqlClient.Proofs.Session.Shutdown
import Mathlib.Data.List.Chain

/-!
The phases of a session. They follow one another in one order only, and what is closed stays closed.
A pause is noted until the handshake has ended and shows in the phase from then on, so at every
moment the session knows whether the last pause or resumption was a pause.
-/

namespace CqlClient

/-- The phases that may follow a phase. -/
inductive Phase.Next : Phase → Phase → Prop
  | claim : Next .uninitialized .connecting
  | land : Next .connecting .active
  | landHeld : Next .connecting .paused
  | pause : Next .active .paused
  | resume : Next .paused .active
  | close {phase : Phase} (h : phase ≠ .closed) : Next phase .closed

namespace Session

/-- Whether an action holds queries back or lets them go on, if it does either. -/
def Action.holds? : Action → Option Bool
  | .pause => some true
  | .resume => some false
  | _ => none

/-- The last pause or resumption of a run was a pause. -/
def Held (steps : List (Session × Action)) : Prop :=
  (steps.filterMap (·.2.holds?)).getLast? = some true

/-- The phases of a run, from its start to its end. -/
def phases (steps : List (Session × Action)) (s : Session) : List Phase :=
  steps.map (·.1.phase) ++ [s.phase]

/-- What an action does to the phase and to the noted pause. -/
inductive Turns (s t : Session) : Action → Prop
  | keeps {action : Action} (haction : action.holds? = none) (hphase : t.phase = s.phase)
      (hnoted : t.pauseRequested = s.pauseRequested) : Turns s t action
  | claims (place : Nat) (h : s.phase = .uninitialized) (hphase : t.phase = .connecting)
      (hnoted : t.pauseRequested = s.pauseRequested) : Turns s t (.move (.call place))
  | lands {place : Nat} (hland : s.stage? place = some .land) (h : s.phase = .connecting)
      (hphase : t.phase = if s.pauseRequested then .paused else .active) :
      Turns s t (.move (.call place))
  | closes {action : Action} (haction : action.holds? = none) (hphase : t.phase = .closed) :
      Turns s t action
  | pauses (h : t = s.pause) : Turns s t .pause
  | resumes (h : t = s.resume) : Turns s t .resume

/-! ## What an action does to the phase -/

theorem pauseRequested_cancel (s : Session) (stream : Int16) :
    (s.cancel stream).pauseRequested = s.pauseRequested := by
  obtain ⟨_, _, heq⟩ := cancel_eq s stream
  rw [heq]

theorem pauseRequested_dispatch (s : Session) (frame : Frame) :
    (s.dispatch frame).pauseRequested = s.pauseRequested := by
  obtain ⟨_, _, _, heq⟩ := dispatch_eq s frame
  rw [heq]

theorem pauseRequested_closePart (s : Session) (reason : ClientError) (part : Closing) :
    (s.closePart reason part).pauseRequested = s.pauseRequested := by
  obtain ⟨_, _, _, _, _, _, heq⟩ := closePart_eq s reason part
  rw [heq]

/-- A part of closing closes the session or leaves its phase as it is. -/
theorem Turns.of_closePart {s t : Session} {action : Action} {reason : ClientError} {part : Closing}
    (haction : action.holds? = none) (hphase : t.phase = (s.closePart reason part).phase)
    (hnoted : t.pauseRequested = (s.closePart reason part).pauseRequested) : s.Turns t action := by
  rw [phase_closePart] at hphase
  rw [pauseRequested_closePart] at hnoted
  split at hphase
  · exact .closes haction hphase
  · exact .keeps haction hphase hnoted

theorem moveCall_land {s : Session} {place : Nat} {call : Call} (hcall : s.calls[place]? = some call)
    (hstage : call.stage = .land) : s.moveCall place = some (s.land place) := by
  simp only [moveCall, hcall, Option.bind_eq_bind, Option.bind_some, hstage]

theorem turns_of_moveCall {s t : Session} {place : Nat} (h : s.moveCall place = some t) :
    s.Turns t (.move (.call place)) := by
  obtain ⟨call, u, stage, hcall, hleads, rfl⟩ := leads_of_moveCall h
  generalize hold : call.stage = old at hleads
  cases hleads with
  | claim hfirst => exact .claims place hfirst rfl rfl
  | land hconnecting =>
      have hstage : s.stage? place = some .land := hold ▸ stage?_of_calls hcall
      -- Which phase the handshake ends in, only the step itself says.
      have hland := Option.some_inj.mp (h.symm.trans (moveCall_land hcall hold))
      rw [hland, Session.land, if_pos hconnecting]
      exact .lands hstage hconnecting rfl
  | refused stream | lost _ stream =>
      exact .keeps rfl (phase_cancel s stream) (pauseRequested_cancel s stream)
  | close part reason =>
      have hphase : (s.closePart reason part).phase = _ := rfl
      exact .of_closePart rfl hphase rfl
  | _ => exact .keeps rfl rfl rfl

theorem Works.turns {s t : Session} {action : Action} (h : s.Works action t) : s.Turns t action := by
  cases h with
  | reads => exact .keeps rfl (phase_dispatch ..) (pauseRequested_dispatch ..)
  | readerCloses _ hclose | writerCloses _ hclose | closes _ hclose =>
      subst hclose
      exact .of_closePart rfl rfl rfl
  | pause => exact .pauses rfl
  | resume => exact .resumes rfl
  | _ => exact .keeps rfl rfl rfl

theorem turns_of_act {s t : Session} {action : Action} (h : s.act action = some t) :
    s.Turns t action := by
  cases change_of_act h with
  | moves => exact turns_of_moveCall h
  | waitOver | called => exact .keeps rfl rfl rfl
  | left haction => rcases haction with rfl | rfl <;> exact .keeps rfl rfl rfl
  | works hworks => exact hworks.turns

/-! ## The order of the phases -/

theorem Turns.next {s t : Session} {action : Action} (h : s.Turns t action) :
    t.phase = s.phase ∨ s.phase.Next t.phase := by
  cases h with
  | keeps _ hphase => exact .inl hphase
  | claims _ h hphase =>
      rw [h, hphase]
      exact .inr .claim
  | lands _ h hphase =>
      rw [h, hphase]
      split
      · exact .inr .landHeld
      · exact .inr .land
  | closes _ hphase =>
      rw [hphase]
      by_cases hclosed : s.phase = .closed
      · exact .inl hclosed.symm
      · exact .inr (.close hclosed)
  | pauses h =>
      rw [h]
      cases hphase : s.phase with
      | active =>
          simp only [Session.pause, hphase]
          exact .inr .pause
      | _ =>
          simp only [Session.pause, hphase]
          exact .inl trivial
  | resumes h =>
      rw [h, Session.resume]
      by_cases hpaused : s.phase = .paused
      · rw [if_pos hpaused, hpaused]
        exact .inr .resume
      · rw [if_neg hpaused]
        exact .inl rfl

theorem phases_concat (steps : List (Session × Action)) (s t : Session) (action : Action) :
    phases (steps ++ [(s, action)]) t = phases steps s ++ [t.phase] := by
  rw [phases, List.map_append, List.map_singleton, phases]

theorem getLast?_phases (steps : List (Session × Action)) (s : Session) :
    (phases steps s).getLast? = some s.phase := List.getLast?_concat

theorem Run.isChain_phases {s t : Session} {steps : List (Session × Action)} (h : Run s steps t) :
    (phases steps t).IsChain fun phase next => next = phase ∨ phase.Next next := by
  induction h with
  | start => exact List.isChain_singleton _
  | @act steps t u action _ hact ih =>
      rw [phases_concat]
      refine List.isChain_append.mpr ⟨ih, List.isChain_singleton _, ?_⟩
      rw [getLast?_phases]
      rintro _ ⟨⟩ _ ⟨⟩
      exact (turns_of_act hact).next

theorem Run.head?_phases {s t : Session} {steps : List (Session × Action)} (h : Run s steps t) :
    (phases steps t).head? = some s.phase := by
  induction h with
  | start => rfl
  | act _ _ _ ih => rw [phases_concat, List.head?_append, ih, Option.some_or]

theorem Run.stays_closed {s t : Session} {steps : List (Session × Action)} (h : Run s steps t)
    (hclosed : s.phase = .closed) : t.phase = .closed := by
  induction h with
  | start => exact hclosed
  | act _ _ hact ih => exact (change_of_act hact).stays_closed ih

theorem Run.closed_of_mem {s t : Session} {steps : List (Session × Action)} (h : Run s steps t)
    {step : Session × Action} (hstep : step ∈ steps) (hclosed : step.1.phase = .closed) :
    t.phase = .closed := by
  induction h with
  | start => cases hstep
  | act _ _ hact ih =>
      apply (change_of_act hact).stays_closed
      rcases List.mem_append.mp hstep with hold | hnew
      · exact ih hold
      · rw [List.mem_singleton.mp hnew] at hclosed
        exact hclosed

/-! ## The last pause -/

/-- The session knows whether queries are held back. -/
def Remembers (s : Session) (held : Prop) : Prop :=
  match s.phase with
  | .uninitialized | .connecting => s.pauseRequested ↔ held
  | .active => ¬ held
  | .paused => held
  | .closed => True

theorem held_concat {steps : List (Session × Action)} {s : Session} {action : Action} :
    Held (steps ++ [(s, action)]) ↔
      action.holds? = some true ∨ action.holds? = none ∧ Held steps := by
  rw [Held, List.filterMap_append]
  cases haction : action.holds? with
  | none => simp [Held, haction]
  | some held => simp [haction]

theorem Turns.remembers {s t : Session} {action : Action} {held : Prop} (h : s.Turns t action)
    (hknows : s.Remembers held) :
    t.Remembers (action.holds? = some true ∨ action.holds? = none ∧ held) := by
  cases h with
  | keeps haction hphase hnoted =>
      rw [haction]
      simpa [Remembers, hphase, hnoted] using hknows
  | claims _ hfirst hphase hnoted =>
      simpa [Remembers, hfirst, hphase, hnoted, Action.holds?] using hknows
  | lands _ hfirst hphase =>
      cases hnoted : s.pauseRequested <;>
        simpa [Remembers, hfirst, hphase, hnoted, Action.holds?] using hknows
  | closes _ hphase => simp [Remembers, hphase]
  | pauses h => cases hphase : s.phase <;> simp [h, Session.pause, Remembers, hphase, Action.holds?]
  | resumes h => cases hphase : s.phase <;> simp [h, Session.resume, Remembers, hphase, Action.holds?]

theorem Run.remembers {options : SessionOptions} {steps : List (Session × Action)} {s : Session}
    (h : Run (.new options) steps s) : s.Remembers (Held steps) := by
  induction h with
  | start => simp [Remembers, Session.new, Held]
  | act _ _ hact ih =>
      rw [held_concat]
      exact (turns_of_act hact).remembers ih

/-- The phases of a run follow one another from the uninitialized one on, and nothing follows the
closed one. A session that is active or paused is paused exactly if the last pause or resumption
since it was created, in whatever phase, was a pause. -/
theorem Run.lifecycle {options : SessionOptions} {steps : List (Session × Action)} {s : Session}
    (h : Run (.new options) steps s) :
    (phases steps s).head? = some .uninitialized ∧
      ((phases steps s).IsChain fun phase next => next = phase ∨ phase.Next next) ∧
      (∀ step ∈ steps, step.1.phase = .closed → s.phase = .closed) ∧
      (s.phase = .active ∨ s.phase = .paused → (s.phase = .paused ↔ Held steps)) := by
  refine ⟨h.head?_phases, h.isChain_phases, fun _ => h.closed_of_mem, ?_⟩
  have hknows := h.remembers
  rintro (hactive | hpaused)
  · simp only [Remembers, hactive] at hknows
    simp [hactive, hknows]
  · simp only [Remembers, hpaused] at hknows
    simp [hpaused, hknows]

/-- A session that is paused before anybody opens it is paused when the handshake has ended. -/
theorem lifecycle_of_early_pause :
    ∃ steps s, Run (.new (.standard ⟨"node", 9042⟩ "")) steps s ∧
      steps.head?.map Prod.snd = some .pause ∧ s.phase = .paused ∧ Held steps := by
  have hnew : Run (.new (.standard ⟨"node", 9042⟩ "")) _ _ := .start
  have hpaused := hnew.act .pause rfl
  have hcalled := hpaused.act (.call .opening none) rfl
  have hsettles := hcalled.act (.move (.call 0)) rfl
  have hclaims := hsettles.act (.move (.call 0)) rfl
  have hconnects := hclaims.act (.move (.call 0)) rfl
  have hready := hconnects.act (.transport .ready) rfl
  have hopens := hready.act (.move (.call 0)) rfl
  have hstarts := hopens.act (.move (.call 0)) rfl
  have hrecords := hstarts.act (.move (.call 0)) rfl
  have hregisters := hrecords.act (.move (.call 0)) rfl
  have hchecks := hregisters.act (.move (.call 0)) rfl
  have henqueues := hchecks.act (.move (.call 0)) rfl
  have hawaits := henqueues.act (.move (.call 0)) rfl
  have harrives := hawaits.act (.arrive (.ok (.response 0 .ready []))) rfl
  have hreads := harrives.act (.move .reader) rfl
  have hlands := hreads.act (.move (.call 0)) rfl
  have hends := hlands.act (.move (.call 0)) rfl
  obtain ⟨-, -, -, hheld⟩ := hends.lifecycle
  exact ⟨_, _, hends, rfl, rfl, (hheld (.inr rfl)).mp rfl⟩

end Session

end CqlClient
