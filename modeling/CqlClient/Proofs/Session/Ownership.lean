import CqlClient.Proofs.Session.Change

/-!
Who performs the handshake. It runs inside the call that has claimed it, and nobody else takes it
over: while the session is connecting, some call performs the handshake if and only if no caller has
deserted it so far. A handshake that is not deserted ends after a bounded number of steps.
-/

namespace CqlClient

/-- The steps left to a call whose exchange is answered after so many, until the handshake ends. -/
def Exchange.stepsLeft (before : Nat) : Exchange → Nat
  | .startup _ => before + 6
  | .use _ => before + 2
  | .query _ => 0

/-- The steps that a call has left until the handshake has ended, at most. There are none for a call
that does not perform the handshake. -/
def Stage.stepsLeft : Stage → Nat
  | .connect _ => 14
  | .openOutbox => 13
  | .startWorkers => 12
  | .recordWorkers => 11
  | .register exchange => exchange.stepsLeft 4
  | .check exchange _ => exchange.stepsLeft 3
  | .enqueue exchange _ => exchange.stepsLeft 2
  | .await exchange _ => exchange.stepsLeft 1
  | .land => 2
  | .close .latch _ _ => 1
  | _ => 0

/-- The stages of a call that has not gone beyond waiting for others, and of one that is over. -/
def Stage.isIdle : Stage → Bool
  | .begin | .settle | .claim | .done _ | .dropped => true
  | _ => false

theorem Stage.stepsLeft_le (stage : Stage) : stage.stepsLeft ≤ 14 := by
  have hexchange (exchange : Exchange) {before : Nat} (h : before ≤ 4) :
      exchange.stepsLeft before ≤ 14 := by
    cases exchange <;> simp only [Exchange.stepsLeft] <;> omega
  cases stage with
  | register | check | enqueue | await => exact hexchange _ (by decide)
  | close part => cases part <;> simp [Stage.stepsLeft]
  | _ => simp [Stage.stepsLeft]

theorem Stage.stepsLeft_of_isIdle {stage : Stage} (h : stage.isIdle) : stage.stepsLeft = 0 := by
  cases stage with
  | begin | settle | claim | done | dropped => rfl
  | _ => cases h

namespace Session

/-- Whether an action is a step of the call at a place, or the end of one of its waits. -/
def Action.isStepOf (place : Nat) : Action → Bool
  | .move (.call other) | .giveUpWait other => other == place
  | _ => false

/-- The call at a place performs the handshake. -/
def Performs (s : Session) (place : Nat) : Prop :=
  ∃ stage, s.stage? place = some stage ∧ 0 < stage.stepsLeft

/-- The caller of the call that performs the handshake goes away or loses its patience. -/
def Deserts (s : Session) (action : Action) : Prop :=
  ∃ place, s.Performs place ∧ (action = .abandon place ∨ action = .giveUpCall place)

/-- The actions of a run, each with the session before it, and the session at its end. -/
inductive Run (s : Session) : List (Session × Action) → Session → Prop
  | start : Run s [] s
  | act {steps : List (Session × Action)} {t u : Session} (action : Action) (h : Run s steps t)
      (hact : t.act action = some u) : Run s (steps ++ [(t, action)]) u

/-- The call at a place waits until a moment: for the transport, or for an answer. -/
def WaitsUntil (s : Session) (place deadline : Nat) : Prop :=
  ∃ call, s.calls[place]? = some call ∧
    (call.stage = .connect deadline ∧ s.transport = .pending ∨
      ∃ exchange stream, call.stage = .await exchange stream ∧ call.inbox = none ∧
        (exchange = .startup deadline ∨ exchange = .use deadline))

/-! ## Steps of the call that performs the handshake -/

theorem leadsTo_stepsLeft {exchange : Exchange} {stage : Stage} {before : Nat}
    (h : exchange.LeadsTo stage) (hleft : 0 < exchange.stepsLeft before) (hbefore : 0 < before) :
    0 < stage.stepsLeft ∧ stage.stepsLeft < exchange.stepsLeft before := by
  cases h with
  | answered => exact absurd hleft (Nat.lt_irrefl 0)
  | broken =>
      cases exchange with
      | query => exact absurd hleft (Nat.lt_irrefl 0)
      | startup | use => simp only [Stage.stepsLeft, Exchange.stepsLeft]; omega
  | keyspace | ready | chosen => simp only [Stage.stepsLeft, Exchange.stepsLeft]; omega

/-- The call that performs the handshake gets nearer to its end, or ends it. -/
theorem Leads.performs {s u : Session} {place : Nat} {call : Call} {old stage : Stage}
    (h : Leads s place call old u stage) (hleft : 0 < old.stepsLeft) :
    u.phase.isSettled ∨
      u.phase = s.phase ∧ 0 < stage.stepsLeft ∧ stage.stepsLeft < old.stepsLeft := by
  cases h with
  | begin | settle | claim | claimed => exact absurd hleft (Nat.lt_irrefl 0)
  | connect | unreachable | openOutbox | startWorkers | recordWorkers | closed =>
      exact .inr ⟨rfl, by simp [Stage.stepsLeft, Exchange.stepsLeft]⟩
  | @register exchange | check _ exchange | enqueue _ exchange =>
      refine .inr ⟨rfl, ?_⟩
      cases exchange <;> simp_all [Stage.stepsLeft, Exchange.stepsLeft]
  | exhausted hto => exact .inr ⟨rfl, leadsTo_stepsLeft hto hleft (by decide)⟩
  | refused stream hto | lost _ stream hto =>
      exact .inr ⟨phase_cancel s stream, leadsTo_stepsLeft hto hleft (by decide)⟩
  | await _ _ _ hto => exact .inr ⟨rfl, leadsTo_stepsLeft hto hleft (by decide)⟩
  | land _ hphase => exact .inl hphase
  | close part =>
      cases part with
      | latch => exact .inl rfl
      | _ => exact absurd hleft (Nat.lt_irrefl 0)

/-- Before the handshake has ended, an idle call stays idle unless it claims the handshake. -/
theorem Leads.idle {s u : Session} {place : Nat} {call : Call} {old stage : Stage}
    (h : Leads s place call old u stage) (hidle : old.isIdle) (hphase : ¬ s.phase.isSettled) :
    u.phase = s.phase ∧ stage.isIdle ∨
      s.phase = .uninitialized ∧ u.phase = .connecting ∧ 0 < stage.stepsLeft := by
  cases h with
  | begin =>
      refine .inl ⟨rfl, ?_⟩
      unfold firstStage
      split
      · rfl
      · split
        · rfl
        · split <;> rfl
  | settle h =>
      refine .inl ⟨rfl, ?_⟩
      unfold settled at h
      split at h <;> simp_all [Phase.isSettled]
      subst h
      rfl
  | claim hfirst => exact .inr ⟨hfirst, rfl, by simp [Stage.stepsLeft]⟩
  | claimed => exact .inl ⟨rfl, rfl⟩
  | _ => cases hidle

/-! ## The one who performs the handshake -/

/-- All calls are idle, except perhaps one. -/
def IdleBut (s : Session) (owner : Option Nat) : Prop :=
  ∀ place stage, some place ≠ owner → s.stage? place = some stage → stage.isIdle

/-- Before the handshake has begun all calls are idle. While it is under way one call performs it
and the others are idle, unless it has been deserted: then all are. -/
def Owned (s : Session) (deserted : Prop) : Prop :=
  match s.phase with
  | .uninitialized => ¬ deserted ∧ s.IdleBut none
  | .connecting =>
    ¬ deserted ∧ (∃ owner, s.Performs owner ∧ s.IdleBut (some owner)) ∨ deserted ∧ s.IdleBut none
  | .active | .paused | .closed => True

theorem IdleBut.eq_of_performs {s : Session} {owner : Option Nat} {place : Nat}
    (h : s.IdleBut owner) (hplace : s.Performs place) : some place = owner := by
  obtain ⟨stage, hstage, hleft⟩ := hplace
  by_contra hother
  rw [Stage.stepsLeft_of_isIdle (h place stage hother hstage)] at hleft
  exact Nat.lt_irrefl 0 hleft

theorem IdleBut.moveTo {s u : Session} {owner next : Option Nat} {place : Nat} {stage : Stage}
    (h : s.IdleBut owner) (hsame : u.stage? = s.stage?)
    (howner : ∀ other, other ≠ place → some other ≠ next → some other ≠ owner)
    (hstage : some place ≠ next → stage.isIdle) : (u.moveTo place stage).IdleBut next := by
  intro other found hother hfound
  by_cases hplace : other = place
  · subst hplace
    rw [stage?, getElem?_moveTo, if_pos rfl] at hfound
    obtain ⟨_, hcall, rfl⟩ := Option.map_eq_some_iff.mp hfound
    obtain ⟨_, -, rfl⟩ := Option.map_eq_some_iff.mp hcall
    exact hstage hother
  · rw [stage?_moveTo_ne u (Ne.symm hplace), hsame] at hfound
    exact h other found (howner other hplace hother) hfound

theorem performs_moveTo_self {s u : Session} {place : Nat} {old stage : Stage}
    (hold : s.stage? place = some old) (hsame : u.stage? = s.stage?) (hleft : 0 < stage.stepsLeft) :
    (u.moveTo place stage).Performs place :=
  ⟨stage, stage?_moveTo_self (hsame ▸ hold) stage, hleft⟩

theorem performs_moveTo_ne {s u : Session} {place other : Nat} (h : s.Performs other)
    (hsame : u.stage? = s.stage?) (hother : place ≠ other) (stage : Stage) :
    (u.moveTo place stage).Performs other := by
  obtain ⟨found, hfound, hleft⟩ := h
  exact ⟨found, by rw [stage?_moveTo_ne u hother, hsame, hfound], hleft⟩

theorem IdleBut.call {s : Session} {owner : Option Nat} (h : s.IdleBut owner) (job : Job)
    (limit : Option Span) : (s.call job limit).IdleBut owner := by
  intro place stage hother hstage
  rw [stage?_call] at hstage
  split at hstage
  · cases hstage
    rfl
  · exact h place stage hother hstage

theorem Performs.call {s : Session} {place : Nat} (h : s.Performs place) (job : Job)
    (limit : Option Span) : (s.call job limit).Performs place := by
  obtain ⟨stage, hstage, hleft⟩ := h
  refine ⟨stage, ?_, hleft⟩
  obtain ⟨call, hcall, -⟩ := Option.map_eq_some_iff.mp hstage
  obtain ⟨hlt, -⟩ := List.getElem?_eq_some_iff.mp hcall
  rw [stage?_call, if_neg (Nat.ne_of_lt hlt), hstage]

/-- Only the handshake has waits that it may give up. -/
theorem one_lt_stepsLeft_of_waitOver {s : Session} {stage : Stage} {wait : HandshakeError}
    (h : s.waitOver stage = some wait) : 1 < stage.stepsLeft := by
  unfold waitOver at h
  split at h
  · simp [Stage.stepsLeft]
  · simp [Stage.stepsLeft, Exchange.stepsLeft]
  · simp [Stage.stepsLeft, Exchange.stepsLeft]
  · cases h

theorem Leads.settled {s u : Session} {place : Nat} {call : Call} {old stage : Stage}
    (h : Leads s place call old u stage) (hsettled : s.phase.isSettled) : u.phase.isSettled := by
  cases h with
  | claim hfirst =>
      rw [hfirst] at hsettled
      cases hsettled
  | refused | lost => rwa [phase_cancel]
  | land _ hphase => exact hphase
  | close =>
      rw [phase_closePart]
      split
      · rfl
      · exact hsettled
  | _ => exact hsettled

/-- A handshake that has ended does not begin again. -/
theorem Change.settled {s t : Session} {action : Action} (h : s.Change action t)
    (hsettled : s.phase.isSettled) : t.phase.isSettled := by
  cases h with
  | moves _ hleads => exact hleads.settled hsettled
  | waitOver | left | called => exact hsettled
  | works h =>
      rcases h.phase with hsame | hclosed | ⟨-, hlater⟩
      · rw [hsame]; exact hsettled
      · rw [hclosed]; rfl
      · exact hlater

theorem Owned.of_settled {t : Session} {deserted : Prop} (h : t.phase.isSettled) :
    t.Owned deserted := by
  unfold Owned
  split
  · next hphase => rw [hphase] at h; cases h
  · next hphase => rw [hphase] at h; cases h
  all_goals trivial

/-- While all calls are idle the handshake waits for somebody to claim it, or for ever. -/
theorem Change.idle {s t : Session} {action : Action} (h : s.Change action t)
    (hidle : s.IdleBut none) (hphase : ¬ s.phase.isSettled) :
    t.phase.isSettled ∨ t.phase = s.phase ∧ t.IdleBut none ∨
      s.phase = .uninitialized ∧ t.phase = .connecting ∧
        ∃ owner, t.Performs owner ∧ t.IdleBut (some owner) := by
  have hold {place : Nat} {call : Call} (hcall : s.calls[place]? = some call) :
      s.stage? place = some call.stage := stage?_of_calls hcall
  cases h with
  | @moves place call u stage hcall hleads =>
      have hsame := hleads.stage?_eq hcall
      have hcallIdle := hidle place call.stage (by simp) (hold hcall)
      rcases hleads.idle hcallIdle hphase with ⟨hkept, hstage⟩ | ⟨hfirst, hnext, hleft⟩
      · exact .inr (.inl ⟨hkept, hidle.moveTo hsame (fun _ _ => id) fun _ => hstage⟩)
      · refine .inr (.inr ⟨hfirst, hnext, place, performs_moveTo_self (hold hcall) hsame hleft, ?_⟩)
        exact hidle.moveTo hsame (fun _ _ _ => by simp) fun hne => absurd rfl hne
  | waitOver hstage hwait =>
      have hleft := one_lt_stepsLeft_of_waitOver hwait
      rw [Stage.stepsLeft_of_isIdle (hidle _ _ (by simp) hstage)] at hleft
      cases hleft
  | left _ _ hstage =>
      refine .inr (.inl ⟨rfl, hidle.moveTo rfl (fun _ _ => id) ?_⟩)
      intro _
      rcases hstage with rfl | ⟨result, rfl⟩ <;> rfl
  | called job limit => exact .inr (.inl ⟨rfl, hidle.call job limit⟩)
  | works h =>
      rcases h.phase with hkept | hclosed | ⟨-, hlater⟩
      · exact .inr (.inl ⟨hkept, fun place stage => h.stage?_eq ▸ hidle place stage⟩)
      · exact .inl (by rw [hclosed]; rfl)
      · exact .inl hlater

/-- Any action leaves the handshake to the call that performs it, deserts it or ends it. -/
theorem Change.performed {s t : Session} {action : Action} {owner : Nat} (h : s.Change action t)
    (howner : s.Performs owner) (hidle : s.IdleBut (some owner)) (hphase : s.phase = .connecting) :
    t.phase.isSettled ∨ t.phase = .connecting ∧
      (¬ s.Deserts action ∧ t.Performs owner ∧ t.IdleBut (some owner) ∨
        s.Deserts action ∧ t.IdleBut none) := by
  have hold {place : Nat} {call : Call} (hcall : s.calls[place]? = some call) :
      s.stage? place = some call.stage := stage?_of_calls hcall
  have hunsettled : ¬ s.phase.isSettled := by rw [hphase]; decide
  -- Only the two actions by which a caller leaves desert anything.
  have hstays {action : Action} (h : ∀ place, action ≠ .abandon place ∧ action ≠ .giveUpCall place) :
      ¬ s.Deserts action := by
    rintro ⟨place, -, heq | heq⟩
    · exact (h place).1 heq
    · exact (h place).2 heq
  cases h with
  | @moves place call u stage hcall hleads =>
      have hsame := hleads.stage?_eq hcall
      by_cases hplace : place = owner
      · subst hplace
        have hleft : 0 < call.stage.stepsLeft := by
          obtain ⟨old, hstage, hleft⟩ := howner
          rw [hold hcall] at hstage
          cases hstage
          exact hleft
        rcases hleads.performs hleft with hsettled | ⟨hkept, hnext, -⟩
        · exact .inl hsettled
        · refine .inr ⟨hkept.trans hphase, .inl ⟨hstays (by simp), ?_, ?_⟩⟩
          · exact performs_moveTo_self (hold hcall) hsame hnext
          · exact hidle.moveTo hsame (fun _ _ => id) fun hne => absurd rfl hne
      · have hcallIdle := hidle place call.stage (by simpa using hplace) (hold hcall)
        rcases hleads.idle hcallIdle hunsettled with ⟨hkept, hstage⟩ | ⟨hfirst, -⟩
        · refine .inr ⟨hkept.trans hphase, .inl ⟨hstays (by simp), ?_, ?_⟩⟩
          · exact performs_moveTo_ne howner hsame hplace stage
          · exact hidle.moveTo hsame (fun _ _ => id) fun _ => hstage
        · rw [hphase] at hfirst
          cases hfirst
  | @waitOver place _ hstage _ hwait err =>
      have hperforms : s.Performs place :=
        ⟨_, hstage, Nat.lt_of_succ_lt (one_lt_stepsLeft_of_waitOver hwait)⟩
      obtain rfl : place = owner := Option.some_inj.mp (hidle.eq_of_performs hperforms)
      refine .inr ⟨hphase, .inl ⟨hstays (by simp), ?_, ?_⟩⟩
      · exact performs_moveTo_self hstage rfl (by simp [Stage.stepsLeft])
      · exact hidle.moveTo rfl (fun _ _ => id) fun hne => absurd rfl hne
  | @left place _ haction old stage hstage hover =>
      have hstageIdle : stage.isIdle := by rcases hover with rfl | ⟨result, rfl⟩ <;> rfl
      refine .inr ⟨hphase, ?_⟩
      by_cases hplace : place = owner
      · subst hplace
        refine .inr ⟨⟨place, howner, haction⟩, hidle.moveTo rfl ?_ fun _ => hstageIdle⟩
        intro other hother _
        simpa using hother
      · refine .inl ⟨?_, performs_moveTo_ne howner rfl hplace stage,
          hidle.moveTo rfl (fun _ _ => id) fun _ => hstageIdle⟩
        rintro ⟨other, hother, heq⟩
        obtain rfl : other = owner := Option.some_inj.mp (hidle.eq_of_performs hother)
        rcases haction with rfl | rfl <;> rcases heq with heq | heq <;> cases heq <;>
          exact hplace rfl
  | called job limit =>
      exact .inr ⟨hphase, .inl ⟨hstays (by simp), howner.call job limit, hidle.call job limit⟩⟩
  | works h =>
      rcases h.phase with hkept | hclosed | ⟨hsettled, -⟩
      · refine .inr ⟨hkept.trans hphase, .inl ⟨hstays ?_, ?_, ?_⟩⟩
        · intro place
          constructor <;> rintro rfl <;> cases h.place?_eq_none
        · obtain ⟨stage, hfound, hleft⟩ := howner
          exact ⟨stage, h.stage?_eq ▸ hfound, hleft⟩
        · intro place stage
          exact h.stage?_eq ▸ hidle place stage
      · exact .inl (by rw [hclosed]; rfl)
      · exact absurd hsettled hunsettled

theorem Owned.act {s t : Session} {action : Action} {deserted : Prop} (h : s.Owned deserted)
    (hact : s.act action = some t) : t.Owned (deserted ∨ s.Deserts action) := by
  have hchange := change_of_act hact
  unfold Owned at h
  split at h
  · next hphase =>
    obtain ⟨hkept, hidle⟩ := h
    -- Nobody performs what has not begun.
    have hstays : ¬ (deserted ∨ s.Deserts action) := by
      rintro (hdeserted | ⟨place, hplace, -⟩)
      · exact hkept hdeserted
      · cases hidle.eq_of_performs hplace
    rcases hchange.idle hidle (by rw [hphase]; decide) with hsettled | ⟨hsame, hnext⟩ | hclaimed
    · exact .of_settled hsettled
    · rw [Owned, hsame, hphase]
      exact ⟨hstays, hnext⟩
    · obtain ⟨-, hconnecting, howner⟩ := hclaimed
      rw [Owned, hconnecting]
      exact .inl ⟨hstays, howner⟩
  · next hphase =>
    rcases h with ⟨hkept, owner, howner, hidle⟩ | ⟨hdeserted, hidle⟩
    · rcases hchange.performed howner hidle hphase with hsettled | ⟨hconnecting, hnext⟩
      · exact .of_settled hsettled
      · rw [Owned, hconnecting]
        rcases hnext with ⟨hstays, hperforms, hothers⟩ | ⟨hdeserts, hall⟩
        · exact .inl ⟨not_or.mpr ⟨hkept, hstays⟩, owner, hperforms, hothers⟩
        · exact .inr ⟨.inr hdeserts, hall⟩
    · rcases hchange.idle hidle (by rw [hphase]; decide) with hsettled | ⟨hsame, hnext⟩ | hclaimed
      · exact .of_settled hsettled
      · rw [Owned, hsame, hphase]
        exact .inr ⟨.inl hdeserted, hnext⟩
      · rw [hphase] at hclaimed
        cases hclaimed.1
  all_goals next hphase => exact .of_settled (hchange.settled (by rw [hphase]; rfl))

theorem owned_of_run {options : SessionOptions} {steps : List (Session × Action)} {s : Session}
    (h : Run (.new options) steps s) : s.Owned (∃ step ∈ steps, step.1.Deserts step.2) := by
  induction h with
  | start =>
      have hnone : ¬ ∃ step ∈ ([] : List (Session × Action)), step.1.Deserts step.2 := by simp
      exact ⟨hnone, fun place stage _ hstage => by cases hstage⟩
  | act _ _ hact ih =>
      have hnext := ih.act hact
      simpa only [List.mem_append, List.mem_singleton, or_and_right, exists_or, exists_eq_left]
        using hnext

/-! ## The end of the handshake -/

/-- Each step of the call that performs the handshake uses up one of those it has left. -/
theorem Change.stepsLeft {s t : Session} {action : Action} {owner : Nat} {stage : Stage}
    (h : s.Change action t) (hstage : s.stage? owner = some stage) (hleft : 0 < stage.stepsLeft)
    (hstays : ¬ s.Deserts action) :
    t.phase.isSettled ∨ ∃ next, t.stage? owner = some next ∧ 0 < next.stepsLeft ∧
      next.stepsLeft + (action.isStepOf owner).toNat ≤ stage.stepsLeft := by
  cases h with
  | @moves place call u next hcall hleads =>
      have hsame := hleads.stage?_eq hcall
      by_cases hplace : place = owner
      · subst hplace
        rw [stage?, hcall] at hstage
        cases hstage
        rcases hleads.performs hleft with hsettled | ⟨-, hnext, hless⟩
        · exact .inl hsettled
        · have hfound := (congrFun hsame place).trans (stage?_of_calls hcall)
          refine .inr ⟨next, stage?_moveTo_self hfound next, hnext, ?_⟩
          simp only [Action.isStepOf, beq_self_eq_true, Bool.toNat_true]
          omega
      · refine .inr ⟨stage, by rw [stage?_moveTo_ne u hplace, hsame, hstage], hleft, ?_⟩
        rw [Action.isStepOf, beq_eq_false_iff_ne.mpr hplace]
        exact Nat.le_refl _
  | @waitOver place old hold wait hwait err =>
      by_cases hplace : place = owner
      · subst hplace
        rw [hstage] at hold
        cases hold
        refine .inr ⟨_, stage?_moveTo_self hstage _, Nat.one_pos, ?_⟩
        have hmore := one_lt_stepsLeft_of_waitOver hwait
        rw [Action.isStepOf, beq_self_eq_true]
        exact hmore
      · refine .inr ⟨stage, by rw [Session.fail, stage?_moveTo_ne s hplace, hstage], hleft, ?_⟩
        rw [Action.isStepOf, beq_eq_false_iff_ne.mpr hplace]
        exact Nat.le_refl _
  | @left place _ haction old next hold _ =>
      have hplace : place ≠ owner := by
        rintro rfl
        exact hstays ⟨place, ⟨stage, hstage, hleft⟩, haction⟩
      refine .inr ⟨stage, by rw [stage?_moveTo_ne s hplace, hstage], hleft, ?_⟩
      rcases haction with rfl | rfl <;> exact Nat.le_refl _
  | called job limit =>
      obtain ⟨_, hsame, -⟩ := Performs.call ⟨stage, hstage, hleft⟩ job limit
      refine .inr ⟨stage, ?_, hleft, Nat.le_refl _⟩
      rw [stage?_call] at hsame ⊢
      split at hsame
      · next hnew =>
        rw [hnew, stage?, List.getElem?_eq_none (Nat.le_refl _)] at hstage
        cases hstage
      · next hnew => rw [if_neg hnew, hstage]
  | works h =>
      refine .inr ⟨stage, by rw [h.stage?_eq, hstage], hleft, ?_⟩
      have hother : action.isStepOf owner = false := by
        have hplace := h.place?_eq_none
        unfold Action.isStepOf
        split
        · cases hplace
        · cases hplace
        · rfl
      rw [hother]
      exact Nat.le_refl _

/-- A call that performs the handshake can go on, or waits for no longer than until a moment. -/
theorem Performs.enabled {s : Session} {place : Nat} (h : s.Performs place) :
    (s.act (.move (.call place))).isSome ∨ ∃ deadline, s.WaitsUntil place deadline ∧
      (deadline ≤ s.clock → (s.act (.giveUpWait place)).isSome) := by
  obtain ⟨stage, hstage, hleft⟩ := h
  obtain ⟨call, hcall, rfl⟩ := Option.map_eq_some_iff.mp hstage
  show (s.moveCall place).isSome ∨ ∃ deadline, s.WaitsUntil place deadline ∧
    (deadline ≤ s.clock → (s.giveUpWait place).isSome)
  simp only [moveCall, giveUpWait, hcall, Option.bind_eq_bind, Option.bind_some]
  cases hat : call.stage with
  | connect deadline =>
      cases htransport : s.transport with
      | pending =>
          refine .inr ⟨deadline, ⟨call, hcall, .inl ⟨hat, htransport⟩⟩, ?_⟩
          intro hlate
          simp [waitOver, hlate]
      | ready | refused => exact .inl rfl
  | await exchange stream =>
      cases hinbox : call.inbox with
      | some result => exact .inl rfl
      | none =>
          rw [hat] at hleft
          cases exchange with
          | query => exact absurd hleft (Nat.lt_irrefl 0)
          | startup deadline =>
              refine .inr ⟨deadline, ⟨call, hcall, .inr ⟨_, _, hat, hinbox, .inl rfl⟩⟩, ?_⟩
              intro hlate
              simp [waitOver, hlate]
          | use deadline =>
              refine .inr ⟨deadline, ⟨call, hcall, .inr ⟨_, _, hat, hinbox, .inr rfl⟩⟩, ?_⟩
              intro hlate
              simp [waitOver, hlate]
  | check =>
      left
      dsimp only
      split <;> rfl
  | openOutbox | startWorkers | recordWorkers | register | enqueue | land | close => exact .inl rfl
  | begin | settle | claim | done | dropped =>
      rw [hat] at hleft
      exact absurd hleft (Nat.lt_irrefl 0)

/-- As long as nobody deserts it, the handshake ends or gets nearer to its end with every step of
the call that performs it. -/
theorem Run.performs {s t : Session} {later : List (Session × Action)} {owner : Nat} {stage : Stage}
    (h : Run s later t) (hphase : s.phase = .connecting) (hstage : s.stage? owner = some stage)
    (hleft : 0 < stage.stepsLeft) (hidle : s.IdleBut (some owner))
    (hstays : ∀ step ∈ later, ¬ step.1.Deserts step.2) :
    t.phase.isSettled ∨ t.phase = .connecting ∧ t.IdleBut (some owner) ∧
      ∃ next, t.stage? owner = some next ∧ 0 < next.stepsLeft ∧
        next.stepsLeft + later.countP (·.2.isStepOf owner) ≤ stage.stepsLeft := by
  induction h with
  | start => exact .inr ⟨hphase, hidle, stage, hstage, hleft, Nat.le_refl _⟩
  | @act steps t u action _ hact ih =>
      simp only [List.mem_append, List.mem_singleton] at hstays
      have hlast : ¬ t.Deserts action := hstays (t, action) (.inr rfl)
      have hchange := change_of_act hact
      rcases ih fun step hstep => hstays step (.inl hstep) with hsettled | hunder
      · exact .inl (hchange.settled hsettled)
      · obtain ⟨hconnecting, hothers, next, hnext, hmore, hcount⟩ := hunder
        rcases hchange.performed ⟨next, hnext, hmore⟩ hothers hconnecting with hsettled | hgoes
        · exact .inl hsettled
        · obtain ⟨hlater, ⟨-, -, hstill⟩ | ⟨hdeserts, -⟩⟩ := hgoes
          · rcases hchange.stepsLeft hnext hmore hlast with hsettled | ⟨last, hat, hpos, hless⟩
            · exact .inl hsettled
            · refine .inr ⟨hlater, hstill, last, hat, hpos, ?_⟩
              rw [List.countP_append, List.countP_singleton]
              cases hstep : action.isStepOf owner <;> simp_all <;> omega
          · exact absurd hdeserts hlast

/-- While a session is connecting, some call performs the handshake if and only if no caller has
deserted it so far. Whoever performs it can go on as soon as what it waits for has come, or its
deadline; and in whatever follows, unless it is deserted, it has ended after thirteen of its steps. -/
theorem connecting_performed_iff {options : SessionOptions} {steps : List (Session × Action)}
    {s : Session} (hrun : Run (.new options) steps s) (hphase : s.phase = .connecting) :
    ((∃ place, s.Performs place) ↔ ∀ step ∈ steps, ¬ step.1.Deserts step.2) ∧
      ∀ place, s.Performs place →
        ((s.act (.move (.call place))).isSome ∨ ∃ deadline, s.WaitsUntil place deadline ∧
          (deadline ≤ s.clock → (s.act (.giveUpWait place)).isSome)) ∧
        ∀ later t, Run s later t → (∀ step ∈ later, ¬ step.1.Deserts step.2) →
          t.phase.isSettled ∨ t.phase = .connecting ∧ t.Performs place ∧
            later.countP (·.2.isStepOf place) < 14 := by
  have howned := owned_of_run hrun
  rw [Owned, hphase] at howned
  refine ⟨⟨fun ⟨place, hplace⟩ => ?_, ?_⟩, ?_⟩
  · rcases howned with ⟨hstays, -⟩ | ⟨-, hidle⟩
    · intro step hstep hdeserts
      exact hstays ⟨step, hstep, hdeserts⟩
    · cases hidle.eq_of_performs hplace
  · intro hstays
    rcases howned with ⟨-, owner, howner, -⟩ | ⟨⟨step, hstep, hdeserts⟩, -⟩
    · exact ⟨owner, howner⟩
    · exact absurd hdeserts (hstays step hstep)
  · intro place hplace
    refine ⟨hplace.enabled, ?_⟩
    intro later t hlater hstays
    rcases howned with ⟨-, owner, -, hidle⟩ | ⟨-, hidle⟩
    · obtain rfl : place = owner := Option.some_inj.mp (hidle.eq_of_performs hplace)
      obtain ⟨stage, hstage, hleft⟩ := hplace
      rcases hlater.performs hphase hstage hleft hidle hstays with hsettled | hunder
      · exact .inl hsettled
      · obtain ⟨hconnecting, -, next, hnext, hmore, hcount⟩ := hunder
        have hbound := stage.stepsLeft_le
        exact .inr ⟨hconnecting, ⟨next, hnext, hmore⟩, by omega⟩
    · cases hidle.eq_of_performs hplace

/-- An opening that has claimed the handshake performs it. -/
theorem connecting_performed_of_opening :
    ∃ steps s, Run (.new (.standard ⟨"node", 9042⟩ "")) steps s ∧
      steps.map Prod.snd = [.call .opening none, .move (.call 0), .move (.call 0),
        .move (.call 0)] ∧
      s.phase = .connecting ∧ ∃ place, s.Performs place := by
  have hrun := Run.act (.move (.call 0)) (.act (.move (.call 0)) (.act (.move (.call 0))
    (.act (.call .opening none) (.start (s := .new (.standard ⟨"node", 9042⟩ ""))) rfl) rfl) rfl) rfl
  refine ⟨_, _, hrun, rfl, rfl, (connecting_performed_iff hrun rfl).1.mpr ?_⟩
  rintro step hstep ⟨place, -, hleaves⟩
  simp only [List.nil_append, List.cons_append, List.mem_cons, List.not_mem_nil, or_false] at hstep
  rcases hstep with rfl | rfl | rfl | rfl <;> rcases hleaves with heq | heq <;> cases heq

/-- A query that has claimed the handshake and loses its patience a second later leaves the session
connecting, with nobody to perform the handshake. -/
theorem connecting_unperformed_of_giveUpCall :
    ∃ steps s, Run (.new (.standard ⟨"node", 9042⟩ "")) steps s ∧
      steps.map Prod.snd = [.call (.query (.ok ⟨"SELECT 1", .quorum, []⟩)) (some (.ofMillis 1000)),
        .move (.call 0), .move (.call 0), .move (.call 0), .wait (.ofMillis 1000),
        .giveUpCall 0] ∧
      s.phase = .connecting ∧ ∀ place, ¬ s.Performs place := by
  have hclaims := Run.act (.move (.call 0)) (.act (.move (.call 0)) (.act (.move (.call 0))
    (.act (.call (.query (.ok ⟨"SELECT 1", .quorum, []⟩)) (some (.ofMillis 1000)))
      (.start (s := .new (.standard ⟨"node", 9042⟩ ""))) rfl) rfl) rfl) rfl
  have hrun := Run.act (.giveUpCall 0) (.act (.wait (.ofMillis 1000)) hclaims rfl) rfl
  refine ⟨_, _, hrun, rfl, rfl, ?_⟩
  rintro place ⟨stage, hstage, hleft⟩
  cases place with
  | zero =>
      cases hstage
      exact Nat.lt_irrefl 0 hleft
  | succ place => cases hstage

end Session

end CqlClient
