import CqlClient.Proofs.Session.Conversation

/-!
Every answer reaches the call that asked. A stream has a waiter from the moment that it is given to
a call until its answer has been read, even if the call waits no longer, so no two requests whose
answers are to come have the same stream. Only a session that is deaf lets go of its waiters.
-/

namespace CqlClient.Session

/-- The table agrees with the ledger. -/
structure Intact (s : Session) (ledger : Ledger) : Prop where
  waits : ∀ (place : Nat) (call : Call) (stream : Int16), s.calls[place]? = some call →
    call.stage.stream? = some stream → call.inbox = none → s.inFlight.get? stream = some place
  /-- A call that has not queued its request has been handed nothing, and its stream is free. -/
  fresh : ∀ (place : Nat) (call : Call) (exchange : Exchange) (stream : Int16),
    s.calls[place]? = some call →
      call.stage = .check exchange stream ∨ call.stage = .enqueue exchange stream →
        call.inbox = none ∧ ∀ n asked, ledger.Outstanding n asked → asked.stream ≠ stream
  awaits : ∀ (place : Nat) (call : Call) (exchange : Exchange) (stream : Int16),
    s.calls[place]? = some call → call.stage = .await exchange stream → call.inbox = none →
      ∃ n, ledger.Latest n ⟨place, exchange, stream⟩ ∧ n ∉ ledger.read.map Prod.fst
  /-- A waiter either waits or waits no longer; it does nothing else in the meantime. -/
  held : ∀ stream place, s.inFlight.get? stream = some place → ∃ call, s.calls[place]? = some call ∧
    (call.stage.stream? = some stream ∧ call.inbox = none ∨ call.stage.isOver)
  outstanding : ∀ n asked, ledger.Outstanding n asked →
    s.inFlight.get? asked.stream = some asked.place
  distinct : ∀ n m asked other, ledger.Outstanding n asked → ledger.Outstanding m other →
    asked.stream = other.stream → n = m

theorem intact_new (options : SessionOptions) : Intact (.new options) .empty where
  waits := fun _ _ _ hcall => by cases hcall
  fresh := fun _ _ _ _ hcall => by cases hcall
  awaits := fun _ _ _ _ hcall => by cases hcall
  held := by
    intro stream place hheld
    rw [Session.new, InFlight.get?_empty] at hheld
    cases hheld
  outstanding := fun _ _ houtstanding => by cases houtstanding.1
  distinct := fun _ _ _ _ houtstanding => by cases houtstanding.1

theorem Intact.of_same {s t : Session} {ledger later : Ledger} (h : Intact s ledger)
    (hcalls : t.calls = s.calls) (hinFlight : t.inFlight = s.inFlight)
    (hasked : later.asked = ledger.asked) (hread : later.read = ledger.read) : Intact t later := by
  have hlatest : later.Latest = ledger.Latest := by
    funext n asked
    rw [Ledger.Latest, Ledger.Latest, hasked]
  have houtstanding : later.Outstanding = ledger.Outstanding := by
    funext n asked
    rw [Ledger.Outstanding, Ledger.Outstanding, hasked, hread]
  constructor
  case waits =>
    rw [hcalls, hinFlight]
    exact h.waits
  case fresh =>
    rw [hcalls, houtstanding]
    exact h.fresh
  case awaits =>
    rw [hcalls, hlatest, hread]
    exact h.awaits
  case held =>
    rw [hcalls, hinFlight]
    exact h.held
  case outstanding =>
    rw [houtstanding, hinFlight]
    exact h.outstanding
  case distinct =>
    rw [houtstanding]
    exact h.distinct

/-- A call leaves its stream, or goes on without one. It takes no stream out of the table but its
own, and this only if no answer is to come on it. -/
theorem Intact.leave {s t : Session} {ledger : Ledger} {place : Nat} {call : Call}
    (h : Intact s ledger)
    (htable : ∀ stream, t.inFlight.get? stream = s.inFlight.get? stream ∨
      t.inFlight.get? stream = none ∧ s.inFlight.get? stream = some place ∧
        ∀ n asked, ledger.Outstanding n asked → asked.stream ≠ stream)
    (hothers : ∀ other, other ≠ place → t.calls[other]? = s.calls[other]?)
    (hcall : t.calls[place]? = some call) (hstage : call.stage.stream? = none)
    (hheld : call.stage.isOver ∨ ∀ stream, s.inFlight.get? stream ≠ some place) :
    Intact t ledger where
  waits := by
    intro other found stream hfound hstream hinbox
    by_cases hplace : other = place
    · subst hplace
      cases hcall.symm.trans hfound
      cases hstage.symm.trans hstream
    · rw [hothers other hplace] at hfound
      have hwaits := h.waits other found stream hfound hstream hinbox
      rcases htable stream with hsame | ⟨-, hown, -⟩
      · rw [hsame, hwaits]
      · exact absurd (Option.some_inj.mp (hwaits.symm.trans hown)) hplace
  fresh := by
    intro other found exchange stream hfound hfresh
    by_cases hplace : other = place
    · subst hplace
      cases hcall.symm.trans hfound
      rcases hfresh with heq | heq <;> rw [heq] at hstage <;> cases hstage
    · rw [hothers other hplace] at hfound
      exact h.fresh other found exchange stream hfound hfresh
  awaits := by
    intro other found exchange stream hfound hawait hinbox
    by_cases hplace : other = place
    · subst hplace
      cases hcall.symm.trans hfound
      rw [hawait] at hstage
      cases hstage
    · rw [hothers other hplace] at hfound
      exact h.awaits other found exchange stream hfound hawait hinbox
  held := by
    intro stream other hother
    rcases htable stream with hsame | ⟨hnone, -⟩
    · rw [hsame] at hother
      by_cases hplace : other = place
      · subst hplace
        rcases hheld with hover | hnever
        · exact ⟨call, hcall, .inr hover⟩
        · exact absurd hother (hnever stream)
      · rw [hothers other hplace]
        exact h.held stream other hother
    · cases hnone.symm.trans hother
  outstanding := by
    intro n asked houtstanding
    rcases htable asked.stream with hsame | ⟨-, -, hfree⟩
    · rw [hsame, h.outstanding n asked houtstanding]
    · exact absurd rfl (hfree n asked houtstanding)
  distinct := h.distinct

/-- A call that has no other stream is about to ask on a stream on which no answer is to come. -/
theorem Intact.prepare {s t : Session} {ledger : Ledger} {place : Nat} {call : Call}
    {exchange : Exchange} {stream : Int16} (h : Intact s ledger)
    (htable : ∀ other, t.inFlight.get? other =
      if other = stream then some place else s.inFlight.get? other)
    (hothers : ∀ other, other ≠ place → t.calls[other]? = s.calls[other]?)
    (hcall : t.calls[place]? = some call) (hinbox : call.inbox = none)
    (hstage : call.stage = .check exchange stream ∨ call.stage = .enqueue exchange stream)
    (hfree : ∀ n asked, ledger.Outstanding n asked → asked.stream ≠ stream)
    (hholder : ∀ other, s.inFlight.get? stream = some other → other = place)
    (hheld : ∀ other, s.inFlight.get? other = some place → other = stream) : Intact t ledger where
  waits := by
    intro other found stream' hfound hstream hnone
    rw [htable]
    by_cases hplace : other = place
    · subst hplace
      cases hcall.symm.trans hfound
      rw [if_pos]
      rcases hstage with heq | heq <;> rw [heq] at hstream <;> cases hstream <;> rfl
    · rw [hothers other hplace] at hfound
      have hwaits := h.waits other found stream' hfound hstream hnone
      split
      · next heq =>
        subst heq
        exact absurd (hholder other hwaits) hplace
      · exact hwaits
  fresh := by
    intro other found exchange' stream' hfound hfresh
    by_cases hplace : other = place
    · subst hplace
      cases hcall.symm.trans hfound
      refine ⟨hinbox, ?_⟩
      rcases hstage with heq | heq <;> rcases hfresh with heq' | heq' <;>
        cases heq.symm.trans heq' <;> exact hfree
    · rw [hothers other hplace] at hfound
      exact h.fresh other found exchange' stream' hfound hfresh
  awaits := by
    intro other found exchange' stream' hfound hawait hnone
    by_cases hplace : other = place
    · subst hplace
      cases hcall.symm.trans hfound
      rcases hstage with heq | heq <;> cases heq.symm.trans hawait
    · rw [hothers other hplace] at hfound
      exact h.awaits other found exchange' stream' hfound hawait hnone
  held := by
    intro stream' other hother
    rw [htable] at hother
    split at hother
    · next heq =>
      subst heq
      cases hother
      refine ⟨call, hcall, .inl ⟨?_, hinbox⟩⟩
      rcases hstage with heq | heq <;> rw [heq] <;> rfl
    · next hne =>
      have hplace : other ≠ place := by
        rintro rfl
        exact hne (hheld stream' hother)
      rw [hothers other hplace]
      exact h.held stream' other hother
  outstanding := by
    intro n asked houtstanding
    rw [htable, if_neg (hfree n asked houtstanding)]
    exact h.outstanding n asked houtstanding
  distinct := h.distinct

/-- The call queues its request, and waits. -/
theorem Intact.ask {s t : Session} {ledger : Ledger} {place : Nat} {call : Call}
    {exchange : Exchange} {stream : Int16} (h : Intact s ledger)
    (hread : ∀ n ∈ ledger.read.map Prod.fst, n < ledger.asked.length)
    (hinFlight : t.inFlight = s.inFlight)
    (hothers : ∀ other, other ≠ place → t.calls[other]? = s.calls[other]?)
    (hcall : s.calls[place]? = some call) (hstage : call.stage = .enqueue exchange stream)
    (hnext : t.calls[place]? = some { call with stage := .await exchange stream }) :
    Intact t (ledger.ask ⟨place, exchange, stream⟩) := by
  obtain ⟨hinbox, hfree⟩ := h.fresh place call exchange stream hcall (.inr hstage)
  have hwaits := h.waits place call stream hcall (by rw [hstage]; rfl) hinbox
  constructor
  case waits =>
    intro other found stream' hfound hstream hnone
    rw [hinFlight]
    by_cases hplace : other = place
    · subst hplace
      cases hnext.symm.trans hfound
      cases hstream
      exact hwaits
    · rw [hothers other hplace] at hfound
      exact h.waits other found stream' hfound hstream hnone
  case fresh =>
    intro other found exchange' stream' hfound hfresh
    by_cases hplace : other = place
    · subst hplace
      cases hnext.symm.trans hfound
      rcases hfresh with heq | heq <;> cases heq
    · rw [hothers other hplace] at hfound
      obtain ⟨hnone, hfree'⟩ := h.fresh other found exchange' stream' hfound hfresh
      refine ⟨hnone, ?_⟩
      intro n asked houtstanding
      rcases houtstanding.of_ask with hold | ⟨-, rfl⟩
      · exact hfree' n asked hold
      · rintro rfl
        have hstream : found.stage.stream? = some stream := by
          rcases hfresh with heq | heq <;> rw [heq] <;> rfl
        have hother := h.waits other found stream hfound hstream hnone
        exact hplace (Option.some_inj.mp (hother.symm.trans hwaits))
  case awaits =>
    intro other found exchange' stream' hfound hawait hnone
    by_cases hplace : other = place
    · subst hplace
      cases hnext.symm.trans hfound
      cases hawait
      exact ⟨_, Ledger.latest_ask_self .., fun hmem => Nat.lt_irrefl _ (hread _ hmem)⟩
    · rw [hothers other hplace] at hfound
      obtain ⟨n, hlatest, hunread⟩ := h.awaits other found exchange' stream' hfound hawait hnone
      exact ⟨n, hlatest.ask (Ne.symm hplace), hunread⟩
  case held =>
    intro stream' other hother
    rw [hinFlight] at hother
    obtain ⟨found, hfound, hholds⟩ := h.held stream' other hother
    by_cases hplace : other = place
    · subst hplace
      cases hcall.symm.trans hfound
      rw [hstage] at hholds
      rcases hholds with ⟨hstream, -⟩ | hover
      · exact ⟨_, hnext, .inl ⟨hstream, hinbox⟩⟩
      · cases hover
    · exact ⟨found, (hothers other hplace).trans hfound, hholds⟩
  case outstanding =>
    intro n asked houtstanding
    rw [hinFlight]
    rcases houtstanding.of_ask with hold | ⟨-, rfl⟩
    · exact h.outstanding n asked hold
    · exact hwaits
  case distinct =>
    intro n m asked other hasked hother hstream
    rcases hasked.of_ask with hold | ⟨hn, rfl⟩ <;> rcases hother.of_ask with hold' | ⟨hm, rfl⟩
    · exact h.distinct n m asked other hold hold' hstream
    · exact absurd hstream (hfree n asked hold)
    · exact absurd hstream.symm (hfree m other hold')
    · exact hn.trans hm.symm

/-! ## Reading an answer -/

/-- The waiter on the stream of a request whose answer is to come is the call that made the request.
It waits for this very answer, or it waits no longer. -/
theorem Intact.holder {s : Session} {ledger : Ledger} {n : Nat} {asked : Asked}
    (h : Intact s ledger) (houtstanding : ledger.Outstanding n asked) :
    ∃ call, s.calls[asked.place]? = some call ∧
      (call.stage = .await asked.exchange asked.stream ∧ call.inbox = none ∧
        ledger.Latest n asked ∨ call.stage.isOver) := by
  obtain ⟨call, hcall, hholds⟩ := h.held _ _ (h.outstanding n asked houtstanding)
  refine ⟨call, hcall, ?_⟩
  rcases hholds with ⟨hstream, hinbox⟩ | hover
  · left
    cases hstage : call.stage with
    | check exchange stream =>
        obtain ⟨-, hfree⟩ := h.fresh _ call exchange stream hcall (.inl hstage)
        rw [hstage] at hstream
        exact absurd (Option.some_inj.mp hstream).symm (hfree n asked houtstanding)
    | enqueue exchange stream =>
        obtain ⟨-, hfree⟩ := h.fresh _ call exchange stream hcall (.inr hstage)
        rw [hstage] at hstream
        exact absurd (Option.some_inj.mp hstream).symm (hfree n asked houtstanding)
    | await exchange stream =>
        obtain ⟨m, hlatest, hunread⟩ := h.awaits _ call exchange stream hcall hstage hinbox
        rw [hstage] at hstream
        have hsame := h.distinct m n _ asked ⟨hlatest.1, hunread⟩ houtstanding
          (Option.some_inj.mp hstream)
        subst hsame
        have heq := Option.some_inj.mp (hlatest.1.symm.trans houtstanding.1)
        have hexchange : exchange = asked.exchange := congrArg Asked.exchange heq
        have hstream : stream = asked.stream := congrArg Asked.stream heq
        rw [heq] at hlatest
        rw [hexchange, hstream]
        exact ⟨rfl, hinbox, hlatest⟩
    | _ =>
        rw [hstage] at hstream
        cases hstream
  · exact .inr hover

theorem hasStream_eq_false {call : Call} (h : call.stage.isOver) : call.hasStream = false := by
  rw [Call.hasStream_eq, stream?_eq_none h]
  rfl

theorem accept_of_isOver {call : Call} (h : call.stage.isOver) (result : Except ClientError Frame) :
    call.accept result = call := by
  rw [Call.accept, hasStream_eq_false h]
  rfl

theorem accept_of_await {call : Call} {exchange : Exchange} {stream : Int16}
    (hstage : call.stage = .await exchange stream) (hinbox : call.inbox = none)
    (result : Except ClientError Frame) :
    call.accept result = { call with inbox := some result } := by
  simp [Call.accept, Call.hasStream, hstage, hinbox]

/-- A call that its answer has been handed to has it, or has no use for it. -/
theorem accept_handed {call : Call} {exchange : Exchange} {stream : Int16}
    (h : call.stage = .await exchange stream ∧ call.inbox = none ∨ call.stage.isOver)
    (result : Except ClientError Frame) :
    (call.accept result).stage = .await exchange stream ∧ (call.accept result).inbox ≠ none ∨
      (call.accept result).stage.isOver := by
  rcases h with ⟨hawait, hinbox⟩ | hover
  · rw [accept_of_await hawait hinbox]
    exact .inl ⟨hawait, by simp⟩
  · rw [accept_of_isOver hover]
    exact .inr hover

theorem getElem?_hand_cases {s : Session} {place other : Nat} {call found : Call}
    {result : Except ClientError Frame} (hcall : s.calls[place]? = some call)
    (hfound : (s.hand place result).calls[other]? = some found) :
    place = other ∧ found = call.accept result ∨ place ≠ other ∧ s.calls[other]? = some found := by
  rw [getElem?_hand] at hfound
  split at hfound
  · next heq =>
    subst heq
    rw [hcall] at hfound
    exact .inl ⟨rfl, (Option.some_inj.mp hfound).symm⟩
  · next hne => exact .inr ⟨hne, hfound⟩

/-- The answer is handed to the call, and the stream is free. -/
theorem Intact.answer {s : Session} {ledger later : Ledger} {table : InFlight Nat} {n : Nat}
    {asked : Asked} {frame : Frame} (h : Intact s ledger) (hanswered : ledger.Outstanding n asked)
    (htable : ∀ other, table.get? other =
      if other = asked.stream then none else s.inFlight.get? other)
    (hasked : later.asked = ledger.asked) (hread : later.read = ledger.read ++ [(n, frame)]) :
    Intact ({ s with inFlight := table }.hand asked.place (.ok frame)) later := by
  have houtstanding {m : Nat} {other : Asked} (hother : later.Outstanding m other) :
      ledger.Outstanding m other ∧ m ≠ n := by
    obtain ⟨hother, hunread⟩ := hother
    rw [hread, List.map_append, List.mem_append, not_or] at hunread
    exact ⟨⟨hasked ▸ hother, hunread.1⟩, fun heq => hunread.2 (heq ▸ List.mem_singleton_self n)⟩
  obtain ⟨call, hcall, hholds⟩ := h.holder hanswered
  have hhanded := accept_handed (hholds.imp_left fun h => ⟨h.1, h.2.1⟩) (.ok frame)
  have hcalls {other : Nat} {found : Call}
      (hfound : ({ s with inFlight := table }.hand asked.place (.ok frame)).calls[other]? =
        some found) := getElem?_hand_cases hcall hfound
  constructor
  case waits =>
    intro other found stream hfound hstream hinbox
    rcases hcalls hfound with ⟨-, rfl⟩ | ⟨hplace, hold⟩
    · rcases hhanded with ⟨-, hsome⟩ | hover
      · exact absurd hinbox hsome
      · cases (stream?_eq_none hover).symm.trans hstream
    · have hwaits := h.waits other found stream hold hstream hinbox
      have hstream' : stream ≠ asked.stream := by
        rintro rfl
        exact hplace (Option.some_inj.mp ((h.outstanding n asked hanswered).symm.trans hwaits))
      exact (htable stream).trans ((if_neg hstream').trans hwaits)
  case fresh =>
    intro other found exchange stream hfound hfresh
    rcases hcalls hfound with ⟨-, rfl⟩ | ⟨hplace, hold⟩
    · rcases hhanded with ⟨hawait, -⟩ | hover
      · rw [hawait] at hfresh
        rcases hfresh with hstage | hstage <;> cases hstage
      · rcases hfresh with hstage | hstage <;> rw [hstage] at hover <;> cases hover
    · obtain ⟨hnone, hfree⟩ := h.fresh other found exchange stream hold hfresh
      exact ⟨hnone, fun m asked' hother => hfree m asked' (houtstanding hother).1⟩
  case awaits =>
    intro other found exchange stream hfound hawait hinbox
    rcases hcalls hfound with ⟨-, rfl⟩ | ⟨hplace, hold⟩
    · rcases hhanded with ⟨-, hsome⟩ | hover
      · exact absurd hinbox hsome
      · rw [hawait] at hover
        cases hover
    · obtain ⟨m, hlatest, hunread⟩ := h.awaits other found exchange stream hold hawait hinbox
      have hne : m ≠ n := by
        rintro rfl
        exact hplace (congrArg Asked.place (Option.some_inj.mp (hanswered.1.symm.trans hlatest.1)))
      refine ⟨m, hlatest.of_asked hasked, ?_⟩
      rw [hread, List.map_append, List.mem_append, not_or]
      exact ⟨hunread, fun hmem => hne (List.mem_singleton.mp hmem)⟩
  case held =>
    intro stream other hother
    have hother := (htable stream).symm.trans hother
    split at hother
    · cases hother
    · next hstream =>
      obtain ⟨found, hfound, hheld⟩ := h.held stream other hother
      by_cases hplace : asked.place = other
      · subst hplace
        cases hcall.symm.trans hfound
        refine ⟨call.accept (.ok frame), ?_, .inr ?_⟩
        · rw [getElem?_hand, if_pos rfl, hcall]
          rfl
        · rcases hholds with ⟨hawait, -⟩ | hover
          · rw [hawait] at hheld
            rcases hheld with ⟨heq, -⟩ | hover
            · exact absurd (Option.some_inj.mp heq).symm hstream
            · cases hover
          · rw [stage_accept]
            exact hover
      · refine ⟨found, ?_, hheld⟩
        rw [getElem?_hand, if_neg hplace]
        exact hfound
  case outstanding =>
    intro m other hother
    obtain ⟨hold, hne⟩ := houtstanding hother
    have hstream : other.stream ≠ asked.stream := fun heq =>
      hne (h.distinct m n other asked hold hanswered heq)
    exact (htable other.stream).trans ((if_neg hstream).trans (h.outstanding m other hold))
  case distinct =>
    intro m k first second hfirst hsecond hstream
    exact h.distinct m k first second (houtstanding hfirst).1 (houtstanding hsecond).1 hstream

/-! ## The steps of a call -/

theorem Books.lt_of_read {s : Session} {ledger : Ledger} (h : Books s ledger) {n : Nat}
    (hread : n ∈ ledger.read.map Prod.fst) : n < ledger.asked.length := by
  obtain ⟨⟨_, frame⟩, hmem, rfl⟩ := List.mem_map.mp hread
  obtain ⟨asked, hasked, -⟩ := h.read _ frame hmem
  exact (List.getElem?_eq_some_iff.mp hasked).1

/-- A call that is not over and has no stream, or has its answer, is no waiter. -/
theorem Intact.never_held {s : Session} {ledger : Ledger} {place : Nat} {call : Call}
    (h : Intact s ledger) (hcall : s.calls[place]? = some call)
    (hidle : call.stage.stream? = none ∨ call.inbox ≠ none) (hover : ¬ call.stage.isOver)
    (stream : Int16) : s.inFlight.get? stream ≠ some place := by
  intro hheld
  obtain ⟨found, hfound, hholds⟩ := h.held stream place hheld
  cases hcall.symm.trans hfound
  rcases hholds with ⟨hstream, hnone⟩ | hold
  · rcases hidle with hquiet | hsome
    · cases hquiet.symm.trans hstream
    · exact hsome hnone
  · exact hover hold

/-- A call that is over, or is no waiter, goes where it does not wait. -/
theorem Intact.moveTo {s u : Session} {ledger : Ledger} {place : Nat} {call : Call} {stage : Stage}
    (h : Intact s ledger) (hcall : s.calls[place]? = some call) (hinFlight : u.inFlight = s.inFlight)
    (hcalls : u.calls = s.calls) (hstage : stage.stream? = none)
    (hheld : stage.isOver ∨ ∀ stream, s.inFlight.get? stream ≠ some place) :
    Intact (u.moveTo place stage) ledger := by
  have hself := getElem?_moveTo_self (hcalls ▸ hcall) stage
  refine h.leave ?_ ?_ hself hstage hheld
  · intro stream
    exact .inl (congrArg (InFlight.get? · stream) hinFlight)
  · intro other hplace
    rw [getElem?_moveTo_ne u hplace, hcalls]

theorem Intact.moveOver {s u : Session} {ledger : Ledger} {place : Nat} {call : Call}
    {stage : Stage} (h : Intact s ledger) (hcall : s.calls[place]? = some call)
    (hinFlight : u.inFlight = s.inFlight) (hcalls : u.calls = s.calls) (hover : stage.isOver) :
    Intact (u.moveTo place stage) ledger :=
  h.moveTo hcall hinFlight hcalls (stream?_eq_none hover) (.inl hover)

/-- A call that has not queued its request takes its stream out of the table. -/
theorem Intact.cancel {s : Session} {ledger : Ledger} {place : Nat} {call : Call}
    {exchange : Exchange} {stream : Int16} {stage : Stage} (h : Intact s ledger)
    (hcall : s.calls[place]? = some call)
    (hfresh : call.stage = .check exchange stream ∨ call.stage = .enqueue exchange stream)
    (hover : stage.isOver) : Intact ((s.cancel stream).moveTo place stage) ledger := by
  obtain ⟨hinbox, hfree⟩ := h.fresh place call exchange stream hcall hfresh
  have hown : s.inFlight.get? stream = some place := by
    refine h.waits place call stream hcall ?_ hinbox
    rcases hfresh with heq | heq <;> rw [heq] <;> rfl
  unfold Session.cancel
  split
  · next hnone =>
    rw [InFlight.take?_eq_none, hown] at hnone
    cases hnone
  · next holder table htake =>
    obtain ⟨hholder, htable⟩ := InFlight.take?_eq_some htake
    cases hown.symm.trans hholder
    have hself := getElem?_hand { s with inFlight := table } place place (.error .connectionClosed)
    rw [if_pos rfl, hcall] at hself
    refine h.leave (fun other => ?_) (fun other hplace => ?_) (getElem?_moveTo_self hself stage)
      (stream?_eq_none hover) (.inl hover)
    · by_cases hstream : other = stream
      · subst hstream
        exact .inr ⟨(htable other).trans (if_pos rfl), hown, hfree⟩
      · exact .inl ((htable other).trans (if_neg hstream))
    · rw [getElem?_moveTo_ne _ hplace, getElem?_hand, if_neg (Ne.symm hplace)]

/-- The table after a step of a call, if the call does not come to stopping the workers. -/
theorem Intact.leads {s u : Session} {ledger : Ledger} {place : Nat} {call : Call}
    {old stage : Stage} (h : Intact s ledger) (hbooks : Books s ledger)
    (hcall : s.calls[place]? = some call) (hold : call.stage = old)
    (hleads : Leads s place call old u stage)
    (hclosing : ∀ part reason result, old = .close part reason result →
      part = .latch ∨ part = .dropOutbox) :
    Intact (u.moveTo place stage) (ledger.record s (.move (.call place))) := by
  have hstage : s.stage? place = some old := hold ▸ stage?_of_calls hcall
  have hrecord (hother : ∀ exchange stream, old ≠ .enqueue exchange stream) :
      ledger.record s (.move (.call place)) = ledger := Ledger.record_call hcall (hold ▸ hother)
  have hidle (hstream : old.stream? = none) (hover : ¬ old.isOver) :
      ∀ stream, s.inFlight.get? stream ≠ some place := by
    rw [← hold] at hstream hover
    exact h.never_held hcall (.inl hstream) hover
  cases hleads with
  | begin =>
      rw [hrecord (by simp)]
      exact h.moveTo hcall rfl rfl (stream?_firstStage ..)
        (.inr (hidle rfl (by simp [Stage.isOver])))
  | settle hsettled =>
      rw [hrecord (by simp)]
      exact h.moveTo hcall rfl rfl (stream?_settled hsettled)
        (.inr (hidle rfl (by simp [Stage.isOver])))
  | @register exchange stream table hregister =>
      rw [hrecord (by simp)]
      obtain ⟨hnone, -, htable⟩ := InFlight.register_eq_some hregister
      have hinbox : call.inbox = none := by
        apply (hbooks.calls place call hcall).inbox_eq_none
        · rw [hold]
          rfl
        · simp [hold, Stage.isOver]
      refine h.prepare htable (fun other hplace => getElem?_moveTo_ne _ hplace _)
        (getElem?_moveTo_self hcall _) hinbox (.inl rfl) ?_ ?_ ?_
      · rintro n asked houtstanding rfl
        cases hnone.symm.trans (h.outstanding n asked houtstanding)
      · intro other hother
        cases hnone.symm.trans hother
      · intro other hother
        exact absurd hother (hidle rfl (by simp [Stage.isOver]) other)
  | exhausted _ hover =>
      rw [hrecord (by simp)]
      exact h.moveOver hcall rfl rfl hover
  | check _ exchange stream =>
      rw [hrecord (by simp)]
      obtain ⟨hinbox, hfree⟩ := h.fresh place call exchange stream hcall (.inl hold)
      have hown := h.waits place call stream hcall (by rw [hold]; rfl) hinbox
      refine h.prepare (fun other => ?_) (fun other hplace => getElem?_moveTo_ne s hplace _)
        (getElem?_moveTo_self hcall _) hinbox (.inr rfl) hfree ?_ ?_
      · split
        · next heq => exact (congrArg s.inFlight.get? heq).trans hown
        · rfl
      · intro other hother
        exact Option.some_inj.mp (hother.symm.trans hown)
      · intro other hother
        obtain ⟨found, hfound, hholds⟩ := h.held other place hother
        cases hcall.symm.trans hfound
        rw [hold] at hholds
        rcases hholds with ⟨hstream, -⟩ | hover
        · exact (Option.some_inj.mp hstream).symm
        · cases hover
  | refused stream _ hover =>
      rw [hrecord (by simp)]
      exact h.cancel hcall (.inl hold) hover
  | enqueue hopen exchange stream =>
      rw [Ledger.record_enqueue hstage hopen]
      exact h.ask (fun n hn => hbooks.lt_of_read hn) rfl
        (fun other hplace => getElem?_moveTo_ne _ hplace _) hcall hold (getElem?_moveTo_self hcall _)
  | lost hgone stream _ hover =>
      rw [Ledger.record_lost hstage fun _ _ _ => hgone]
      exact h.cancel hcall (.inr hold) hover
  | await hinbox stream strikes hto =>
      rw [hrecord (by simp)]
      have hlt : place < s.calls.length := (List.getElem?_eq_some_iff.mp hcall).1
      refine h.leave (fun _ => .inl rfl) (fun other hplace => ?_)
        (getElem?_moveTo_self (List.getElem?_set_self hlt) stage) (stream?_leadsTo hto) (.inr ?_)
      · rw [getElem?_moveTo_ne _ hplace, List.getElem?_set_ne (Ne.symm hplace)]
      · exact h.never_held hcall (.inr (by simp [hinbox])) (by simp [hold, Stage.isOver])
  | close part reason result =>
      rw [hrecord (by simp)]
      rcases hclosing part reason result rfl with rfl | rfl <;>
        exact h.moveOver hcall rfl rfl rfl
  | _ =>
      rw [hrecord (by simp)]
      exact h.moveTo hcall rfl rfl rfl (.inr (hidle rfl (by simp [Stage.isOver])))

/-! ## What the reader reads -/

/-- A frame that comes first is an event or the answer to a request whose answer is to come. -/
theorem Books.first {s : Session} {ledger : Ledger} {frame : Frame}
    {rest : List (Except ProtocolError Frame)} (h : Books s ledger)
    (harrivals : s.arrivals = .ok frame :: rest) :
    (∃ later, ledger.unread = (none, .ok frame) :: later ∧ frame.stream = Frame.eventStream) ∨
      ∃ n asked later, ledger.unread = (some n, .ok frame) :: later ∧
        ledger.Outstanding n asked ∧ frame.stream = asked.stream := by
  rw [h.arrivals] at harrivals
  obtain ⟨⟨tag, arrival⟩, later, hunread, rfl, -⟩ := List.map_eq_cons_iff.mp harrivals
  cases tag with
  | none =>
      left
      exact ⟨later, hunread, h.events frame (hunread ▸ List.mem_cons_self)⟩
  | some n =>
      right
      obtain ⟨found, heq, asked, hasked, hstream⟩ := h.unread n _ (hunread ▸ List.mem_cons_self)
      cases heq
      refine ⟨n, asked, later, hunread, ⟨hasked, ?_⟩, hstream⟩
      intro hread
      have honce := h.once
      rw [Ledger.answered, hunread] at honce
      exact (List.nodup_append.mp honce).2.2 n hread n List.mem_cons_self rfl

/-- An answer is handed to the call that made the request. -/
theorem Intact.dispatch_eq {s : Session} {ledger : Ledger} {n : Nat} {asked : Asked} {frame : Frame}
    (h : Intact s ledger) (hbooks : Books s ledger) (houtstanding : ledger.Outstanding n asked)
    (hstream : frame.stream = asked.stream) (rest : List (Except ProtocolError Frame)) :
    ∃ table, (∀ other, table.get? other =
        if other = asked.stream then none else s.inFlight.get? other) ∧
      { s with arrivals := rest }.dispatch frame =
        { s with arrivals := rest, inFlight := table }.hand asked.place (.ok frame) := by
  have hevent : frame.stream ≠ Frame.eventStream := by
    rw [hstream]
    exact hbooks.streams asked (List.mem_of_getElem? houtstanding.1)
  have hheld := h.outstanding n asked houtstanding
  rw [dispatch, if_neg hevent, hstream]
  dsimp only
  split
  · next place table htake =>
    obtain ⟨hplace, htable⟩ := InFlight.take?_eq_some htake
    cases hheld.symm.trans hplace
    exact ⟨table, htable, rfl⟩
  · next hnone =>
    rw [InFlight.take?_eq_none, hheld] at hnone
    cases hnone

/-- A session that is deaf has no answer to read. -/
theorem Deaf.not_outstanding {s : Session} {ledger : Ledger} (h : s.Deaf) (hbooks : Books s ledger)
    (hserving : s.reader.isServing) (n : Nat) (asked : Asked) : ¬ ledger.Outstanding n asked := by
  intro houtstanding
  rcases h with hstopped | ⟨-, hframes, -⟩
  · simp [Worker.isServing, hstopped] at hserving
  · rw [hbooks.requests, List.map_eq_nil_iff] at hframes
    have hasked := houtstanding.1
    rw [hframes] at hasked
    cases hasked

theorem knows_handed {ledger : Ledger} {n : Nat} {asked : Asked} {frame : Frame} {call : Call}
    (hstage : call.stage = .await asked.exchange asked.stream) (hlatest : ledger.Latest n asked)
    (hread : (n, frame) ∈ ledger.read)
    (hstream : ∀ stream, call.stage.stream? = some stream → stream ≠ Frame.eventStream) :
    Knows ledger asked.place { call with inbox := some (.ok frame) } where
  handed := by
    intro found _ hfound
    cases hfound
    exact ⟨asked.exchange, asked.stream, n, hstage, hlatest, hread⟩
  spent := fun _ => .inl (by rw [hstage]; rfl)
  stream_ne := hstream

/-- The ledger, the table of waiters and the order of closing agree. -/
structure Sound (s : Session) (ledger : Ledger) : Prop where
  books : Books s ledger
  orderly : s.Orderly
  table : Intact s ledger ∨ s.Deaf
  unstruck : s.reader.duty ≠ .striking

/-- What the reader does with a frame: an event is ignored, and an answer is handed to the call that
made the request, which either waits for this answer or waits no longer. -/
theorem Sound.reads {s : Session} {ledger : Ledger} {frame : Frame}
    {rest : List (Except ProtocolError Frame)} (h : Sound s ledger)
    (hserving : s.reader.isServing) (harrivals : s.arrivals = .ok frame :: rest) :
    Books ({ s with arrivals := rest }.dispatch frame) ledger.readNext ∧
      (Intact s ledger → Intact ({ s with arrivals := rest }.dispatch frame) ledger.readNext) ∧
      ({ s with arrivals := rest }.dispatch frame).reader = s.reader := by
  have hnext := h.books.readNext harrivals
  rcases h.books.first harrivals with ⟨later, hunread, hevent⟩ | hanswer
  · have hsame : { s with arrivals := rest }.dispatch frame = { s with arrivals := rest } := by
      rw [dispatch, if_pos hevent]
    rw [hsame]
    refine ⟨hnext, ?_, rfl⟩
    intro hintact
    rw [Ledger.readNext_event hunread]
    exact hintact.of_same rfl rfl rfl rfl
  · obtain ⟨n, asked, later, hunread, houtstanding, hstream⟩ := hanswer
    rcases h.table with hintact | hdeaf
    · obtain ⟨table, htable, hdispatch⟩ :=
        hintact.dispatch_eq h.books houtstanding hstream rest
      have hledger := Ledger.readNext_answer hunread
      obtain ⟨call, hcall, hholds⟩ := hintact.holder houtstanding
      rw [hdispatch]
      refine ⟨hnext.of_calls rfl rfl rfl ?_, ?_, rfl⟩
      · intro place found hfound
        rcases getElem?_hand_cases hcall hfound with ⟨rfl, rfl⟩ | ⟨-, hfound⟩
        · rcases hholds with ⟨hawait, hinbox, hlatest⟩ | hover
          · have hmem : (n, frame) ∈ ledger.read ++ [(n, frame)] :=
              List.mem_append_right _ (List.mem_singleton_self _)
            rw [hledger, accept_of_await hawait hinbox]
            exact knows_handed hawait (hlatest.of_asked rfl) hmem
              (h.books.calls _ call hcall).stream_ne
          · rw [accept_of_isOver hover]
            exact hnext.calls _ call hcall
        · exact hnext.calls place found hfound
      · intro _
        rw [hledger]
        have hread : Intact { s with arrivals := rest } ledger := hintact.of_same rfl rfl rfl rfl
        exact hread.answer houtstanding htable rfl rfl
    · exact absurd houtstanding (hdeaf.not_outstanding h.books hserving n asked)

/-! ## All that can happen -/

/-- A part of closing leaves the table alone until the workers are to be stopped. From then on the
session is deaf. -/
theorem Sound.closes {s t : Session} {ledger : Ledger} {action : Action} {part : Closing}
    (h : Sound s ledger) (hchange : s.Change action t) (hbefore : s.IsClosing part)
    (hafter : ∀ next, part.next? = some next → t.IsClosing next)
    (hintact : part = .latch ∨ part = .dropOutbox → Intact t ledger) :
    Intact t ledger ∨ t.Deaf := by
  cases part with
  | latch => exact .inl (hintact (.inl rfl))
  | dropOutbox => exact .inl (hintact (.inr rfl))
  | stopWorkers => exact .inr ((h.orderly.change hchange).deaf (hafter _ rfl))
  | failWaiters => exact .inr ((h.orderly.deaf hbefore).change hchange)

theorem Intact.closePart {s t : Session} {ledger : Ledger} {reason : ClientError} {part : Closing}
    (h : Intact s ledger) (hpart : part = .latch ∨ part = .dropOutbox)
    (hcalls : t.calls = (s.closePart reason part).calls)
    (hinFlight : t.inFlight = (s.closePart reason part).inFlight) : Intact t ledger := by
  rcases hpart with rfl | rfl <;> exact h.of_same hcalls hinFlight rfl rfl

theorem Sound.table_works {s t : Session} {ledger : Ledger} {action : Action} (h : Sound s ledger)
    (hintact : Intact s ledger) (hworks : s.Works action t)
    (haction : ∀ arrival, action ≠ .arrive arrival) :
    Intact t (ledger.record s action) ∨ t.Deaf := by
  have hchange := Change.works hworks
  cases hworks with
  | @readerCloses part reason last _ hduty hclose =>
      subst hclose
      rw [Ledger.record_busy (by rw [hduty]; simp)]
      apply h.closes hchange (.inl ⟨_, _, hduty⟩)
      · intro next hnext
        exact .inl ⟨reason, last, by simp only [dutyAfter, hnext]⟩
      · intro hpart
        exact hintact.closePart hpart rfl rfl
  | @writerCloses part reason last _ hduty hclose =>
      subst hclose
      apply h.closes hchange (.inr (.inl ⟨_, _, hduty⟩))
      · intro next hnext
        exact .inr (.inl ⟨reason, last, by simp only [dutyAfter, hnext]⟩)
      · intro hpart
        exact hintact.closePart hpart rfl rfl
  | @closes place part _ hcloser hclose =>
      subst hclose
      apply h.closes hchange (.inr (.inr (.inl (List.mem_of_getElem? hcloser))))
      · intro next hnext
        have hsame := (keeps_closePart s .connectionClosed part).closers
        have hlt := (List.getElem?_eq_some_iff.mp hcloser).1
        refine .inr (.inr (.inl (List.mem_of_getElem? (i := place) ?_)))
        dsimp only
        rw [hsame, List.getElem?_set_self hlt, hnext]
      · intro hpart
        exact hintact.closePart hpart rfl rfl
  | reads hserving harrivals =>
      left
      rw [Ledger.record, if_pos hserving]
      exact (h.reads hserving harrivals).2.1 hintact
  | ends hserving harrivals =>
      left
      rw [h.books.arrivals] at harrivals
      obtain ⟨⟨tag, arrival⟩, later, hunread, rfl, -⟩ := List.map_eq_cons_iff.mp harrivals
      rw [Ledger.record, if_pos hserving, Ledger.readNext_error hunread]
      exact hintact.of_same rfl rfl rfl rfl
  | strikes hstriking => exact absurd hstriking h.unstruck
  | pause =>
      left
      unfold Session.pause
      split <;> exact hintact.of_same rfl rfl rfl rfl
  | arrive arrival => exact absurd rfl (haction arrival)
  | _ => exact .inl (hintact.of_same rfl rfl rfl rfl)

theorem Sound.table_moves {s u : Session} {ledger : Ledger} {place : Nat} {call : Call}
    {stage : Stage} (h : Sound s ledger) (hintact : Intact s ledger)
    (hcall : s.calls[place]? = some call) (hleads : Leads s place call call.stage u stage) :
    Intact (u.moveTo place stage) (ledger.record s (.move (.call place))) ∨
      (u.moveTo place stage).Deaf := by
  have hchange := Change.moves hcall hleads
  have hstage : s.stage? place = some call.stage := stage?_of_calls hcall
  by_cases hclosing : ∃ part reason result, call.stage = .close part reason result
  · obtain ⟨part, reason, result, hclose⟩ := hclosing
    rw [Ledger.record_call hcall fun _ _ heq => by cases hclose.symm.trans heq]
    generalize hold : call.stage = old at hleads hclose
    subst hclose
    cases hleads
    apply h.closes hchange (.inr (.inr (.inr ⟨place, reason, result, hold ▸ hstage⟩)))
    · intro next hnext
      refine .inr (.inr (.inr ⟨place, reason, result, ?_⟩))
      have hsame : (s.closePart reason part).stage? place = some call.stage := by
        rw [stage?_closePart, hstage]
      rw [stage?_moveTo_self hsame, stageAfter, hnext]
    · rintro (rfl | rfl) <;> exact hintact.moveOver hcall rfl rfl rfl
  · left
    apply hintact.leads h.books hcall rfl hleads
    intro part reason result heq
    exact absurd ⟨part, reason, result, heq⟩ hclosing

theorem getElem?_call_of_ne {s : Session} (job : Job) (limit : Option Span) {other : Nat}
    (h : other ≠ s.calls.length) : (s.call job limit).calls[other]? = s.calls[other]? := by
  rw [Session.call]
  by_cases hlt : other < s.calls.length
  · rw [List.getElem?_append_left hlt]
  · rw [List.getElem?_eq_none (by simp; omega), List.getElem?_eq_none (by omega)]

theorem Sound.table_change {s t : Session} {ledger : Ledger} {action : Action} (h : Sound s ledger)
    (hchange : s.Change action t) (haction : ∀ arrival, action ≠ .arrive arrival) :
    Intact t (ledger.record s action) ∨ t.Deaf := by
  rcases h.table with hintact | hdeaf
  · cases hchange with
    | moves hcall hleads => exact h.table_moves hintact hcall hleads
    | @waitOver place stage hstage =>
        obtain ⟨call, hcall, -⟩ := Option.map_eq_some_iff.mp hstage
        exact .inl (hintact.moveOver hcall rfl rfl rfl)
    | @left place _ haction old stage hold hover =>
        obtain ⟨call, hcall, -⟩ := Option.map_eq_some_iff.mp hold
        have hover : stage.isOver := by rcases hover with rfl | ⟨_, rfl⟩ <;> rfl
        left
        rcases haction with rfl | rfl <;> exact hintact.moveOver hcall rfl rfl hover
    | called job limit =>
        left
        have hnew : (s.call job limit).calls[s.calls.length]? = some _ := List.getElem?_concat_length
        refine hintact.leave (fun _ => .inl rfl) ?_ hnew rfl (.inr ?_)
        · intro other hother
          exact getElem?_call_of_ne job limit hother
        · intro stream hheld
          obtain ⟨call, hcall, -⟩ := hintact.held stream _ hheld
          exact Nat.lt_irrefl _ (List.getElem?_eq_some_iff.mp hcall).1
    | works hworks => exact h.table_works hintact hworks haction
  · exact .inr (hdeaf.change hchange)

/-- Nothing is ever a breach of the protocol for the reader. -/
theorem Sound.unstruck_change {s t : Session} {ledger : Ledger} {action : Action}
    (h : Sound s ledger) (hchange : s.Change action t) : t.reader.duty ≠ .striking := by
  have hsame {u : Session} (hduty : u.reader.duty = s.reader.duty) : u.reader.duty ≠ .striking := by
    rw [hduty]
    exact h.unstruck
  cases hchange with
  | @moves place call u stage hcall hleads =>
      obtain ⟨-, hreader, -⟩ := hleads.duties
      show u.reader.duty ≠ .striking
      rcases hreader with hduty | hduty
      · exact hsame hduty
      · simp [hduty]
  | waitOver | left | called => exact h.unstruck
  | works hworks =>
      cases hworks with
      | reads hserving harrivals =>
          exact hsame (congrArg Worker.duty (h.reads hserving harrivals).2.2)
      | ends => simp
      | strikes hstriking => exact absurd hstriking h.unstruck
      | @readerCloses part reason last _ hduty hclose =>
          cases part <;> cases last <;> simp [dutyAfter, Closing.next?]
      | writerCloses _ hclose | closes _ hclose =>
          subst hclose
          exact hsame (keeps_closePart s _ _).readerDuty
      | pause =>
          unfold Session.pause
          split <;> exact h.unstruck
      | _ => exact h.unstruck

theorem Conversation.sound {options : SessionOptions} {s : Session} {ledger : Ledger}
    (h : Conversation options s ledger) : Sound s ledger := by
  induction h with
  | new =>
      have hunstruck : (Session.new options).reader.duty ≠ .striking := by
        simp [Session.new, Worker.new]
      exact ⟨books_new options, orderly_new options, .inl (intact_new options), hunstruck⟩
  | @arrive s ledger answered arrival _ hallows ih =>
      have hchange : s.Change (.arrive arrival) _ := .works (.arrive arrival)
      refine ⟨ih.books.arrive hallows, ih.orderly.change hchange, ?_, ih.unstruck⟩
      rcases ih.table with hintact | hdeaf
      · exact .inl (hintact.of_same rfl rfl rfl rfl)
      · exact .inr (hdeaf.change hchange)
  | act action _ haction hact ih =>
      have hchange := change_of_act hact
      refine ⟨?_, ih.orderly.change hchange, ih.table_change hchange haction,
        ih.unstruck_change hchange⟩
      exact ih.books.change hchange haction fun frame rest hserving harrivals =>
        (ih.reads hserving harrivals).1

/-! ## Correlation -/

/-- The frame is on the stream of the request and has been handed to the call that made it and to no
other. That call waits for the answer to this request, or it waits no longer. -/
structure Delivers (s t : Session) (asked : Asked) (frame : Frame) : Prop where
  stream : frame.stream = asked.stream
  asker : ∃ call, s.calls[asked.place]? = some call ∧
    (call.stage = .await asked.exchange asked.stream ∧ call.inbox = none ∨ call.stage.isOver)
  calls : t.calls = (s.hand asked.place (.ok frame)).calls
  reader : t.reader = s.reader
  strikes : t.strikes = s.strikes

theorem act_reader_eq {s : Session} {frame : Frame} {rest : List (Except ProtocolError Frame)}
    (hserving : s.reader.isServing) (harrivals : s.arrivals = .ok frame :: rest) :
    s.act (.move .reader) = some ({ s with arrivals := rest }.dispatch frame) := by
  simp only [Worker.isServing, Bool.and_eq_true, beq_iff_eq, Bool.not_eq_true'] at hserving
  simp [act, move, moveReader, hserving, harrivals]

theorem Sound.delivers {s : Session} {ledger : Ledger} {n : Nat} {frame : Frame}
    {later : List (Option Nat × Except ProtocolError Frame)} (h : Sound s ledger)
    (hunread : ledger.unread = (some n, .ok frame) :: later) (hserving : s.reader.isServing) :
    ∃ asked t, ledger.asked[n]? = some asked ∧ s.act (.move .reader) = some t ∧
      Delivers s t asked frame := by
  have harrivals : s.arrivals = .ok frame :: later.map Prod.snd := by
    rw [h.books.arrivals, hunread, List.map_cons]
  rcases h.books.first harrivals with ⟨_, hevent, -⟩ | ⟨m, asked, _, hanswer, houtstanding, hstream⟩
  · cases hunread.symm.trans hevent
  · cases hunread.symm.trans hanswer
    rcases h.table with hintact | hdeaf
    · obtain ⟨table, -, hdispatch⟩ := hintact.dispatch_eq h.books houtstanding hstream
        (later.map Prod.snd)
      obtain ⟨call, hcall, hholds⟩ := hintact.holder houtstanding
      refine ⟨asked, _, houtstanding.1, act_reader_eq hserving harrivals, ?_⟩
      rw [hdispatch]
      refine ⟨hstream, ⟨call, hcall, ?_⟩, rfl, rfl, rfl⟩
      exact hholds.imp_left fun ⟨hawait, hinbox, _⟩ => ⟨hawait, hinbox⟩
    · exact absurd houtstanding (hdeaf.not_outstanding h.books hserving n asked)

/-- Whatever the callers and the node do and in whatever order, the frames that are queued are the
requests of the calls, each on its stream; a frame that waits for a call is the answer to what the
call asked last; an answer that is read is handed to the call that asked and to no other; and the
reader finds no breach of the protocol. -/
theorem Conversation.correlates {options : SessionOptions} {s : Session} {ledger : Ledger}
    (h : Conversation options s ledger) :
    s.frames = (ledger.asked.map fun asked => (s.request asked.exchange).frame asked.stream) ∧
      (∀ place call frame, s.calls[place]? = some call → call.inbox = some (.ok frame) →
        call.stage.isOver ∨ ∃ exchange stream n, call.stage = .await exchange stream ∧
          ledger.Latest n ⟨place, exchange, stream⟩ ∧ (n, frame) ∈ ledger.read) ∧
      (∀ n frame later, ledger.unread = (some n, .ok frame) :: later → s.reader.isServing →
        ∃ asked t, ledger.asked[n]? = some asked ∧ s.act (.move .reader) = some t ∧
          Delivers s t asked frame) ∧
      s.reader.duty ≠ .striking := by
  have hsound := h.sound
  refine ⟨hsound.books.requests, ?_, fun _ _ _ => hsound.delivers, hsound.unstruck⟩
  intro place call frame hcall hinbox
  have hknows := hsound.books.calls place call hcall
  rcases hknows.spent (by simp [hinbox]) with hstream | hover
  · exact .inr (hknows.handed frame hstream hinbox)
  · exact .inl hover

/-- A session that has been opened, with two queries sent on it. The caller of the first is gone, the
second still waits. -/
def firstAbandoned (first second : QueryRequest) : Session :=
  { Session.new (.standard ⟨"node", 9042⟩ "") with
    phase := .active
    inFlight := ⟨3, .insert (.insert ∅ 1 1) 2 2⟩
    outboxOpen := true
    sent := [(Handshake.startup standardVersion).frame 0, (Request.query first).frame 1,
      (Request.query second).frame 2]
    reader := ⟨.serving, false⟩
    writer := ⟨.serving, false⟩
    workersRecorded := true
    transport := .ready
    connects := 1
    calls := [⟨.opening, none, .done (.ok none), none⟩,
      ⟨.query (.ok first), none, .dropped, none⟩,
      ⟨.query (.ok second), none, .await (.query second) 2, none⟩] }

/-- Its ledger: only the startup message has been answered. -/
def twoAsked (first second : QueryRequest) : Ledger where
  asked := [⟨0, .startup ((Session.new (.standard ⟨"node", 9042⟩ "")).handshakeDeadline), 0⟩,
    ⟨1, .query first, 1⟩, ⟨2, .query second, 2⟩]
  read := [(0, .response 0 .ready [])]
  unread := []

theorem conversation_firstAbandoned (first second : QueryRequest) :
    Conversation (.standard ⟨"node", 9042⟩ "") (firstAbandoned first second)
      (twoAsked first second) := by
  have hnew : Conversation (.standard ⟨"node", 9042⟩ "") _ _ := .new
  have hcalled := hnew.act (.call .opening none) (by simp) rfl
  have hsettles := hcalled.move (.call 0) rfl
  have hclaims := hsettles.move (.call 0) rfl
  have hconnects := hclaims.move (.call 0) rfl
  have hready := hconnects.act (.transport .ready) (by simp) rfl
  have hopens := hready.move (.call 0) rfl
  have hstarts := hopens.move (.call 0) rfl
  have hrecords := hstarts.move (.call 0) rfl
  have hregisters := hrecords.move (.call 0) rfl
  have hchecks := hregisters.move (.call 0) rfl
  have henqueues := hchecks.move (.call 0) rfl
  have hawaits := henqueues.move (.call 0) rfl
  have hwrites := hawaits.move .writer rfl
  have harrives := hwrites.arrive (some 0) (.ok (.response 0 .ready [])) ⟨by decide, rfl⟩
  have hreads := harrives.move .reader rfl
  have hlands := hreads.move (.call 0) rfl
  have hsettled := hlands.move (.call 0) rfl
  have hopened := hsettled.move (.call 0) rfl
  have hcalledFirst := hopened.act (.call (.query (.ok first)) none) (by simp) rfl
  have hbeginsFirst := hcalledFirst.move (.call 1) rfl
  have hasksFirst := hbeginsFirst.move (.call 1) rfl
  have htakesFirst := hasksFirst.move (.call 1) rfl
  have hlooksFirst := htakesFirst.move (.call 1) rfl
  have hqueuesFirst := hlooksFirst.move (.call 1) rfl
  have hcalledSecond := hqueuesFirst.act (.call (.query (.ok second)) none) (by simp) rfl
  have hbeginsSecond := hcalledSecond.move (.call 2) rfl
  have hasksSecond := hbeginsSecond.move (.call 2) rfl
  have htakesSecond := hasksSecond.move (.call 2) rfl
  have hlooksSecond := htakesSecond.move (.call 2) rfl
  have hqueuesSecond := hlooksSecond.move (.call 2) rfl
  have hwritesFirst := hqueuesSecond.move .writer rfl
  have hwritesSecond := hwritesFirst.move .writer rfl
  exact hwritesSecond.act (.abandon 1) (by simp) rfl

/-- The node answers the second query first. The reader hands that answer to the second call, and
the answer to the first query to the first call, which has no use for it. -/
theorem correlates_out_of_order :
    let first : QueryRequest := ⟨"SELECT 1", .one, []⟩
    let second : QueryRequest := ⟨"SELECT 2", .one, []⟩
    let early : Frame := .response 2 .result [0, 0, 0, 1]
    let late : Frame := .response 1 .result [0, 0, 0, 1]
    ∃ s t u ledger, Conversation (.standard ⟨"node", 9042⟩ "") s ledger ∧
      ledger.unread = [(some 2, .ok early), (some 1, .ok late)] ∧
      s.stage? 1 = some .dropped ∧ s.stage? 2 = some (.await (.query second) 2) ∧
      s.act (.move .reader) = some t ∧ Delivers s t ⟨2, .query second, 2⟩ early ∧
      t.act (.move .reader) = some u ∧ Delivers t u ⟨1, .query first, 1⟩ late ∧
      u.calls[1]?.map (·.inbox) = some none ∧
      u.calls[2]?.map (·.inbox) = some (some (.ok early)) := by
  intro first second early late
  have hasked := conversation_firstAbandoned first second
  have hearly := hasked.arrive (some 2) (.ok early) ⟨by decide, rfl⟩
  have hlate := hearly.arrive (some 1) (.ok late) ⟨by decide, rfl⟩
  obtain ⟨-, -, hdelivers, -⟩ := hlate.correlates
  obtain ⟨asked, t, hsecond, hact, hdelivered⟩ := hdelivers 2 early _ rfl rfl
  cases hsecond
  have hread := hlate.move .reader hact
  obtain ⟨-, -, hdelivers, -⟩ := hread.correlates
  have hserving : t.reader.isServing := by
    rw [hdelivered.reader]
    rfl
  obtain ⟨asked, u, hfirst, hnext, hreturned⟩ := hdelivers 1 late _ rfl hserving
  cases hfirst
  have hcalls : u.calls = _ := hreturned.calls
  rw [hand, hdelivered.calls] at hcalls
  refine ⟨_, t, u, _, hlate, rfl, rfl, rfl, hact, hdelivered, hnext, hreturned, ?_, ?_⟩
  · rw [hcalls]
    rfl
  · rw [hcalls]
    rfl

end CqlClient.Session
