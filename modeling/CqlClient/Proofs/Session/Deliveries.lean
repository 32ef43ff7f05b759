import CqlClient.Proofs.Session.Leftovers
import CqlClient.Proofs.Session.Looks

/-!
What becomes of what the reader brings. Whoever is brought something keeps it until looking at it, or
goes away with it. So all see what they are brought in its order, as far as they see it.
-/

namespace CqlClient.Session

/-! ## What has been brought -/

theorem held?_accept_error (call : Call) (err : ClientError) :
    (call.accept (.error err)).held? = call.held? := by
  unfold Call.accept
  split
  · next haccepts =>
    rw [Bool.and_eq_true, Option.isNone_iff_eq_none] at haccepts
    rw [held?_of_inbox haccepts.2, Call.held?]
    split
    · next hinbox => cases hinbox
    · rfl
  · rfl

/-- A failure is nothing to look at. -/
theorem holds?_handAll_error (s : Session) (places : List Nat) (err : ClientError) (place : Nat) :
    (s.handAll (places.map (·, .error err))).holds? (.call place) = s.holds? (.call place) := by
  induction places generalizing s with
  | nil => rfl
  | cons other places ih =>
      rw [handAll, List.map_cons, List.foldl_cons]
      refine (ih (s.hand other (.error err))).trans ?_
      rw [holds?, getElem?_hand, holds?]
      split
      · cases s.calls[place]? with
        | none => rfl
        | some call => exact held?_accept_error call err
      · rfl

theorem holds?_congr {s t : Session} (h : t.calls = s.calls) (place : Nat) :
    t.holds? (.call place) = s.holds? (.call place) := by
  rw [holds?, h, holds?]

theorem holds?_cancel (s : Session) (stream : Int16) (place : Nat) :
    (s.cancel stream).holds? (.call place) = s.holds? (.call place) := by
  obtain ⟨table, heq, -⟩ := cancel_eq_handAll s stream
  rw [heq, handsOn, holds?_handAll_error]
  exact holds?_congr rfl place

theorem holds?_closePart (s : Session) (reason : ClientError) (part : Closing) (place : Nat) :
    (s.closePart reason part).holds? (.call place) = s.holds? (.call place) := by
  by_cases hpart : part = .failWaiters
  · subst hpart
    rw [closePart_eq_handAll, holds?_handAll_error]
    exact holds?_congr rfl place
  · exact holds?_congr (calls_closePart hpart).1 place

theorem holds?_moveTo_ne (s : Session) {mover place : Nat} (h : place ≠ mover) (stage : Stage) :
    (s.moveTo mover stage).holds? (.call place) = s.holds? (.call place) := by
  rw [holds?, getElem?_moveTo_ne s h, holds?]

theorem held?_of_isOpening {call : Call} (h : call.stage.isOpening) : call.held? = none := by
  refine held?_of_ne_query fun request hexchange => ?_
  cases hstage : call.stage <;> rw [hstage] at h hexchange <;> cases hexchange <;> cases h

theorem exists_query {stage : Stage} {stream : Int16} (hstream : stage.stream? = some stream)
    (h : stage.isOpening = false) : ∃ request, stage.exchange? = some (.query request) := by
  cases stage with
  | check exchange | enqueue exchange | await exchange =>
      cases exchange with
      | query request => exact ⟨request, rfl⟩
      | startup | use => cases h
  | _ => cases hstream

/-- A call that is over stays over. -/
theorem isOver_of_act {s t : Session} {action : Action} (hact : s.act action = some t) {place : Nat}
    {stage : Stage} (hstage : s.stage? place = some stage) (hover : stage.isOver) :
    ∃ next, t.stage? place = some next ∧ next.isOver := by
  by_cases haction : action = .move (.call place)
  · subst haction
    obtain ⟨call, u, next, hcall, hleads, rfl, hnext⟩ := leads_of_act hact hstage
    cases hleads with
    | close => exact ⟨_, hnext, isOver_stageAfter ..⟩
    | _ => cases hover
  · refine ⟨stage, stage?_stays hact hstage ?_ haction, hover⟩
    cases stage with
    | close | done | dropped => exact Bool.false_ne_true
    | _ => cases hover

/-- Somebody is still there. None but a call ever goes away. -/
def Lasts (s : Session) : Actor → Prop
  | .call place => ∀ stage, s.stage? place = some stage → ¬ stage.isOver
  | _ => True

theorem Lasts.of_act {s t : Session} {action : Action} {actor : Actor} (h : t.Lasts actor)
    (hact : s.act action = some t) : s.Lasts actor := by
  cases actor with
  | call place =>
      intro stage hstage hover
      obtain ⟨next, hnext, hnextOver⟩ := isOver_of_act hact hstage hover
      exact h next hnext hnextOver
  | _ => trivial

theorem lasts_of_sees? {s : Session} {action : Action} {actor : Actor} {conduct : Conduct}
    (h : s.sees? action = some (actor, conduct)) : s.Lasts actor := by
  cases actor with
  | call place =>
      obtain ⟨call, stream, frame, ⟨hcall, request, hawait⟩, -⟩ := awaits_of_sees? h
      intro stage hstage hover
      rw [stage?_of_calls hcall, hawait] at hstage
      cases hstage
      cases hover
  | _ => trivial

/-- A call that has no stream and is not over has been handed nothing. -/
theorem Tabled.inbox {s : Session} {endings : List ClientError}
    {got : Nat → List (Except ClientError Frame)} (h : Tabled s endings got) {place : Nat}
    {call : Call} (hcall : s.calls[place]? = some call) (hstream : call.stage.stream? = none)
    (hover : ¬ call.stage.isOver) : call.inbox = none := by
  cases h.stances place call hcall with
  | waits hholds | handed hholds => cases hstream.symm.trans hholds
  | ended hended => exact absurd hended hover
  | free _ hinbox => exact hinbox

/-- What a call has been brought it keeps along its own steps, until it looks or is over. -/
theorem Leads.holds? {s u : Session} {endings : List ClientError}
    {got : Nat → List (Except ClientError Frame)} {place : Nat} {call : Call} {stage : Stage}
    (h : Leads s place call call.stage u stage) (htabled : Tabled s endings got)
    (hcall : s.calls[place]? = some call) (hover : ¬ stage.isOver) :
    (u.moveTo place stage).holds? (.call place) = s.holds? (.call place) := by
  have hmoved (hcalls : u.calls = s.calls) :
      (u.moveTo place stage).holds? (.call place) = { call with stage }.held? :=
    holds?_call (getElem?_moveTo_self (hcalls ▸ hcall) stage)
  -- Without a stream there is nothing in the inbox, before the step and after it.
  have hidle (hstream : call.stage.stream? = none) (hbefore : ¬ call.stage.isOver)
      (hcalls : u.calls = s.calls) :
      (u.moveTo place stage).holds? (.call place) = call.held? := by
    have hinbox := htabled.inbox hcall hstream hbefore
    rw [hmoved hcalls, held?_of_inbox hinbox]
    exact held?_of_inbox hinbox
  rw [holds?_call hcall]
  generalize hold : call.stage = old at h hidle
  cases h with
  | exhausted _ hended | refused _ _ hended | lost _ _ _ hended => exact absurd hended hover
  | unreachable | closed => exact absurd rfl hover
  | close => exact absurd (isOver_stageAfter ..) hover
  | register | check | enqueue =>
      rw [hmoved rfl, Call.held?, Call.held?, hold]
      rfl
  | @await exchange _ _ _ _ _ hto =>
      have hheld : call.held? = none := by
        cases exchange with
        | startup | use => exact held?_of_isOpening (hold ▸ rfl)
        | query => cases hto <;> exact absurd rfl hover
      rw [hheld, Session.holds?, getElem?_moveTo, if_pos rfl, List.getElem?_set_self', hcall]
      exact held?_of_inbox rfl
  | _ => exact hidle rfl Bool.false_ne_true rfl

/-- The other calls keep what they have been brought along the steps of a call. -/
theorem Leads.holds?_ne {s u : Session} {place : Nat} {call : Call} {old stage : Stage}
    (h : Leads s place call old u stage) {other : Nat} (hother : other ≠ place) :
    u.holds? (.call other) = s.holds? (.call other) := by
  cases h with
  | refused stream | lost _ stream => exact holds?_cancel s stream other
  | close part reason => exact holds?_closePart s reason part other
  | await => rw [Session.holds?, List.getElem?_set_ne hother.symm, Session.holds?]
  | _ => rfl

theorem Works.holds? {s t : Session} {action : Action} (h : s.Works action t) {place : Nat}
    (hbrings : ∀ conduct, s.brings? action ≠ some (.call place, conduct)) :
    t.holds? (.call place) = s.holds? (.call place) := by
  cases h with
  | @reads frame rest hserving harrivals =>
      rw [brings?_of_reads hserving harrivals] at hbrings
      by_cases hevent : frame.stream = Frame.eventStream
      · rw [dispatch, if_pos hevent]
        exact holds?_congr rfl place
      cases hholder : s.inFlight.get? frame.stream with
      | none =>
          rw [dispatch_of_free (s := { s with arrivals := rest }) hevent hholder]
          exact holds?_congr rfl place
      | some holder =>
          obtain ⟨table, heq, -⟩ :=
            dispatch_of_waiter (s := { s with arrivals := rest }) hevent hholder
          rw [heq, Session.holds?, getElem?_hand, Session.holds?]
          split
          · next hplace =>
            subst hplace
            cases hcall : s.calls[holder]? with
            | none => rfl
            | some call =>
                have hopening : call.stage.isOpening := by
                  by_contra hquery
                  refine hbrings frame.conduct (concerns?_of_waiter hevent hholder ?_)
                  rwa [isOpening, stage?_of_calls hcall]
                have hkept : (call.accept (.ok frame)).held? = none :=
                  held?_of_isOpening ((stage_accept call (.ok frame)).symm ▸ hopening)
                exact hkept.trans (held?_of_isOpening hopening).symm
          · rfl
  | readerCloses _ hclose | writerCloses _ hclose | closes _ hclose =>
      subst hclose
      exact (holds?_congr rfl place).trans (holds?_closePart s _ _ place)
  | pause =>
      unfold Session.pause
      split <;> exact holds?_congr rfl place
  | _ => exact holds?_congr rfl place

theorem holds?_of_isServing {s : Session} (h : s.reader.isServing) : s.holds? .reader = none := by
  rw [holds?, duty_of_isServing h]
  rfl

/-- The reader keeps a frame for no one until it counts it, and comes by one only by reading. -/
theorem holds?_reader {s t : Session} {action : Action} (hact : s.act action = some t)
    (hstaffed : s.Staffed) (hsees : ∀ conduct, s.sees? action ≠ some (.reader, conduct))
    (hbrings : ∀ conduct, s.brings? action ≠ some (.reader, conduct)) :
    t.holds? .reader = s.holds? .reader := by
  have hsame (hduty : t.reader.duty = s.reader.duty) : t.holds? .reader = s.holds? .reader := by
    rw [holds?, hduty, holds?]
  have hnone (hbefore : s.reader.duty ≠ .striking) (hafter : t.reader.duty ≠ .striking) :
      t.holds? .reader = s.holds? .reader := by
    rw [holds?, if_neg hafter, holds?, if_neg hbefore]
  by_cases haction : action = .move .reader
  · subst haction
    cases change_of_act hact with
    | left haction => rcases haction with haction | haction <;> cases haction
    | works hworks =>
        cases hworks with
        | @reads frame rest hserving harrivals =>
            rw [brings?_of_reads hserving harrivals] at hbrings
            apply hsame
            by_cases hevent : frame.stream = Frame.eventStream
            · rw [dispatch, if_pos hevent]
            cases hholder : s.inFlight.get? frame.stream with
            | none => exact absurd (concerns?_of_free hevent hholder) (hbrings .breach)
            | some holder =>
                obtain ⟨table, heq, -⟩ :=
                  dispatch_of_waiter (s := { s with arrivals := rest }) hevent hholder
                rw [heq, hand]
        | ends hserving => exact (holds?_of_isServing hserving).symm
        | strikes hduty =>
            refine absurd ?_ (hsees .breach)
            rw [sees?, holds?, if_pos hduty]
            rfl
        | @readerCloses part _ last _ hduty =>
            refine hnone (by rw [hduty]; rintro ⟨⟩) ?_
            cases part with
            | failWaiters => cases last <;> rintro ⟨⟩
            | _ => rintro ⟨⟩
  · by_cases hstart : s.StartsWorkers action
    · refine hnone (by rw [(hstaffed.unstarted hstart).1]; rintro ⟨⟩) ?_
      obtain ⟨place, rfl, hstage⟩ := hstart
      obtain ⟨call, u, stage, hcall, hleads, rfl, -⟩ := leads_of_act hact hstage
      cases hleads
      rintro ⟨⟩
    · exact hsame ((change_of_act hact).readerDuty haction hstart)

/-- What somebody has been brought stays with him until he sees it. -/
theorem holds?_stays {s t : Session} {endings : List ClientError}
    {got : Nat → List (Except ClientError Frame)} {action : Action} (hact : s.act action = some t)
    (htabled : Tabled s endings got) (hstaffed : s.Staffed) {actor : Actor} (hlasts : t.Lasts actor)
    (hsees : ∀ conduct, s.sees? action ≠ some (actor, conduct))
    (hbrings : ∀ conduct, s.brings? action ≠ some (actor, conduct)) :
    t.holds? actor = s.holds? actor := by
  cases actor with
  | reader => exact holds?_reader hact hstaffed hsees hbrings
  | writer | closer => rfl
  | call place =>
      have hends {u : Session} {mover : Nat} {old stage : Stage} (hold : u.stage? mover = some old)
          (hover : stage.isOver) (hlasts : (u.moveTo mover stage).Lasts (.call place)) :
          (u.moveTo mover stage).holds? (.call place) = u.holds? (.call place) := by
        by_cases hplace : place = mover
        · subst hplace
          exact absurd hover (hlasts stage (stage?_moveTo_self hold stage))
        · exact holds?_moveTo_ne u hplace stage
      cases change_of_act hact with
      | @moves mover call u stage hcall hleads =>
          by_cases hplace : place = mover
          · subst hplace
            have hfound := (congrFun (hleads.stage?_eq hcall) place).trans (stage?_of_calls hcall)
            exact hleads.holds? htabled hcall (hlasts stage (stage?_moveTo_self hfound stage))
          · exact (holds?_moveTo_ne u hplace stage).trans (hleads.holds?_ne hplace)
      | waitOver hstage => exact hends hstage rfl hlasts
      | @left _ _ _ _ stage hold hstage =>
          have hover : stage.isOver := by
            rcases hstage with rfl | ⟨_, rfl⟩ <;> rfl
          exact hends hold hover hlasts
      | called job limit =>
          rw [holds?, Session.call, List.getElem?_append, holds?]
          split
          · rfl
          · next hnew =>
            rw [List.getElem?_eq_none (Nat.not_lt.mp hnew), List.getElem?_singleton]
            split <;> rfl
      | works hworks => exact hworks.holds? hbrings

theorem brings?_eq_some {s : Session} {action : Action} {actor : Actor} {conduct : Conduct}
    (h : s.brings? action = some (actor, conduct)) :
    action = .move .reader ∧ s.reader.isServing ∧ ∃ frame rest, s.arrivals = .ok frame :: rest ∧
      frame.stream ≠ Frame.eventStream ∧
        (s.inFlight.get? frame.stream = none ∧ actor = .reader ∧ conduct = .breach ∨
          ∃ place, s.inFlight.get? frame.stream = some place ∧ s.isOpening place = false ∧
            actor = .call place ∧ conduct = frame.conduct) := by
  unfold brings? at h
  split at h
  · split at h
    · next frame rest hserving harrivals =>
      unfold concerns? at h
      split at h
      · cases h
      · next hevent =>
        refine ⟨rfl, hserving, frame, rest, harrivals, hevent, ?_⟩
        split at h
        · next hfree =>
          cases h
          exact .inl ⟨hfree, rfl, rfl⟩
        · next place hplace =>
          split at h
          · cases h
          · next hopening =>
            cases h
            exact .inr ⟨place, hplace, by simpa using hopening, rfl, rfl⟩
    · cases h
  · cases h

/-- Who is brought something has nothing to look at before, and has it then. -/
theorem holds?_of_brings? {s t : Session} {endings : List ClientError}
    {got : Nat → List (Except ClientError Frame)} {action : Action} (hact : s.act action = some t)
    (htabled : Tabled s endings got) {actor : Actor} {conduct : Conduct}
    (hbrings : s.brings? action = some (actor, conduct)) (hlasts : t.Lasts actor) :
    s.holds? actor = none ∧ t.holds? actor = some conduct := by
  obtain ⟨rfl, hserving, frame, rest, harrivals, hevent, hwhom⟩ := brings?_eq_some hbrings
  cases (act_of_reads hserving harrivals).symm.trans hact
  rcases hwhom with ⟨hfree, rfl, rfl⟩ | ⟨place, hplace, hopening, rfl, rfl⟩
  · constructor
    · exact holds?_of_isServing hserving
    · rw [dispatch_of_free (s := { s with arrivals := rest }) hevent hfree, holds?, if_pos rfl]
  · obtain ⟨call, hcall⟩ : ∃ call, s.calls[place]? = some call :=
      ⟨_, List.getElem?_eq_getElem (htabled.known _ _ hplace)⟩
    have hover : ¬ call.stage.isOver := by
      apply hlasts
      rw [stage?_dispatch]
      exact stage?_of_calls hcall
    cases htabled.stances place call hcall with
    | @waits stream hstream hinbox _ htable =>
        rw [isOpening, stage?_of_calls hcall] at hopening
        obtain ⟨request, hexchange⟩ := exists_query hstream hopening
        obtain ⟨table, heq, -⟩ :=
          dispatch_of_waiter (s := { s with arrivals := rest }) hevent hplace
        refine ⟨by rw [holds?_call hcall, held?_of_inbox hinbox], ?_⟩
        rw [heq, holds?, getElem?_hand, if_pos rfl, hcall, Option.map_some,
          accept_of_stream? hstream hinbox, Option.bind_some, Call.held?, hexchange]
    | handed _ _ _ _ htable | free _ _ htable => exact absurd hplace (htable _)
    | ended hended => exact absurd hended hover

theorem brings?_of_sees? {s : Session} {action : Action} {actor : Actor} {conduct : Conduct}
    (h : s.sees? action = some (actor, conduct)) : s.brings? action = none := by
  obtain ⟨rfl, hholds, -⟩ := sees?_eq_some h
  cases hbrings : s.brings? (.move actor) with
  | none => rfl
  | some brought =>
      obtain ⟨hreader, hserving, -⟩ := brings?_eq_some hbrings
      cases hreader
      cases (holds?_of_isServing hserving).symm.trans hholds

/-! ## What becomes of what is brought -/

/-- All see what they are brought, in its order, and as long as they are there nothing is lost. -/
structure Delivered (s : Session) (brought seen : List (Actor × Conduct)) : Prop where
  ordered : ∀ actor, seen.filter (·.1 = actor) <+: brought.filter (·.1 = actor)
  kept : ∀ actor, s.Lasts actor →
    brought.filter (·.1 = actor) =
      seen.filter (·.1 = actor) ++ ((s.holds? actor).map (actor, ·)).toList

theorem filter_toList_eq_nil {look : Option (Actor × Conduct)} {actor : Actor}
    (h : ∀ conduct, look ≠ some (actor, conduct)) : look.toList.filter (·.1 = actor) = [] := by
  cases look with
  | none => rfl
  | some look =>
      refine List.filter_eq_nil_iff.mpr fun other hmem hactor => ?_
      cases List.mem_singleton.mp hmem
      exact h look.2 (congrArg some (Prod.ext (of_decide_eq_true hactor) rfl))

theorem filter_toList_eq_self (actor : Actor) (conduct : Conduct) :
    (some (actor, conduct)).toList.filter (·.1 = actor) = [(actor, conduct)] := by
  simp

theorem delivered_new (options : SessionOptions) : Delivered (.new options) [] [] where
  ordered _ := List.prefix_rfl
  kept actor _ := by cases actor <;> rfl

theorem Delivered.act {s t : Session} {brought seen : List (Actor × Conduct)} {action : Action}
    {endings : List ClientError} {got : Nat → List (Except ClientError Frame)}
    (h : Delivered s brought seen) (hact : s.act action = some t) (htabled : Tabled s endings got)
    (hstaffed : s.Staffed) :
    Delivered t (brought ++ (s.brings? action).toList) (seen ++ (s.sees? action).toList) := by
  constructor
  · intro actor
    rw [List.filter_append, List.filter_append]
    -- Whoever sees something was still there, so nothing was lost before that.
    by_cases hsees : ∃ conduct, s.sees? action = some (actor, conduct)
    · obtain ⟨conduct, hsees⟩ := hsees
      rw [hsees, brings?_of_sees? hsees, h.kept actor (lasts_of_sees? hsees),
        (sees?_eq_some hsees).2.1, filter_toList_eq_self]
      exact List.prefix_append _ _
    · rw [filter_toList_eq_nil (not_exists.mp hsees), List.append_nil]
      exact (h.ordered actor).trans (List.prefix_append _ _)
  · intro actor hlasts
    rw [List.filter_append, List.filter_append, h.kept actor (hlasts.of_act hact)]
    by_cases hsees : ∃ conduct, s.sees? action = some (actor, conduct)
    · obtain ⟨conduct, hsees⟩ := hsees
      rw [(sees_of_act hsees hact).holds, hsees, brings?_of_sees? hsees, (sees?_eq_some hsees).2.1,
        filter_toList_eq_self]
      rfl
    rw [filter_toList_eq_nil (not_exists.mp hsees)]
    by_cases hbrings : ∃ conduct, s.brings? action = some (actor, conduct)
    · obtain ⟨conduct, hbrings⟩ := hbrings
      obtain ⟨hbefore, hafter⟩ := holds?_of_brings? hact htabled hbrings hlasts
      rw [hbefore, hafter, hbrings, filter_toList_eq_self]
      rfl
    · rw [filter_toList_eq_nil (not_exists.mp hbrings),
        holds?_stays hact htabled hstaffed hlasts (not_exists.mp hsees) (not_exists.mp hbrings),
        List.append_nil, List.append_nil]

theorem Run.delivered {options : SessionOptions} {steps : List (Session × Action)} {s : Session}
    (h : Run (.new options) steps s) : Delivered s (brought steps) (seen steps) := by
  induction h with
  | start => exact delivered_new options
  | act _ hrun hact ih =>
      rw [brought_concat, seen_concat]
      exact ih.act hact hrun.tabled hrun.staffed

/-- If of two lists of pairs one begins as the other for each key, and the keys come in the same
order, they are the same. -/
theorem eq_of_map_fst_eq {looks others : List (Actor × Conduct)}
    (hkeys : looks.map Prod.fst = others.map Prod.fst)
    (h : ∀ actor, looks.filter (·.1 = actor) <+: others.filter (·.1 = actor)) : looks = others := by
  induction looks generalizing others with
  | nil => exact (List.map_eq_nil_iff.mp hkeys.symm).symm
  | cons look looks ih =>
      cases others with
      | nil => cases hkeys
      | cons other others =>
          rw [List.map_cons, List.map_cons, List.cons.injEq] at hkeys
          obtain ⟨hkey, hkeys⟩ := hkeys
          have hhead := h look.1
          rw [List.filter_cons, List.filter_cons, if_pos (decide_eq_true rfl),
            if_pos (decide_eq_true hkey.symm), List.cons_prefix_cons] at hhead
          obtain ⟨rfl, -⟩ := hhead
          refine congrArg (look :: ·) (ih hkeys fun actor => ?_)
          have hactor := h actor
          rw [List.filter_cons, List.filter_cons] at hactor
          split at hactor
          · exact (List.cons_prefix_cons.mp hactor).2
          · exact hactor

end CqlClient.Session
