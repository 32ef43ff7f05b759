import CqlClient.Proofs.Session.Script
import CqlClient.Query.Basic

/-!
Where the handshake of a session stands. Nobody has claimed it, or one call performs it, or it has
failed, or it has succeeded and the callers run their queries: which of these it is, the marks of the
run say, so they begin the script whatever the calls do.
-/

namespace CqlClient

/-- What has been done when a request is queued. -/
def Exchange.Due (options : SessionOptions) (marks : List Mark) : Exchange → Prop
  | .startup _ => marks = []
  | .use _ =>
    isIdentifier options.keyspace ∧
      ∃ first, marks = [.queued (Handshake.startup options.version) first, .ready]
  | .query _ => ∃ first second queries, marks = script options first second queries

namespace Session

/-- The calls, but perhaps one, neither perform the handshake nor run their queries. -/
def AsideBut (s : Session) (owner : Option Nat) : Prop :=
  ∀ place stage, some place ≠ owner → s.stage? place = some stage → stage.isAside

/-- Where the handshake of a session stands, of which these are the marks. -/
inductive Scene (s : Session) (marks : List Mark) : Prop
  | unclaimed (hphase : s.phase = .uninitialized ∨ s.phase = .closed) (hconnects : s.connects = 0)
      (hmarks : marks = []) (haside : s.AsideBut none) : Scene s marks
  | performed {owner : Nat} {stage : Stage} (hphase : s.phase = .connecting ∨ s.phase = .closed)
      (hconnects : s.connects = 1) (hstage : s.stage? owner = some stage)
      (hreached : stage.Reached s.options marks) (haside : s.AsideBut (some owner)) : Scene s marks
  /-- The handshake has failed or has been deserted. -/
  | broken {first second : Int16} (hphase : s.phase = .connecting ∨ s.phase = .closed)
      (hconnects : s.connects = 1) (hmarks : marks <+: opening s.options first second)
      (haside : s.AsideBut none) : Scene s marks
  | landed {first second : Int16} {queries : List (QueryRequest × Int16)}
      (hphase : s.phase.isSettled) (hconnects : s.connects = 1)
      (hmarks : marks = script s.options first second queries)
      (hqueries : ∀ query ∈ queries, ∃ place, s.job? place = some (.query (.ok query.1)))
      (hstages : ∀ place stage, s.stage? place = some stage → ¬ stage.isOpening) : Scene s marks

/-! ## Calls that stand aside -/

theorem Leads.connects {s u : Session} {place : Nat} {call : Call} {old stage : Stage}
    (h : Leads s place call old u stage) :
    u.connects = s.connects ∨ s.phase = .uninitialized ∧ u.connects = s.connects + 1 := by
  cases h with
  | claim hfirst => exact .inr ⟨hfirst, rfl⟩
  | refused stream | lost _ stream =>
      obtain ⟨_, _, heq⟩ := cancel_eq s stream
      exact .inl (by rw [heq])
  | close part reason =>
      obtain ⟨_, _, _, _, _, _, heq⟩ := closePart_eq s reason part
      exact .inl (by rw [heq])
  | _ => exact .inl rfl

theorem Works.connects {s t : Session} {action : Action} (h : s.Works action t) :
    t.connects = s.connects := by
  cases h with
  | reads =>
      obtain ⟨_, _, _, heq⟩ := dispatch_eq _ _
      rw [heq]
  | @readerCloses part reason _ _ _ hclose | @writerCloses part reason _ _ _ hclose =>
      obtain ⟨_, _, _, _, _, _, heq⟩ := closePart_eq s reason part
      rw [← hclose, heq]
  | @closes _ part _ _ hclose =>
      obtain ⟨_, _, _, _, _, _, heq⟩ := closePart_eq s .connectionClosed part
      rw [← hclose, heq]
  | pause =>
      unfold Session.pause
      split <;> rfl
  | _ => rfl

/-- The transport is asked for only when a call claims the handshake. -/
theorem Change.connects {s t : Session} {action : Action} (h : s.Change action t) :
    t.connects = s.connects ∨
      s.phase = .uninitialized ∧ ∃ place, action = .move (.call place) := by
  cases h with
  | moves _ hleads =>
      rcases hleads.connects with hsame | ⟨hfirst, -⟩
      · exact .inl hsame
      · exact .inr ⟨hfirst, _, rfl⟩
  | waitOver | left | called => exact .inl rfl
  | works hworks => exact .inl hworks.connects

theorem AsideBut.change {s t : Session} {action : Action} {owner : Option Nat}
    (h : s.AsideBut owner) (hchange : s.Change action t) (hactive : s.phase ≠ .active)
    (hfirst : s.phase ≠ .uninitialized ∨ ∀ place, action ≠ .move (.call place)) :
    t.AsideBut owner := by
  intro place stage hother hstage
  rcases hchange.stage?_cases hstage with hold | hgiven | ⟨hmove, call, u, hcall, hleads⟩
  · exact h place stage hother hold
  · exact isAside_of_isGiven hgiven
  · have hcallAside := h place call.stage hother (stage?_of_calls hcall)
    rcases hleads.aside hcallAside hactive with ⟨haside, -⟩ | ⟨huninitialized, -⟩
    · exact haside
    · exact absurd hmove (hfirst.resolve_left (not_not_intro huninitialized) place)

/-- Calls that stand aside leave no marks. -/
theorem AsideBut.silent {s : Session} {action : Action} {owner : Option Nat}
    (h : s.AsideBut owner) (hother : ∀ place, action = .move (.call place) → some place ≠ owner) :
    s.mark? action = none := by
  by_cases hmoves : ∃ place, action = .move (.call place)
  · obtain ⟨place, rfl⟩ := hmoves
    cases hcall : s.calls[place]? with
    | none => simp [mark?, asks?, hears?, stage?, hcall]
    | some call =>
        exact mark?_of_isAside hcall (h place call.stage (hother place rfl) (stage?_of_calls hcall))
  · exact mark?_eq_none fun place heq => hmoves ⟨place, heq⟩

/-- As long as the handshake has not succeeded the session is connecting, or closed. -/
theorem Turns.phase_unlanded {s t : Session} {action : Action} (h : s.Turns t action)
    (hphase : s.phase = .connecting ∨ s.phase = .closed)
    (hland : ∀ place, action = .move (.call place) → s.stage? place ≠ some .land) :
    t.phase = .connecting ∨ t.phase = .closed := by
  cases h with
  | keeps _ hsame => rwa [hsame]
  | claims _ hfirst => rw [hfirst] at hphase; rcases hphase with h | h <;> cases h
  | lands hstage => exact absurd hstage (hland _ rfl)
  | closes _ hclosed => exact .inr hclosed
  | pauses heq => rcases hphase with h | h <;> simp [heq, Session.pause, h]
  | resumes heq => rcases hphase with h | h <;> simp [heq, Session.resume, h]

/-- Without a call nobody claims the handshake. -/
theorem Turns.phase_unclaimed {s t : Session} {action : Action} (h : s.Turns t action)
    (hphase : s.phase = .uninitialized) (hmoves : ∀ place, action ≠ .move (.call place)) :
    t.phase = .uninitialized ∨ t.phase = .closed := by
  cases h with
  | keeps _ hsame => rw [hsame, hphase]; exact .inl rfl
  | claims place | lands => exact absurd rfl (hmoves _)
  | closes _ hclosed => exact .inr hclosed
  | pauses heq => simp [heq, Session.pause, hphase]
  | resumes heq => simp [heq, Session.resume, hphase]

/-! ## The scenes of a session -/

theorem Scene.act_unclaimed {s t : Session} {action : Action}
    (hphase : s.phase = .uninitialized ∨ s.phase = .closed) (hconnects : s.connects = 0)
    (haside : s.AsideBut none) (hact : s.act action = some t) :
    Scene t (s.mark? action).toList := by
  rw [haside.silent (by simp), Option.toList_none]
  have hchange := change_of_act hact
  by_cases hclosed : s.phase = .closed
  · rcases hchange.connects with hsame | ⟨hfirst, -⟩
    · exact .unclaimed (.inr (hchange.stays_closed hclosed)) (hsame.trans hconnects) rfl
        (haside.change hchange (by simp [hclosed]) (by simp [hclosed]))
    · rw [hfirst] at hclosed
      cases hclosed
  have hfirst := hphase.resolve_right hclosed
  by_cases hmoves : ∃ place, action = .move (.call place)
  · obtain ⟨place, rfl⟩ := hmoves
    obtain ⟨call, u, stage, hcall, hleads, rfl⟩ := leads_of_moveCall hact
    have hold : s.stage? place = some call.stage := stage?_of_calls hcall
    have hothers : ∀ other found, some other ≠ some place →
        (u.moveTo place stage).stage? other = some found → found.isAside := by
      intro other found hother hfound
      rcases stage?_moveTo_cases (hleads.stage?_eq hcall) hfound with ⟨rfl, -⟩ | hfound
      · exact absurd rfl hother
      · exact haside other found (by simp) hfound
    rcases hleads.aside (haside place call.stage (by simp) hold) (by simp [hfirst]) with
      ⟨hstage, hsame, hturn⟩ | ⟨-, hconnecting, hclaimed, deadline, rfl⟩
    · refine .unclaimed (hturn.imp_left fun h => h.trans hfirst) (hsame.trans hconnects) rfl ?_
      intro other found _ hfound
      by_cases hother : other = place
      · subst hother
        rw [stage?_moveTo_self ((hleads.stage?_eq hcall).symm ▸ hold)] at hfound
        cases hfound
        exact hstage
      · exact hothers other found (by simpa using hother) hfound
    · refine .performed (.inl hconnecting) (hclaimed.trans (congrArg (· + 1) hconnects))
        (stage?_moveTo_self ((hleads.stage?_eq hcall).symm ▸ hold) _) rfl hothers
  · have hquiet : ∀ place, action ≠ .move (.call place) := fun place heq => hmoves ⟨place, heq⟩
    rcases hchange.connects with hsame | ⟨-, hmove⟩
    · exact .unclaimed ((turns_of_act hact).phase_unclaimed hfirst hquiet) (hsame.trans hconnects) rfl
        (haside.change hchange (by simp [hfirst]) (.inr hquiet))
    · exact absurd hmove hmoves

theorem AsideBut.none_of_aside {s : Session} {owner : Nat} {stage : Stage}
    (h : s.AsideBut (some owner)) (hstage : s.stage? owner = some stage) (haside : stage.isAside) :
    s.AsideBut none := by
  intro place found _ hfound
  by_cases hplace : place = owner
  · subst hplace
    cases hstage.symm.trans hfound
    exact haside
  · exact h place found (by simpa using hplace) hfound

theorem stage?_isSome_iff (s : Session) (place : Nat) :
    (s.stage? place).isSome ↔ (s.job? place).isSome := by
  rw [stage?, job?, Option.isSome_map, Option.isSome_map]

/-- A call does not go away. -/
theorem Change.stage?_isSome {s t : Session} {action : Action} (h : s.Change action t) {place : Nat}
    (hplace : (s.stage? place).isSome) : (t.stage? place).isSome := by
  rw [stage?_isSome_iff] at hplace ⊢
  obtain ⟨job, hjob⟩ := Option.isSome_iff_exists.mp hplace
  exact Option.isSome_of_eq_some (h.job? hjob)

theorem Scene.act_performed {s t : Session} {marks : List Mark} {action : Action} {owner : Nat}
    {stage : Stage} (hphase : s.phase = .connecting ∨ s.phase = .closed) (hconnects : s.connects = 1)
    (hstage : s.stage? owner = some stage) (hreached : stage.Reached s.options marks)
    (haside : s.AsideBut (some owner)) (hact : s.act action = some t) :
    Scene t (marks ++ (s.mark? action).toList) := by
  have hchange := change_of_act hact
  have hfirst : s.phase ≠ .uninitialized := by rcases hphase with h | h <;> simp [h]
  have hactive : s.phase ≠ .active := by rcases hphase with h | h <;> simp [h]
  have hsame : t.connects = 1 :=
    (hchange.connects.resolve_right fun h => hfirst h.1).trans hconnects
  have hothers := haside.change hchange hactive (.inl hfirst)
  have hoptions := options_of_act hact
  by_cases howner : action = .move (.call owner)
  · subst howner
    obtain ⟨call, hcall, rfl⟩ := Option.map_eq_some_iff.mp hstage
    obtain ⟨next, hnext, hproceeds⟩ := proceeds_of_reached hcall hreached hact
    cases hproceeds with
    | goesOn hstays hreached =>
        exact .performed (hstays ▸ hphase) hsame hnext (hoptions ▸ hreached) hothers
    | breaks hstays hbroken hmarks =>
        exact .broken (hstays ▸ hphase) hsame (hoptions ▸ hmarks) (hothers.none_of_aside hnext hbroken)
    | lands hsettled hmarks =>
        refine .landed hsettled hsame (hoptions ▸ hmarks) (by simp) ?_
        have hall := hothers.none_of_aside hnext rfl
        exact fun place found hfound => not_isOpening_of_isAside (hall place found (by simp) hfound)
  · have hother : ∀ place, action = .move (.call place) → some place ≠ some owner := by
      rintro place rfl heq
      exact howner (by rw [Option.some_inj.mp heq])
    rw [haside.silent hother, Option.toList_none, List.append_nil]
    have hturns : t.phase = .connecting ∨ t.phase = .closed := by
      refine (turns_of_act hact).phase_unlanded hphase fun place hmove hland => ?_
      cases haside place .land (hother place hmove) hland
    obtain ⟨next, hnext⟩ := Option.isSome_iff_exists.mp
      (hchange.stage?_isSome (Option.isSome_of_eq_some hstage))
    rcases hchange.stage?_cases hnext with hold | hgiven | ⟨hmove, -⟩
    · cases hstage.symm.trans hold
      exact .performed hturns hsame hnext (hoptions ▸ hreached) hothers
    · obtain ⟨first, second, hmarks⟩ := isPrefix_of_reached hreached
      exact .broken hturns hsame (hoptions ▸ hmarks)
        (hothers.none_of_aside hnext (isAside_of_isGiven hgiven))
    · exact absurd hmove howner

theorem Scene.act_broken {s t : Session} {marks : List Mark} {action : Action} {first second : Int16}
    (hphase : s.phase = .connecting ∨ s.phase = .closed) (hconnects : s.connects = 1)
    (hmarks : marks <+: opening s.options first second) (haside : s.AsideBut none)
    (hact : s.act action = some t) : Scene t (marks ++ (s.mark? action).toList) := by
  rw [haside.silent (by simp), Option.toList_none, List.append_nil]
  have hchange := change_of_act hact
  have hfirst : s.phase ≠ .uninitialized := by rcases hphase with h | h <;> simp [h]
  have hactive : s.phase ≠ .active := by rcases hphase with h | h <;> simp [h]
  refine .broken ?_ ((hchange.connects.resolve_right fun h => hfirst h.1).trans hconnects)
    (options_of_act hact ▸ hmarks) (haside.change hchange hactive (.inl hfirst))
  refine (turns_of_act hact).phase_unlanded hphase fun place _ hland => ?_
  cases haside place .land (by simp) hland

/-- Only a call that performs the handshake hears anything. -/
theorem hears?_eq_some {s : Session} {action : Action} {mark : Mark}
    (h : s.hears? action = some mark) :
    ∃ place stage, s.stage? place = some stage ∧ stage.isOpening := by
  unfold hears? at h
  split at h
  · next place =>
    obtain ⟨call, hcall, h⟩ := Option.bind_eq_some_iff.mp h
    refine ⟨place, call.stage, stage?_of_calls hcall, ?_⟩
    split at h
    · next hstage _ => rw [hstage]; rfl
    · next hstage _ => rw [hstage]; rfl
    · next hstage => rw [hstage]; rfl
    · cases h
  · cases h

theorem script_concat (options : SessionOptions) (first second stream : Int16)
    (queries : List (QueryRequest × Int16)) (request : QueryRequest) :
    script options first second queries ++ [.queued (.query request) stream] =
      script options first second (queries ++ [(request, stream)]) := by
  rw [script, script, List.map_append, List.append_assoc, List.cons_append]
  rfl

theorem Scene.act_landed {s t : Session} {action : Action} {first second : Int16}
    {queries : List (QueryRequest × Int16)} (hphase : s.phase.isSettled) (hconnects : s.connects = 1)
    (hqueries : ∀ query ∈ queries, ∃ place, s.job? place = some (.query (.ok query.1)))
    (hstages : ∀ place stage, s.stage? place = some stage → ¬ stage.isOpening) (hown : s.Own)
    (hact : s.act action = some t) :
    Scene t (script s.options first second queries ++ (s.mark? action).toList) := by
  have hchange := change_of_act hact
  have hoptions := options_of_act hact
  have hfirst : s.phase ≠ .uninitialized := by
    intro h
    rw [h] at hphase
    cases hphase
  have hsame : t.connects = 1 :=
    (hchange.connects.resolve_right fun h => hfirst h.1).trans hconnects
  have hnext : ∀ place stage, t.stage? place = some stage → ¬ stage.isOpening := by
    intro place stage hstage
    rcases hchange.stage?_cases hstage with hold | hgiven | ⟨-, call, u, hcall, hleads⟩
    · exact hstages place stage hold
    · exact not_isOpening_of_isAside (isAside_of_isGiven hgiven)
    · exact hleads.not_isOpening (hstages place _ (stage?_of_calls hcall)) hfirst
  have hkept : ∀ query ∈ queries, ∃ place, t.job? place = some (.query (.ok query.1)) := by
    intro query hquery
    obtain ⟨place, hjob⟩ := hqueries query hquery
    exact ⟨place, hchange.job? hjob⟩
  cases hasks : s.asks? action with
  | none =>
      have hhears : s.hears? action = none := by
        refine Option.eq_none_iff_forall_ne_some.mpr fun mark hmark => ?_
        obtain ⟨place, stage, hstage, hopening⟩ := hears?_eq_some hmark
        exact hstages place stage hstage hopening
      rw [mark?, hasks, hhears, Option.toList_none, List.append_nil, ← hoptions]
      exact .landed (hchange.settled hphase) hsame rfl hkept hnext
  | some asked =>
      obtain ⟨-, -, hstage⟩ := asks?_eq_some hasks
      rw [mark?_of_asks? hasks]
      obtain ⟨place, exchange, stream⟩ := asked
      cases exchange with
      | startup | use => exact absurd rfl (hstages place _ hstage)
      | query request =>
          have hmarks := script_concat s.options first second stream queries request
          rw [← hoptions] at hmarks ⊢
          refine .landed (hchange.settled hphase) hsame hmarks ?_ hnext
          · intro query hquery
            rcases List.mem_append.mp hquery with hold | hnew
            · exact hkept query hold
            · rw [List.mem_singleton.mp hnew]
              exact ⟨place, hchange.job? (hown hstage rfl)⟩

theorem Scene.act {s t : Session} {marks : List Mark} {action : Action} (h : Scene s marks)
    (hown : s.Own) (hact : s.act action = some t) :
    Scene t (marks ++ (s.mark? action).toList) := by
  cases h with
  | unclaimed hphase hconnects hmarks haside =>
      rw [hmarks]
      exact act_unclaimed hphase hconnects haside hact
  | performed hphase hconnects hstage hreached haside =>
      exact act_performed hphase hconnects hstage hreached haside hact
  | broken hphase hconnects hmarks haside => exact act_broken hphase hconnects hmarks haside hact
  | landed hphase hconnects hmarks hqueries hstages =>
      rw [hmarks]
      exact act_landed hphase hconnects hqueries hstages hown hact

theorem Run.scene {options : SessionOptions} {steps : List (Session × Action)} {s : Session}
    (h : Run (.new options) steps s) : Scene s (marks steps) := by
  induction h with
  | start =>
      refine .unclaimed (.inl rfl) rfl rfl ?_
      intro place stage _ hstage
      cases hstage
  | act _ hrun hact ih =>
      rw [marks_concat]
      exact ih.act hrun.own hact

theorem Scene.due {s : Session} {marks : List Mark} (h : Scene s marks) {action : Action}
    {asked : Asked} (hasks : s.asks? action = some asked) :
    asked.exchange.Due s.options marks := by
  obtain ⟨-, -, hstage⟩ := asks?_eq_some hasks
  obtain ⟨place, exchange, stream⟩ := asked
  cases h with
  | unclaimed _ _ _ haside | broken _ _ _ haside => cases haside place _ (by simp) hstage
  | @performed owner stage _ _ howner hreached haside =>
      by_cases hplace : place = owner
      · subst hplace
        cases howner.symm.trans hstage
        cases exchange with
        | startup | use => exact hreached
        | query => cases hreached
      · cases haside place _ (by simpa using hplace) hstage
  | landed _ _ hmarks _ hstages =>
      cases exchange with
      | startup | use => exact absurd rfl (hstages place _ hstage)
      | query => exact ⟨_, _, _, hmarks⟩

/-- A query that cannot be sent does nothing but to end, and queues nothing. -/
theorem Run.refused {options : SessionOptions} {steps : List (Session × Action)} {s : Session}
    (h : Run (.new options) steps s) {place : Nat} {err : EncodeError}
    (hjob : s.job? place = some (.query (.error err))) :
    (∀ request ∈ asked steps, request.place ≠ place) ∧
      ∀ u, (u, .move (.call place)) ∈ steps →
        u.moveCall place = some (u.moveTo place
          (.done (.error (if u.isClosed then .connectionClosed else .encode err)))) := by
  have hresting {before after : List (Session × Action)} {u : Session} {action : Action} {call : Call}
      (hsteps : steps = before ++ (u, action) :: after) (hcall : u.calls[place]? = some call) :
      call.job = .query (.error err) ∧ call.stage.isResting := by
    subst hsteps
    obtain ⟨hbefore, v, hact, hafter⟩ := h.at_step
    have hold : u.job? place = some call.job := job?_of_calls hcall
    have hrefused := Option.some_inj.mp
      ((hafter.job? ((change_of_act hact).job? hold)).symm.trans hjob)
    exact ⟨hrefused, hbefore.isResting_of_refused (hrefused ▸ hold) (stage?_of_calls hcall)⟩
  constructor
  · rintro request hrequest rfl
    obtain ⟨⟨u, action⟩, hmem, hasks⟩ := List.mem_filterMap.mp hrequest
    obtain ⟨before, after, hsteps⟩ := List.append_of_mem hmem
    obtain ⟨-, -, hstage⟩ := asks?_eq_some hasks
    obtain ⟨call, hcall, hstage⟩ := Option.map_eq_some_iff.mp hstage
    have hrest := (hresting hsteps hcall).2
    rw [hstage] at hrest
    cases hrest
  · intro u hmem
    obtain ⟨before, after, hsteps⟩ := List.append_of_mem hmem
    have hmove : ∃ v, u.moveCall place = some v := by
      subst hsteps
      obtain ⟨-, v, hact, -⟩ := h.at_step
      exact ⟨v, hact⟩
    obtain ⟨v, hmove⟩ := hmove
    obtain ⟨call, w, stage, hcall, hleads, -⟩ := leads_of_moveCall hmove
    obtain ⟨hrefused, hrest⟩ := hresting hsteps hcall
    rw [moveCall_begin hcall (hleads.resting hrest).1, hrefused, firstStage_refused]

end Session

end CqlClient
