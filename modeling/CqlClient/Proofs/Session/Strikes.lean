import CqlClient.Proofs.Session.Deliveries
import CqlClient.Proofs.Session.Isolation

/-!
When breaches of the protocol close a session. They are counted by those who look, so a session is
closed for breaches as soon as too many in a row have been seen. The same number has been brought in
a row if all have looked at what they were brought, in the order in which it came. If not, it may be
otherwise: a caller that has gone away never looks, and the reader does not wait for the others to
look before he takes the next frame.
-/

namespace CqlClient

/-- If a count says how many breaches the frames end with, it still does after another frame. -/
theorem Conduct.le_count_iff {conducts : List Conduct} {strikes : Nat}
    (h : ∀ number, number ≤ strikes ↔ List.replicate number breach <:+ conducts) (conduct : Conduct)
    (number : Nat) :
    number ≤ conduct.count strikes ↔ List.replicate number breach <:+ conducts ++ [conduct] := by
  cases number with
  | zero => exact iff_of_true (Nat.zero_le _) (List.nil_suffix)
  | succ number =>
      rw [List.suffix_concat_iff, List.replicate_succ']
      cases conduct with
      | breach =>
          rw [count, Nat.add_le_add_iff_right, h]
          constructor
          · intro hsuffix
            exact .inr ⟨_, rfl, hsuffix⟩
          · rintro (hnil | ⟨earlier, heq, hsuffix⟩)
            · exact absurd hnil (List.concat_ne_nil _ _)
            · rwa [List.append_cancel_right heq]
      | answer =>
          refine iff_of_false (Nat.not_succ_le_zero _) ?_
          rintro (hnil | ⟨earlier, heq, -⟩)
          · exact List.concat_ne_nil _ _ hnil
          · cases (List.append_inj_right' heq rfl)

namespace Session

/-- A breach is seen that is one too many, and whoever sees it has the session to close. -/
def StrikesOut (s : Session) (action : Action) : Prop :=
  ∃ actor t, s.sees? action = some (actor, .breach) ∧ s.act action = some t ∧
    t.part? actor = some (.latch, s.lastStrike)

/-- Somebody has begun to close the session because of breaches of the protocol. -/
def StruckOut (steps : List (Session × Action)) : Prop :=
  ∃ step ∈ steps, step.1.StrikesOut step.2

/-- All have seen what they were brought, in the order in which it was brought. -/
def InTurn (steps : List (Session × Action)) : Prop :=
  (seen steps).map Prod.fst = (brought steps).map Prod.fst

/-! ## The count -/

theorem strikes_receive {s : Session} {place : Nat} {exchange : Exchange}
    {result : Except ClientError Frame}
    (h : ∀ request frame, exchange = .query request → result ≠ .ok frame) :
    (s.receive place exchange result).strikes = s.strikes := by
  unfold receive
  split
  · rfl
  · exact absurd rfl (h _ _ rfl)
  · rfl
  · split
    · unfold afterStartup
      split
      · rfl
      · split <;> rfl
    · rfl
  · split <;> rfl

/-- Where nothing is seen the count of breaches stays. -/
theorem strikes_of_act {s t : Session} {action : Action} (hact : s.act action = some t)
    (h : s.sees? action = none) : t.strikes = s.strikes := by
  cases change_of_act hact with
  | @moves place call u stage hcall hleads =>
      generalize hold : call.stage = old at hleads
      cases hleads with
      | refused stream | lost _ stream =>
          obtain ⟨_, _, heq⟩ := cancel_eq s stream
          rw [heq]
          rfl
      | close part reason => exact strikes_closePart s reason part
      | @await exchange _ result hinbox stream strikes =>
          -- What a step of a call is said to lead to leaves the count open here.
          have heq := Option.some_inj.mp ((act_of_inbox hcall hold hinbox).symm.trans hact)
          rw [← heq]
          refine strikes_receive fun request frame hexchange hframe => ?_
          subst hexchange hframe
          cases (sees?_of_awaits ⟨hcall, request, hold⟩ hinbox).symm.trans h
      | _ => rfl
  | waitOver | left | called => rfl
  | works hworks =>
      cases hworks with
      | reads =>
          obtain ⟨_, _, _, heq⟩ := dispatch_eq _ _
          rw [heq]
      | strikes hduty =>
          rw [sees?, holds?, if_pos hduty] at h
          cases h
      | readerCloses _ hclose | writerCloses _ hclose | closes _ hclose =>
          subst hclose
          exact strikes_closePart ..
      | pause =>
          unfold Session.pause
          split <;> rfl
      | _ => rfl

/-- The count of breaches is that of the breaches seen since the last answer. -/
theorem Run.le_strikes_iff {options : SessionOptions} {steps : List (Session × Action)} {s : Session}
    (h : Run (.new options) steps s) (number : Nat) :
    number ≤ s.strikes ↔ List.replicate number .breach <:+ (seen steps).map Prod.snd := by
  induction h generalizing number with
  | start =>
      rw [seen, List.flatMap_nil, List.map_nil, List.suffix_nil, List.replicate_eq_nil_iff]
      exact Nat.le_zero
  | @act steps s t action hrun hact ih =>
      rw [seen_concat, List.map_append]
      cases hsees : s.sees? action with
      | none =>
          rw [strikes_of_act hact hsees, Option.toList_none, List.map_nil, List.append_nil]
          exact ih number
      | some look =>
          rw [(sees_of_act hsees hact).strikes]
          exact Conduct.le_count_iff ih look.2 number

theorem strikesOut_iff {s t : Session} {action : Action} {actor : Actor} {conduct : Conduct}
    (hsees : s.sees? action = some (actor, conduct)) (hact : s.act action = some t) :
    s.StrikesOut action ↔ conduct = .breach ∧ s.options.maxProtocolErrors ≤ s.strikes + 1 := by
  rw [← (sees_of_act hsees hact).part]
  constructor
  · rintro ⟨_, _, hbreach, hnext, hpart⟩
    cases hsees.symm.trans hbreach
    cases hact.symm.trans hnext
    exact hpart
  · intro hpart
    obtain ⟨rfl, -⟩ := (sees_of_act hsees hact).part.mp hpart
    exact ⟨actor, t, hsees, hact, hpart⟩

theorem not_struckOut_nil : ¬ StruckOut [] := by
  rintro ⟨_, hmem, -⟩
  exact List.not_mem_nil hmem

/-- Breaches close the session as soon as too many in a row have been seen. -/
theorem Run.struckOut_iff_seen {options : SessionOptions} {steps : List (Session × Action)}
    {s : Session} (h : Run (.new options) steps s) (hsome : 1 ≤ options.maxProtocolErrors) :
    StruckOut steps ↔
      List.replicate options.maxProtocolErrors .breach <:+: (seen steps).map Prod.snd := by
  induction h with
  | start =>
      rw [seen, List.flatMap_nil, List.map_nil, List.infix_nil, List.replicate_eq_nil_iff]
      exact iff_of_false not_struckOut_nil (Nat.one_le_iff_ne_zero.mp hsome)
  | @act steps s t action hrun hact ih =>
      have hgrows : StruckOut (steps ++ [(s, action)]) ↔ s.StrikesOut action ∨ StruckOut steps := by
        simp only [StruckOut, List.mem_append, List.mem_singleton, or_and_right, exists_or,
          exists_eq_left, or_comm]
      rw [hgrows, seen_concat, List.map_append, ih]
      cases hsees : s.sees? action with
      | none =>
          have hquiet : ¬ s.StrikesOut action := by
            rintro ⟨_, _, hbreach, -⟩
            cases hsees.symm.trans hbreach
          rw [Option.toList_none, List.map_nil, List.append_nil, or_iff_right hquiet]
      | some look =>
          have hnext := (hrun.act action hact).le_strikes_iff options.maxProtocolErrors
          rw [seen_concat, List.map_append, hsees, (sees_of_act hsees hact).strikes] at hnext
          rw [strikesOut_iff hsees hact, hrun.options]
          refine Iff.trans (or_congr_left ?_) List.infix_concat_iff.symm
          refine Iff.trans ?_ hnext
          cases look.2 with
          | breach => exact and_iff_right rfl
          | answer =>
              refine iff_of_false (fun hbreach => ?_) (Nat.not_le_of_lt hsome)
              cases hbreach.1

/-- Where breaches have been one too many the session is closed, or somebody's next step closes it. -/
theorem Run.due_of_struckOut {options : SessionOptions} {steps : List (Session × Action)}
    {s : Session} (h : Run (.new options) steps s) (hout : StruckOut steps) :
    s.phase = .closed ∨ s.Due .latch := by
  induction h with
  | start => exact absurd hout not_struckOut_nil
  | @act steps s t action hrun hact ih =>
      obtain ⟨step, hmem, hstrikes⟩ := hout
      rcases List.mem_append.mp hmem with hold | hnew
      · rcases ih ⟨step, hold, hstrikes⟩ with hclosed | hdue
        · exact .inl ((change_of_act hact).stays_closed hclosed)
        · rcases hdue.act hact hrun.staffed.unstarted with hlater | ⟨_, _, -, hdid, -⟩
          · exact .inr hlater
          · exact .inl hdid.phase
      · cases List.mem_singleton.mp hnew
        obtain ⟨actor, next, -, hnext, hpart⟩ := hstrikes
        cases hact.symm.trans hnext
        exact .inr (due_of_part? hpart)

/-! ## What has arrived -/

/-- Breaches close a session as soon as too many in a row have been seen, by the next step of the one
who has seen the last of them. Each sees what he is brought in its order, but nobody waits for the
others with it, and one who goes away does not see what he is brought. If all have seen what they
were brought, in the order in which it came, breaches have closed the session exactly if too many
have been brought with no answer in between. -/
theorem Run.struckOut_iff {options : SessionOptions} {steps : List (Session × Action)} {s : Session}
    (h : Run (.new options) steps s) (hsome : 1 ≤ options.maxProtocolErrors) :
    (StruckOut steps ↔
      List.replicate options.maxProtocolErrors .breach <:+: (seen steps).map Prod.snd) ∧
    (StruckOut steps → s.phase = .closed ∨ s.Due .latch) ∧
    (∀ actor, (seen steps).filter (·.1 = actor) <+: (brought steps).filter (·.1 = actor)) ∧
    (InTurn steps → (StruckOut steps ↔
      List.replicate options.maxProtocolErrors .breach <:+: (brought steps).map Prod.snd)) := by
  have hseen := h.struckOut_iff_seen hsome
  refine ⟨hseen, h.due_of_struckOut, h.delivered.ordered, fun hturn => ?_⟩
  rwa [← eq_of_map_fst_eq hturn h.delivered.ordered]

/-- The node answers a query with a message that is no answer, and one breach is too many. -/
theorem struckOut_of_breach :
    ∃ steps s, Run (.new ⟨⟨"node", 9042⟩, "", standardVersion, .ofMillis 1000, 1⟩) steps s ∧
      InTurn steps ∧ StruckOut steps := by
  obtain ⟨_, hwaits⟩ := exists_run_waiting 1 ⟨"SELECT 1", .one, []⟩
  have harrives := hwaits.act (.arrive (.ok (.response 1 .ready []))) rfl ⟨rfl, rfl⟩
  have hreads := harrives.run.act (.move .reader) rfl
  have hlooks := hreads.act (.move (.call 0)) rfl
  refine ⟨_, _, hlooks, ?turn, ((hlooks.struckOut_iff (by decide)).2.2.2 ?turn).mpr ?_⟩
  · rw [InTurn, seen_concat, seen_concat, brought_concat, brought_concat, harrives.seen,
      harrives.brought]
    rfl
  · rw [brought_concat, brought_concat, harrives.brought]
    exact List.infix_rfl

/-- The caller of a query goes away, and then its response comes, which is no answer. One breach is
too many, but nobody looks at it, and the session stays open. -/
theorem not_struckOut_of_abandoned :
    ∃ steps s, Run (.new ⟨⟨"node", 9042⟩, "", standardVersion, .ofMillis 1000, 1⟩) steps s ∧
      s.phase = .active ∧ s.arrivals = [] ∧ (∀ actor, s.holds? actor = none) ∧
      ¬ StruckOut steps ∧ (brought steps).map Prod.snd = [.breach] := by
  obtain ⟨_, hwaits⟩ := exists_run_waiting 1 ⟨"SELECT 1", .one, []⟩
  have hleaves := hwaits.act (.abandon 0) rfl ⟨rfl, rfl⟩
  have harrives := hleaves.act (.arrive (.ok (.response 1 .ready []))) rfl ⟨rfl, rfl⟩
  have hreads := harrives.run.act (.move .reader) rfl
  refine ⟨_, _, hreads, rfl, rfl, ?_, fun hout => ?_, ?_⟩
  · intro actor
    cases actor with
    | call place => cases place <;> rfl
    | _ => rfl
  · rcases hreads.due_of_struckOut hout with hclosed | ⟨actor, _, _, hpart, -⟩
    · cases hclosed
    · cases actor with
      | call place => cases place <;> cases hpart
      | _ => cases hpart
  · rw [brought_concat, harrives.brought]
    rfl

/-- The response to a query comes between two frames for no one. It is an answer, but the reader has
counted both frames before the query looks. Two breaches in a row are too many, and the session is
closed, though no two have come in a row. -/
theorem struckOut_of_overtaken :
    ∃ steps s, Run (.new ⟨⟨"node", 9042⟩, "", standardVersion, .ofMillis 1000, 2⟩) steps s ∧
      s.arrivals = [] ∧ (∀ actor, s.holds? actor = none) ∧ StruckOut steps ∧
      (brought steps).map Prod.snd = [.breach, .answer, .breach] := by
  obtain ⟨_, hwaits⟩ := exists_run_waiting 2 ⟨"SELECT 1", .one, []⟩
  have hstray := hwaits.act (.arrive (.ok (.response 5 .ready []))) rfl ⟨rfl, rfl⟩
  have hanswer := hstray.act (.arrive (.ok (.response 1 .result [0, 0, 0, 1]))) rfl ⟨rfl, rfl⟩
  have harrives := hanswer.act (.arrive (.ok (.response 5 .ready []))) rfl ⟨rfl, rfl⟩
  have hreads := harrives.run.act (.move .reader) rfl
  have hcounts := hreads.act (.move .reader) rfl
  have hhands := hcounts.act (.move .reader) rfl
  have hreadsOn := hhands.act (.move .reader) rfl
  have hcountsOn := hreadsOn.act (.move .reader) rfl
  have hlooks := hcountsOn.act (.move (.call 0)) rfl
  refine ⟨_, _, hlooks, rfl, ?_, (hlooks.struckOut_iff_seen (by decide)).mpr ?_, ?_⟩
  · intro actor
    cases actor with
    | call place => cases place <;> rfl
    | _ => rfl
  · simp only [seen_concat, harrives.seen]
    exact ⟨[], [.answer], rfl⟩
  · simp only [brought_concat, harrives.brought]
    rfl

/-- When nothing is left to read or to look at, the breaches that have been brought can still say the
wrong thing, either way. -/
theorem not_struckOut_iff_brought :
    (∃ steps s, Run (.new ⟨⟨"node", 9042⟩, "", standardVersion, .ofMillis 1000, 1⟩) steps s ∧
      s.arrivals = [] ∧ (∀ actor, s.holds? actor = none) ∧
      ¬ (StruckOut steps ↔ List.replicate 1 .breach <:+: (brought steps).map Prod.snd)) ∧
    ∃ steps s, Run (.new ⟨⟨"node", 9042⟩, "", standardVersion, .ofMillis 1000, 2⟩) steps s ∧
      s.arrivals = [] ∧ (∀ actor, s.holds? actor = none) ∧
      ¬ (StruckOut steps ↔ List.replicate 2 .breach <:+: (brought steps).map Prod.snd) := by
  constructor
  · obtain ⟨steps, s, hrun, -, harrivals, hholds, hout, hbrought⟩ := not_struckOut_of_abandoned
    refine ⟨steps, s, hrun, harrivals, hholds, fun hiff => hout (hiff.mpr ?_)⟩
    rw [hbrought]
    exact List.infix_rfl
  · obtain ⟨steps, s, hrun, harrivals, hholds, hout, hbrought⟩ := struckOut_of_overtaken
    refine ⟨steps, s, hrun, harrivals, hholds, fun hiff => ?_⟩
    have hrow := hiff.mp hout
    rw [hbrought] at hrow
    revert hrow
    decide

end Session

end CqlClient
