import CqlClient.Proofs.Session.Calls
import CqlClient.Proofs.Session.Correlation

/-!
The calls that wait for a response, and the table of them. A call with a stream is in the table and
has been handed nothing, or it has been handed one result and is in the table no more. This holds
whatever the node answers.
-/

namespace CqlClient.Session

/-- The reason for which an action fails all that wait, if it does: the session has been closed. -/
def fails? (s : Session) : Action → Option ClientError
  | .move actor =>
    match s.part? actor with
    | some (.failWaiters, reason) => some reason
    | _ => none
  | _ => none

/-- What is handed out when a stream is taken out of the table. -/
def handsOn (s : Session) (stream : Int16) (result : Except ClientError Frame) :
    List (Nat × Except ClientError Frame) :=
  (s.inFlight.get? stream).toList.map (·, result)

/-- What an action hands out that concerns a single stream. -/
def handsOnce (s : Session) : Action → List (Nat × Except ClientError Frame)
  | .move .reader =>
    match s.reader.isServing, s.arrivals with
    | true, .ok frame :: _ =>
      if frame.stream = Frame.eventStream then [] else s.handsOn frame.stream (.ok frame)
    | _, _ => []
  | .move (.call place) =>
    match s.stage? place with
    | some (.check _ stream) =>
      if s.isClosed then s.handsOn stream (.error .connectionClosed) else []
    | some (.enqueue _ stream) =>
      if s.outboxOpen then [] else s.handsOn stream (.error .connectionClosed)
    | _ => []
  | _ => []

/-- The results that an action hands out, each with the place of the call that it is handed to. -/
def handsOut (s : Session) (action : Action) : List (Nat × Except ClientError Frame) :=
  match s.fails? action with
  | some reason => s.inFlight.waiters.map (·, .error reason)
  | none => s.handsOnce action

/-- The results among those handed out that are for the call at a place. -/
def resultsAt (place : Nat) (hands : List (Nat × Except ClientError Frame)) :
    List (Except ClientError Frame) :=
  hands.filterMap fun hand => if hand.1 = place then some hand.2 else none

/-- Whether the call at a place is about to take a stream. -/
def isRegistering (s : Session) (place : Nat) : Bool :=
  match s.stage? place with
  | some (.register _) => true
  | _ => false

/-- What calls have been handed since they took their streams, after another action. -/
def collect (s : Session) (action : Action) (got : Nat → List (Except ClientError Frame))
    (place : Nat) : List (Except ClientError Frame) :=
  match action with
  | .move (.call mover) =>
    if mover = place ∧ s.isRegistering place then []
    else got place ++ resultsAt place (s.handsOut action)
  | _ => got place ++ resultsAt place (s.handsOut action)

/-- What calls have been handed in a run since they took their streams. -/
def received (steps : List (Session × Action)) : Nat → List (Except ClientError Frame) :=
  steps.foldl (fun got step => step.1.collect step.2 got) fun _ => []

/-- The reasons of the closings that have been brought to their end in a run. -/
def endings (steps : List (Session × Action)) : List ClientError :=
  steps.filterMap fun step => step.1.fails? step.2

/-- A result for a call: the frame on its stream, or a reason for which the session was closed. -/
def Fits (endings : List ClientError) (stream : Int16) : Except ClientError Frame → Prop
  | .ok frame => frame.stream = stream
  | .error reason => reason = .connectionClosed ∨ reason ∈ endings

/-- Where a call stands with the table, when it has been handed some results. -/
inductive Stance (endings : List ClientError) (table : InFlight Nat) (place : Nat)
    (got : List (Except ClientError Frame)) (call : Call) : Prop
  | waits {stream : Int16} (hstream : call.stage.stream? = some stream) (hinbox : call.inbox = none)
      (hgot : got = []) (htable : ∀ other, table.get? other = some place ↔ other = stream) :
      Stance endings table place got call
  | handed {stream : Int16} {result : Except ClientError Frame}
      (hstream : call.stage.stream? = some stream) (hinbox : call.inbox = some result)
      (hgot : got = [result]) (hfits : Fits endings stream result)
      (htable : ∀ other, table.get? other ≠ some place) : Stance endings table place got call
  | ended (h : call.stage.isOver) : Stance endings table place got call
  | free (hstream : call.stage.stream? = none) (hinbox : call.inbox = none)
      (htable : ∀ other, table.get? other ≠ some place) : Stance endings table place got call

/-- The table is that of the calls, which have been handed some results. -/
structure Tabled (s : Session) (endings : List ClientError)
    (got : Nat → List (Except ClientError Frame)) : Prop where
  stances : ∀ place call, s.calls[place]? = some call →
    Stance endings s.inFlight place (got place) call
  known : ∀ stream place, s.inFlight.get? stream = some place → place < s.calls.length

/-- Hands out results. -/
def handAll (s : Session) (hands : List (Nat × Except ClientError Frame)) : Session :=
  hands.foldl (fun s hand => s.hand hand.1 hand.2) s

/-! ## Handing out results -/

theorem resultsAt_nil (place : Nat) : resultsAt place [] = [] := rfl

theorem handAll_eq (s : Session) (hands : List (Nat × Except ClientError Frame)) :
    ∃ calls, s.handAll hands = { s with calls } := by
  induction hands generalizing s with
  | nil => exact ⟨s.calls, rfl⟩
  | cons hand hands ih =>
      obtain ⟨calls, heq⟩ := ih (s.hand hand.1 hand.2)
      exact ⟨calls, heq⟩

theorem getElem?_handAll (s : Session) (hands : List (Nat × Except ClientError Frame)) (place : Nat) :
    (s.handAll hands).calls[place]? =
      s.calls[place]?.map fun call => (resultsAt place hands).foldl Call.accept call := by
  induction hands generalizing s with
  | nil => exact Option.map_id'.symm
  | cons hand hands ih =>
      rw [handAll, List.foldl_cons]
      refine (ih (s.hand hand.1 hand.2)).trans ?_
      rw [getElem?_hand]
      by_cases hplace : hand.1 = place
      · rw [if_pos hplace, Option.map_map, resultsAt, resultsAt, List.filterMap_cons, if_pos hplace]
        rfl
      · rw [if_neg hplace, resultsAt, resultsAt, List.filterMap_cons, if_neg hplace]

theorem cancel_eq_handAll (s : Session) (stream : Int16) :
    ∃ table, s.cancel stream =
      { s with inFlight := table }.handAll (s.handsOn stream (.error .connectionClosed)) ∧
        ∀ other, table.get? other = if other = stream then none else s.inFlight.get? other := by
  unfold cancel
  split
  · next hnone =>
    have hfree := InFlight.take?_eq_none.mp hnone
    refine ⟨s.inFlight, by rw [handsOn, hfree]; rfl, ?_⟩
    intro other
    split
    · next heq => rw [heq, hfree]
    · rfl
  · next place table htake =>
    obtain ⟨hwaits, htable⟩ := InFlight.take?_eq_some htake
    exact ⟨table, by rw [handsOn, hwaits]; rfl, htable⟩

theorem closePart_eq_handAll (s : Session) (reason : ClientError) :
    s.closePart reason .failWaiters = { s with inFlight := s.inFlight.drain.2 }.handAll
      (s.inFlight.waiters.map (·, .error reason)) := by
  rw [handAll, InFlight.waiters, List.foldl_map, List.foldl_map]
  rfl

theorem dispatch_eq_handAll (s : Session) {frame : Frame} (hframe : frame.stream ≠ Frame.eventStream) :
    ∃ table reader, s.dispatch frame =
      { { s with inFlight := table }.handAll (s.handsOn frame.stream (.ok frame)) with reader } ∧
        ∀ other, table.get? other = if other = frame.stream then none else s.inFlight.get? other := by
  rw [dispatch, if_neg hframe]
  split
  · next place table htake =>
    obtain ⟨hwaits, htable⟩ := InFlight.take?_eq_some htake
    exact ⟨table, s.reader, by rw [handsOn, hwaits]; rfl, htable⟩
  · next hnone =>
    have hfree := InFlight.take?_eq_none.mp hnone
    refine ⟨s.inFlight, { s.reader with duty := .striking }, by rw [handsOn, hfree]; rfl, ?_⟩
    intro other
    split
    · next heq => rw [heq, hfree]
    · rfl

theorem resultsAt_handsOn (s : Session) (stream : Int16) (result : Except ClientError Frame)
    (place : Nat) :
    resultsAt place (s.handsOn stream result) =
      if s.inFlight.get? stream = some place then [result] else [] := by
  rw [handsOn]
  cases s.inFlight.get? stream with
  | none => rfl
  | some other => by_cases hplace : other = place <;> simp [resultsAt, hplace]

theorem resultsAt_waiters (table : InFlight Nat) (result : Except ClientError Frame) (place : Nat) :
    resultsAt place (table.waiters.map (·, result)) =
      (table.entries.filter fun entry => entry.2 = place).map fun _ => result := by
  rw [InFlight.waiters, List.map_map]
  induction table.entries with
  | nil => rfl
  | cons entry entries ih =>
      by_cases hplace : entry.2 = place <;> simp_all [resultsAt]

theorem resultsAt_waiters_eq_nil {table : InFlight Nat} {place : Nat}
    (h : ∀ stream, table.get? stream ≠ some place) (result : Except ClientError Frame) :
    resultsAt place (table.waiters.map (·, result)) = [] := by
  rw [resultsAt_waiters, List.map_eq_nil_iff, List.filter_eq_nil_iff]
  rintro ⟨stream, other⟩ hmem hplace
  apply h stream
  rw [InFlight.mem_entries.mp hmem]
  simpa using hplace

theorem resultsAt_waiters_eq_singleton {table : InFlight Nat} {place : Nat} {stream : Int16}
    (h : ∀ other, table.get? other = some place ↔ other = stream)
    (result : Except ClientError Frame) :
    resultsAt place (table.waiters.map (·, result)) = [result] := by
  have hentries : table.entries.filter (fun entry => entry.2 = place) = [(stream, place)] := by
    have hnodup := (List.Nodup.of_map _ table.nodup_streams).filter fun entry => entry.2 = place
    refine List.perm_singleton.mp ?_
    refine (List.perm_ext_iff_of_nodup hnodup (List.nodup_singleton _)).mpr ?_
    rintro ⟨other, holder⟩
    rw [List.mem_filter, InFlight.mem_entries, List.mem_singleton, Prod.mk.injEq, decide_eq_true_iff]
    constructor
    · rintro ⟨hholder, rfl⟩
      exact ⟨(h other).mp hholder, rfl⟩
    · rintro ⟨rfl, rfl⟩
      exact ⟨(h other).mpr rfl, rfl⟩
  rw [resultsAt_waiters, hentries]
  rfl

/-! ## Where a call stands -/

theorem stage_foldl_accept (call : Call) (results : List (Except ClientError Frame)) :
    (results.foldl Call.accept call).stage = call.stage := by
  induction results generalizing call with
  | nil => rfl
  | cons result results ih => rw [List.foldl_cons, ih, stage_accept]

theorem accept_of_stream? {call : Call} {stream : Int16} (hstream : call.stage.stream? = some stream)
    (hinbox : call.inbox = none) (result : Except ClientError Frame) :
    call.accept result = { call with inbox := some result } := by
  rw [Call.accept, Call.hasStream_eq, hstream, hinbox]
  rfl

theorem fits_closed (endings : List ClientError) (stream : Int16) :
    Fits endings stream (.error .connectionClosed) := Or.inl rfl

section Stance

variable {endings : List ClientError} {table : InFlight Nat} {place : Nat}
  {got : List (Except ClientError Frame)} {call : Call}

theorem Stance.of_iff {next : InFlight Nat} (h : Stance endings table place got call)
    (htable : ∀ stream, next.get? stream = some place ↔ table.get? stream = some place) :
    Stance endings next place got call := by
  cases h with
  | waits hstream hinbox hgot hholds =>
      exact .waits hstream hinbox hgot fun other => (htable other).trans (hholds other)
  | handed hstream hinbox hgot hfits hholds =>
      exact .handed hstream hinbox hgot hfits fun other => mt (htable other).mp (hholds other)
  | ended hover => exact .ended hover
  | free hstream hinbox hholds =>
      exact .free hstream hinbox fun other => mt (htable other).mp (hholds other)

theorem Stance.mono {more : List ClientError} (h : Stance endings table place got call) :
    Stance (endings ++ more) table place got call := by
  cases h with
  | waits hstream hinbox hgot hholds => exact .waits hstream hinbox hgot hholds
  | @handed _ result hstream hinbox hgot hfits hholds =>
      refine .handed hstream hinbox hgot ?_ hholds
      cases result with
      | ok => exact hfits
      | error => exact hfits.imp_right (List.mem_append_left more)
  | ended hover => exact .ended hover
  | free hstream hinbox hholds => exact .free hstream hinbox hholds

/-- Streams are taken out of the table, and a result is handed to the calls that held them. -/
theorem Stance.hand {next : InFlight Nat} {gone : Int16 → Prop} [DecidablePred gone]
    {result : Except ClientError Frame} {results : List (Except ClientError Frame)}
    (h : Stance endings table place got call)
    (htable : ∀ other, next.get? other = if gone other then none else table.get? other)
    (hnone : (∀ stream, table.get? stream = some place → ¬ gone stream) → results = [])
    (hone : ∀ stream, (∀ other, table.get? other = some place ↔ other = stream) → gone stream →
      results = [result])
    (hfits : ∀ stream, gone stream → Fits endings stream result) :
    Stance endings next place (got ++ results) (results.foldl Call.accept call) := by
  have hnever (hholds : ∀ other, table.get? other ≠ some place) :
      results = [] ∧ ∀ other, next.get? other ≠ some place := by
    refine ⟨hnone fun stream hholder => absurd hholder (hholds stream), fun other => ?_⟩
    rw [htable]
    split
    · exact nofun
    · exact hholds other
  cases h with
  | @waits stream hstream hinbox hgot hholds =>
      by_cases hgone : gone stream
      · rw [hone stream hholds hgone, hgot, List.foldl_cons, List.foldl_nil,
          accept_of_stream? hstream hinbox]
        refine .handed hstream rfl rfl (hfits stream hgone) fun other => ?_
        rw [htable]
        split
        · exact nofun
        · next hkept =>
          intro hholder
          exact hkept ((hholds other).mp hholder ▸ hgone)
      · rw [hnone fun other hholder => (hholds other).mp hholder ▸ hgone, List.append_nil]
        refine .waits hstream hinbox hgot fun other => ?_
        rw [htable, ← hholds other]
        split
        · next hother =>
          refine ⟨nofun, fun hholder => ?_⟩
          exact absurd ((hholds other).mp hholder ▸ hother) hgone
        · exact Iff.rfl
  | handed hstream hinbox hgot hfits' hholds =>
      obtain ⟨hresults, hnext⟩ := hnever hholds
      rw [hresults, List.append_nil]
      exact .handed hstream hinbox hgot hfits' hnext
  | ended hover => exact .ended (stage_foldl_accept call results ▸ hover)
  | free hstream hinbox hholds =>
      obtain ⟨hresults, hnext⟩ := hnever hholds
      rw [hresults]
      exact .free hstream hinbox hnext

theorem Stance.moveFree {stage : Stage} (h : Stance endings table place got call)
    (hold : call.stage.stream? = none) (hover : ¬ call.stage.isOver) (hstage : stage.stream? = none) :
    Stance endings table place got { call with stage } := by
  cases h with
  | waits hstream | handed hstream => cases hold.symm.trans hstream
  | ended h => exact absurd h hover
  | free _ hinbox hholds => exact .free hstage hinbox hholds

theorem Stance.moveAlong {stage : Stage} (h : Stance endings table place got call)
    (hover : ¬ call.stage.isOver) (hstage : stage.stream? = call.stage.stream?) :
    Stance endings table place got { call with stage } := by
  cases h with
  | waits hstream hinbox hgot hholds => exact .waits (hstage.trans hstream) hinbox hgot hholds
  | handed hstream hinbox hgot hfits hholds =>
      exact .handed (hstage.trans hstream) hinbox hgot hfits hholds
  | ended h => exact absurd h hover
  | free hstream hinbox hholds => exact .free (hstage.trans hstream) hinbox hholds

end Stance

/-! ## The table of the calls -/

theorem tabled_new (options : SessionOptions) : Tabled (.new options) [] fun _ => [] where
  stances := fun _ _ hcall => by cases hcall
  known := by
    intro stream place hholder
    rw [Session.new, InFlight.get?_empty] at hholder
    cases hholder

section Tabled

variable {s : Session} {endings : List ClientError} {got : Nat → List (Except ClientError Frame)}

theorem Tabled.of_same {t : Session} (h : Tabled s endings got) (hcalls : t.calls = s.calls)
    (hinFlight : t.inFlight = s.inFlight) : Tabled t endings got where
  stances := by
    rw [hcalls, hinFlight]
    exact h.stances
  known := by
    rw [hcalls, hinFlight]
    exact h.known

theorem Tabled.mono (h : Tabled s endings got) (more : List ClientError) :
    Tabled s (endings ++ more) got where
  stances := fun place call hcall => (h.stances place call hcall).mono
  known := h.known

theorem length_handAll (s : Session) (hands : List (Nat × Except ClientError Frame)) :
    (s.handAll hands).calls.length = s.calls.length := by
  induction hands generalizing s with
  | nil => rfl
  | cons hand hands ih => exact (ih (s.hand hand.1 hand.2)).trans (List.length_modify ..)

theorem Tabled.hand (h : Tabled s endings got) {table : InFlight Nat} {gone : Int16 → Prop}
    [DecidablePred gone] {result : Except ClientError Frame}
    {hands : List (Nat × Except ClientError Frame)}
    (htable : ∀ other, table.get? other = if gone other then none else s.inFlight.get? other)
    (hnone : ∀ place, (∀ stream, s.inFlight.get? stream = some place → ¬ gone stream) →
      resultsAt place hands = [])
    (hone : ∀ place stream, (∀ other, s.inFlight.get? other = some place ↔ other = stream) →
      gone stream → resultsAt place hands = [result])
    (hfits : ∀ stream, gone stream → Fits endings stream result) :
    Tabled ({ s with inFlight := table }.handAll hands) endings
      fun place => got place ++ resultsAt place hands := by
  obtain ⟨calls, heq⟩ := handAll_eq { s with inFlight := table } hands
  have hinFlight : ({ s with inFlight := table }.handAll hands).inFlight = table := by rw [heq]
  constructor
  case stances =>
    intro place call hcall
    rw [getElem?_handAll] at hcall
    obtain ⟨old, hold, rfl⟩ := Option.map_eq_some_iff.mp hcall
    rw [hinFlight]
    exact (h.stances place old hold).hand htable (hnone place) (hone place) hfits
  case known =>
    intro stream place hholder
    rw [hinFlight, htable] at hholder
    split at hholder
    · cases hholder
    · rw [length_handAll]
      exact h.known stream place hholder

/-- One stream is taken out of the table, and its call is handed a result. -/
theorem Tabled.handOn (h : Tabled s endings got) {table : InFlight Nat} {stream : Int16}
    {result : Except ClientError Frame}
    (htable : ∀ other, table.get? other = if other = stream then none else s.inFlight.get? other)
    (hfits : Fits endings stream result) :
    Tabled ({ s with inFlight := table }.handAll (s.handsOn stream result)) endings
      fun place => got place ++ resultsAt place (s.handsOn stream result) := by
  refine h.hand htable ?_ ?_ fun other heq => (heq : other = stream) ▸ hfits
  · intro place hothers
    rw [resultsAt_handsOn, if_neg fun hholder => hothers stream hholder rfl]
  · rintro place _ hholds rfl
    rw [resultsAt_handsOn, if_pos ((hholds _).mpr rfl)]

/-- All streams are taken out of the table, and their calls are handed a reason. -/
theorem Tabled.failWaiters (h : Tabled s endings got) {reason : ClientError}
    (hreason : reason ∈ endings) :
    Tabled (s.closePart reason .failWaiters) endings
      fun place => got place ++ resultsAt place (s.inFlight.waiters.map (·, .error reason)) := by
  rw [closePart_eq_handAll]
  have htable : ∀ other, s.inFlight.drain.2.get? other =
      if True then none else s.inFlight.get? other := by
    intro other
    rw [if_pos trivial, InFlight.get?_drain]
  have hfits : ∀ stream, True → Fits endings stream (.error reason) := fun _ _ => Or.inr hreason
  refine h.hand htable ?_ ?_ hfits
  · intro place hothers
    exact resultsAt_waiters_eq_nil (fun stream hholder => hothers stream hholder trivial) _
  · intro place stream hholds _
    exact resultsAt_waiters_eq_singleton hholds _

theorem Tabled.moveTo (h : Tabled s endings got) {place : Nat} {stage : Stage}
    (hnext : ∀ call, s.calls[place]? = some call →
      Stance endings s.inFlight place (got place) call →
        Stance endings s.inFlight place (got place) { call with stage }) :
    Tabled (s.moveTo place stage) endings got where
  stances := by
    intro other found hfound
    by_cases hplace : other = place
    · subst hplace
      rw [getElem?_moveTo, if_pos rfl] at hfound
      obtain ⟨call, hcall, rfl⟩ := Option.map_eq_some_iff.mp hfound
      exact hnext call hcall (h.stances other call hcall)
    · rw [getElem?_moveTo_ne s hplace] at hfound
      exact h.stances other found hfound
  known := by
    intro stream other hholder
    exact Nat.lt_of_lt_of_eq (h.known stream other hholder) (List.length_modify ..).symm

theorem Tabled.moveOver (h : Tabled s endings got) {place : Nat} {stage : Stage}
    (hover : stage.isOver) : Tabled (s.moveTo place stage) endings got :=
  h.moveTo fun _ _ _ => .ended hover

/-- What a call that is over has been handed does not matter. -/
theorem Tabled.forget (h : Tabled s endings got) {place : Nat} {stage : Stage}
    (hstage : s.stage? place = some stage) (hover : stage.isOver) :
    Tabled s endings fun other => if place = other then [] else got other where
  stances := by
    intro other call hcall
    by_cases hplace : place = other
    · subst hplace
      cases hstage.symm.trans (stage?_of_calls hcall)
      exact .ended hover
    · rw [if_neg hplace]
      exact h.stances other call hcall
  known := h.known

/-- The call takes a stream that is free. -/
theorem Tabled.register (h : Tabled s endings got) {place : Nat} {call : Call} {exchange : Exchange}
    {stream : Int16} {table : InFlight Nat} (hcall : s.calls[place]? = some call)
    (hstage : call.stage = .register exchange)
    (hregister : s.inFlight.register place = some (stream, table)) :
    Tabled ({ s with inFlight := table }.moveTo place (.check exchange stream)) endings
      fun other => if place = other then [] else got other := by
  obtain ⟨hfree, -, htable⟩ := InFlight.register_eq_some hregister
  constructor
  case stances =>
    intro other found hfound
    by_cases hplace : place = other
    · subst hplace
      rw [getElem?_moveTo_self (s := { s with inFlight := table }) hcall] at hfound
      cases hfound
      have hstance := h.stances place call hcall
      cases hstance with
      | waits hstream | handed hstream => rw [hstage] at hstream; cases hstream
      | ended hover => rw [hstage] at hover; cases hover
      | free _ hinbox hholds =>
          refine .waits rfl hinbox (if_pos rfl) fun other => ?_
          show table.get? other = some place ↔ other = stream
          rw [htable]
          split
          · next heq => exact iff_of_true rfl heq
          · next hne => exact iff_of_false (hholds other) hne
    · rw [getElem?_moveTo_ne _ (Ne.symm hplace)] at hfound
      rw [if_neg hplace]
      refine (h.stances other found hfound).of_iff fun stream' => ?_
      show table.get? stream' = some other ↔ _
      rw [htable]
      split
      · next heq =>
        rw [heq, hfree, Option.some_inj]
        exact iff_of_false hplace nofun
      · exact Iff.rfl
  case known =>
    intro stream' other hholder
    change table.get? stream' = some other at hholder
    refine Nat.lt_of_lt_of_eq ?_ (List.length_modify ..).symm
    rw [htable] at hholder
    split at hholder
    · cases hholder
      exact (List.getElem?_eq_some_iff.mp hcall).1
    · exact h.known stream' other hholder

end Tabled

/-! ## What actions hand out -/

theorem collect_of_quiet {s : Session} {action : Action} (hout : s.handsOut action = [])
    (htakes : ∀ place, action = .move (.call place) → s.isRegistering place = false)
    (got : Nat → List (Except ClientError Frame)) : s.collect action got = got := by
  funext place
  unfold collect
  split
  · next mover =>
    rw [if_neg, hout]
    · exact List.append_nil _
    · rintro ⟨rfl, htake⟩
      rw [htakes mover rfl] at htake
      cases htake
  · rw [hout]
    exact List.append_nil _

theorem collect_of_works {s t : Session} {action : Action} (h : s.Works action t)
    (got : Nat → List (Except ClientError Frame)) :
    s.collect action got = fun place => got place ++ resultsAt place (s.handsOut action) := by
  funext place
  unfold collect
  split
  · cases h
  · rfl

theorem collect_of_moves {s : Session} {mover : Nat} (htakes : s.isRegistering mover = false)
    (got : Nat → List (Except ClientError Frame)) :
    s.collect (.move (.call mover)) got =
      fun place => got place ++ resultsAt place (s.handsOut (.move (.call mover))) := by
  funext place
  apply if_neg
  rintro ⟨rfl, htake⟩
  rw [htakes] at htake
  cases htake

/-- A part of closing leaves the calls and the table alone, unless it fails those that wait. -/
theorem Tabled.closePart {s : Session} {endings : List ClientError}
    {got : Nat → List (Except ClientError Frame)} (h : Tabled s endings got) {reason : ClientError}
    {part : Closing} (hpart : part = .failWaiters → reason ∈ endings) :
    Tabled (s.closePart reason part) endings fun place => got place ++ resultsAt place
      (if part = .failWaiters then s.inFlight.waiters.map (·, .error reason) else []) := by
  have hsame (hcalls : (s.closePart reason part).calls = s.calls)
      (hinFlight : (s.closePart reason part).inFlight = s.inFlight) (hpart : part ≠ .failWaiters) :
      Tabled (s.closePart reason part) endings fun place => got place ++ resultsAt place
        (if part = .failWaiters then s.inFlight.waiters.map (·, .error reason) else []) := by
    simp only [if_neg hpart, resultsAt_nil, List.append_nil]
    exact h.of_same hcalls hinFlight
  cases part with
  | latch | dropOutbox => exact hsame rfl rfl nofun
  | stopWorkers =>
      apply hsame _ _ nofun
      all_goals
        rw [Session.closePart]
        split <;> rfl
  | failWaiters => exact h.failWaiters (hpart rfl)

theorem fails?_eq {s : Session} {actor : Actor} {part : Closing} {reason : ClientError}
    (h : s.part? actor = some (part, reason)) :
    s.fails? (.move actor) = if part = .failWaiters then some reason else none := by
  cases part <;> simp [fails?, h]

/-- Somebody who is closing the session hands out nothing but its reason. -/
theorem handsOut_of_part? {s : Session} {actor : Actor} {part : Closing} {reason : ClientError}
    (h : s.part? actor = some (part, reason)) :
    s.handsOut (.move actor) =
      if part = .failWaiters then s.inFlight.waiters.map (·, .error reason) else [] := by
  rw [handsOut, fails?_eq h]
  by_cases hpart : part = .failWaiters
  · rw [if_pos hpart, if_pos hpart]
  rw [if_neg hpart, if_neg hpart]
  cases actor with
  | reader =>
      have hidle : s.reader.isServing = false := by
        rw [Worker.isServing]
        cases hduty : s.reader.duty with
        | serving =>
            rw [part?, hduty] at h
            cases h
        | _ => rfl
      simp [handsOnce, hidle]
  | call place =>
      obtain ⟨stage, hstage, hpart⟩ := Option.bind_eq_some_iff.mp h
      cases stage with
      | close => simp [handsOnce, hstage]
      | _ => cases hpart
  | writer | closer => rfl

theorem Tabled.moveFree {s : Session} {endings : List ClientError}
    {got : Nat → List (Except ClientError Frame)} (h : Tabled s endings got) {place : Nat}
    {old stage : Stage} (hstage : s.stage? place = some old) (hold : old.stream? = none)
    (hover : ¬ old.isOver) (hnext : stage.stream? = none) :
    Tabled (s.moveTo place stage) endings got := by
  apply h.moveTo
  intro call hcall hstance
  cases hstage.symm.trans (stage?_of_calls hcall)
  exact hstance.moveFree hold hover hnext

theorem Tabled.moveAlong {s : Session} {endings : List ClientError}
    {got : Nat → List (Except ClientError Frame)} (h : Tabled s endings got) {place : Nat}
    {old stage : Stage} (hstage : s.stage? place = some old) (hover : ¬ old.isOver)
    (hnext : stage.stream? = old.stream?) : Tabled (s.moveTo place stage) endings got := by
  apply h.moveTo
  intro call hcall hstance
  cases hstage.symm.trans (stage?_of_calls hcall)
  exact hstance.moveAlong hover hnext

/-- A stream is given up: it is taken out of the table, and the call is over. -/
theorem Tabled.giveUp {s : Session} {endings : List ClientError}
    {got : Nat → List (Except ClientError Frame)} (h : Tabled s endings got) {place : Nat}
    {stage : Stage} (stream : Int16) (hover : stage.isOver) :
    Tabled ((s.cancel stream).moveTo place stage) endings fun other =>
      got other ++ resultsAt other (s.handsOn stream (.error .connectionClosed)) := by
  obtain ⟨table, heq, htable⟩ := cancel_eq_handAll s stream
  rw [heq]
  exact (h.handOn htable (fits_closed endings stream)).moveOver hover

/-- The call takes what it has been handed. -/
theorem Tabled.take {s : Session} {endings : List ClientError}
    {got : Nat → List (Except ClientError Frame)} (h : Tabled s endings got) {place : Nat}
    {call : Call} {exchange : Exchange} {stream : Int16} {result : Except ClientError Frame}
    {stage : Stage} (hcall : s.calls[place]? = some call)
    (hstage : call.stage = .await exchange stream) (hinbox : call.inbox = some result)
    (hnext : stage.stream? = none) (strikes : Nat) :
    Tabled ({ s with calls := s.calls.set place { call with inbox := none }, strikes }.moveTo
      place stage) endings got where
  stances := by
    intro other found hfound
    rw [getElem?_moveTo] at hfound
    split at hfound
    · next hplace =>
      subst hplace
      obtain ⟨_, htaken, rfl⟩ := Option.map_eq_some_iff.mp hfound
      rw [List.getElem?_set_self', hcall] at htaken
      cases htaken
      have hstance := h.stances place call hcall
      cases hstance with
      | waits _ hnone => cases hnone.symm.trans hinbox
      | handed _ _ _ _ hholds => exact .free hnext rfl hholds
      | ended hover => rw [hstage] at hover; cases hover
      | free hnone => rw [hstage] at hnone; cases hnone
    · next hplace =>
      rw [List.getElem?_set_ne hplace] at hfound
      exact h.stances other found hfound
  known := by
    intro stream' other hholder
    refine Nat.lt_of_lt_of_eq (h.known stream' other hholder) ?_
    rw [Session.moveTo, List.length_modify, List.length_set]

theorem collect_of_register {s : Session} {mover : Nat} (htakes : s.isRegistering mover)
    (hout : s.handsOut (.move (.call mover)) = []) (got : Nat → List (Except ClientError Frame)) :
    s.collect (.move (.call mover)) got = fun place => if mover = place then [] else got place := by
  funext place
  by_cases hplace : mover = place
  · subst hplace
    rw [if_pos rfl]
    exact if_pos ⟨rfl, htakes⟩
  · rw [if_neg hplace]
    refine (if_neg fun h => hplace h.1).trans ?_
    rw [hout, resultsAt_nil, List.append_nil]

/-- A call that has a stream gives it up before it queues its request only in a closed session. -/
theorem isClosed_of_check {s t : Session} {place : Nat} {call : Call} {exchange : Exchange}
    {stream : Int16} {stage : Stage} (hcall : s.calls[place]? = some call)
    (hold : call.stage = .check exchange stream) (hmove : s.moveCall place = some t)
    (hstage : t.stage? place = some stage) (hover : stage.isOver) : s.isClosed := by
  by_contra hopen
  simp only [moveCall, hcall, Option.bind_eq_bind, Option.bind_some, hold, if_neg hopen,
    Option.some_inj] at hmove
  rw [← hmove, stage?_moveTo_self (stage?_of_calls hcall)] at hstage
  cases hstage
  cases hover

/-- A step of a call keeps the table that of the calls. -/
theorem Tabled.moves {s u : Session} {endings : List ClientError}
    {got : Nat → List (Except ClientError Frame)} (h : Tabled s endings got) {place : Nat}
    {call : Call} {stage : Stage} (hcall : s.calls[place]? = some call)
    (hleads : Leads s place call call.stage u stage)
    (hmove : s.moveCall place = some (u.moveTo place stage)) :
    Tabled (u.moveTo place stage) (endings ++ (s.fails? (.move (.call place))).toList)
      (s.collect (.move (.call place)) got) := by
  have hstage := stage?_of_calls hcall
  generalize hold : call.stage = old at hleads hstage
  have hnone (hpart : old.part? = none) : s.fails? (.move (.call place)) = none := by
    simp [fails?, part?, hstage, hpart]
  have hout {hands : List (Nat × Except ClientError Frame)} (hpart : old.part? = none)
      (hhands : s.handsOnce (.move (.call place)) = hands) :
      s.handsOut (.move (.call place)) = hands := by
    rw [handsOut, hnone hpart]
    exact hhands
  have hsame : u.calls = s.calls → u.inFlight = s.inFlight → Tabled u endings got := h.of_same
  -- Most steps neither take a stream nor hand anything out.
  have hquiet (hpart : old.part? = none) (hhands : s.handsOnce (.move (.call place)) = [])
      (htakes : s.isRegistering place = false) (hnext : Tabled (u.moveTo place stage) endings got) :
      Tabled (u.moveTo place stage) (endings ++ (s.fails? (.move (.call place))).toList)
        (s.collect (.move (.call place)) got) := by
    rw [collect_of_quiet (hout hpart hhands)]
    · exact hnext.mono _
    · rintro _ ⟨⟩
      exact htakes
  have hgivesUp (stream : Int16) (hpart : old.part? = none) (htakes : s.isRegistering place = false)
      (hhands : s.handsOnce (.move (.call place)) =
        s.handsOn stream (.error .connectionClosed)) (hover : stage.isOver) :
      Tabled ((s.cancel stream).moveTo place stage)
        (endings ++ (s.fails? (.move (.call place))).toList)
          (s.collect (.move (.call place)) got) := by
    rw [collect_of_moves htakes, hout hpart hhands]
    exact (h.mono _).giveUp stream hover
  cases hleads with
  | begin =>
      exact hquiet rfl (by simp [handsOnce, hstage]) (by simp [isRegistering, hstage])
        (h.moveFree hstage rfl Bool.false_ne_true (stream?_firstStage ..))
  | settle hsettled =>
      exact hquiet rfl (by simp [handsOnce, hstage]) (by simp [isRegistering, hstage])
        (h.moveFree hstage rfl Bool.false_ne_true (stream?_settled hsettled))
  | claim | claimed | connect | openOutbox | startWorkers | recordWorkers | land =>
      exact hquiet rfl (by simp [handsOnce, hstage]) (by simp [isRegistering, hstage])
        ((hsame rfl rfl).moveFree hstage rfl Bool.false_ne_true rfl)
  | unreachable | closed =>
      exact hquiet rfl (by simp [handsOnce, hstage]) (by simp [isRegistering, hstage]) (h.moveOver rfl)
  | register hregister =>
      rw [collect_of_register (by simp [isRegistering, hstage])
        (hout rfl (by simp [handsOnce, hstage]))]
      exact (h.mono _).register hcall hold hregister
  | exhausted _ hover =>
      rw [collect_of_register (by simp [isRegistering, hstage])
        (hout rfl (by simp [handsOnce, hstage]))]
      exact ((h.mono _).moveOver hover).forget (stage?_moveTo_self hstage stage) hover
  | check hopen exchange stream =>
      refine hquiet rfl ?_ (by simp [isRegistering, hstage]) (h.moveAlong hstage Bool.false_ne_true rfl)
      simp [handsOnce, hstage, isClosed, hopen]
  | refused stream _ hover =>
      refine hgivesUp stream rfl (by simp [isRegistering, hstage]) ?_ hover
      have hnext := stage?_moveTo_self ((stage?_cancel s stream place).trans hstage) stage
      simp [handsOnce, hstage, isClosed_of_check hcall hold hmove hnext hover]
  | enqueue hopen exchange stream =>
      refine hquiet rfl ?_ (by simp [isRegistering, hstage])
        ((hsame rfl rfl).moveAlong hstage Bool.false_ne_true rfl)
      simp [handsOnce, hstage, hopen]
  | lost hgone stream _ hover =>
      refine hgivesUp stream rfl (by simp [isRegistering, hstage]) ?_ hover
      simp [handsOnce, hstage, hgone]
  | await hinbox stream strikes hto =>
      exact hquiet rfl (by simp [handsOnce, hstage]) (by simp [isRegistering, hstage])
        (h.take hcall hold hinbox (stream?_leadsTo hto) strikes)
  | close part reason result =>
      have hpart : s.part? (.call place) = some (part, reason) := by
        rw [part?, hstage]
        rfl
      rw [collect_of_moves (by simp [isRegistering, hstage]), handsOut_of_part? hpart, fails?_eq hpart]
      refine ((h.mono _).closePart ?_).moveOver (isOver_stageAfter ..)
      intro hlast
      rw [if_pos hlast]
      exact List.mem_append_right _ (List.mem_singleton_self reason)

/-- Somebody other than a call does a part of closing, and goes on to the next. -/
theorem act_of_part? {s t : Session} {actor : Actor} {part : Closing} {reason : ClientError}
    (hpart : s.part? actor = some (part, reason)) (hcall : ∀ place, actor ≠ .call place)
    (hact : s.act (.move actor) = some t) :
    ∃ reader writer closers, t = { s.closePart reason part with reader, writer, closers } := by
  cases actor with
  | reader =>
      simp only [act, move, moveReader] at hact
      cases hduty : s.reader.duty with
      | closing =>
          rw [part?, hduty] at hpart
          rw [hduty] at hact
          cases hpart
          cases hact
          exact ⟨_, _, _, rfl⟩
      | _ => rw [part?, hduty] at hpart; cases hpart
  | writer =>
      simp only [act, move, moveWriter] at hact
      cases hduty : s.writer.duty with
      | closing =>
          rw [part?, hduty] at hpart
          rw [hduty] at hact
          cases hpart
          cases hact
          exact ⟨_, _, _, rfl⟩
      | _ => rw [part?, hduty] at hpart; cases hpart
  | closer place =>
      simp only [act, move, moveCloser] at hact
      split at hact
      · next hcloser =>
        rw [part?, hcloser] at hpart
        cases hpart
        cases hact
        exact ⟨_, _, _, rfl⟩
      · cases hact
  | call place => exact absurd rfl (hcall place)

/-- What happens without a call keeps the table that of the calls. -/
theorem Tabled.works {s t : Session} {endings : List ClientError}
    {got : Nat → List (Except ClientError Frame)} (h : Tabled s endings got) {action : Action}
    (hworks : s.Works action t) (hact : s.act action = some t) :
    Tabled t (endings ++ (s.fails? action).toList) (s.collect action got) := by
  by_cases hcloses : ∃ actor part reason, action = .move actor ∧ s.part? actor = some (part, reason)
  · obtain ⟨actor, part, reason, rfl, hpart⟩ := hcloses
    have hcall : ∀ place, actor ≠ .call place := by
      rintro place rfl
      cases hworks
    obtain ⟨_, _, _, rfl⟩ := act_of_part? hpart hcall hact
    rw [collect_of_works hworks, handsOut_of_part? hpart, fails?_eq hpart]
    refine .of_same ((h.mono _).closePart ?_) rfl rfl
    intro hlast
    rw [if_pos hlast]
    exact List.mem_append_right _ (List.mem_singleton_self reason)
  have hfails : s.fails? action = none := by
    unfold fails?
    split
    · next actor =>
      split
      · next hpart => exact absurd ⟨actor, _, _, rfl, hpart⟩ hcloses
      · rfl
    · rfl
  rw [hfails, Option.toList_none, List.append_nil, collect_of_works hworks, handsOut, hfails]
  have hquiet (hhands : s.handsOnce action = []) (hnext : Tabled t endings got) :
      Tabled t endings fun place => got place ++ resultsAt place (s.handsOnce action) := by
    rw [hhands]
    simp only [resultsAt_nil, List.append_nil]
    exact hnext
  cases hworks with
  | @reads frame rest hserving harrivals =>
      by_cases hevent : frame.stream = Frame.eventStream
      · refine hquiet (by simp [handsOnce, hserving, harrivals, hevent]) ?_
        rw [dispatch, if_pos hevent]
        exact h.of_same rfl rfl
      · obtain ⟨table, reader, heq, htable⟩ :=
          dispatch_eq_handAll { s with arrivals := rest } hevent
        have hhands : s.handsOnce (.move .reader) = s.handsOn frame.stream (.ok frame) := by
          simp [handsOnce, hserving, harrivals, hevent]
        rw [heq, hhands]
        have hnext : Tabled { s with arrivals := rest } endings got := h.of_same rfl rfl
        exact .of_same (hnext.handOn htable rfl) rfl rfl
  | ends hserving harrivals =>
      exact hquiet (by simp [handsOnce, harrivals]) (h.of_same rfl rfl)
  | strikes hstriking =>
      exact hquiet (by simp [handsOnce, Worker.isServing, hstriking]) (h.of_same rfl rfl)
  | readerCloses hduty => exact absurd ⟨.reader, _, _, rfl, by rw [part?, hduty]; rfl⟩ hcloses
  | writerCloses hduty => exact absurd ⟨.writer, _, _, rfl, by rw [part?, hduty]; rfl⟩ hcloses
  | closes hcloser => exact absurd ⟨.closer _, _, _, rfl, by rw [part?, hcloser]; rfl⟩ hcloses
  | pause =>
      apply hquiet rfl
      unfold Session.pause
      split <;> exact h.of_same rfl rfl
  | _ => exact hquiet rfl (h.of_same rfl rfl)

/-- A new call has no stream. -/
theorem Tabled.called {s : Session} {endings : List ClientError}
    {got : Nat → List (Except ClientError Frame)} (h : Tabled s endings got) (job : Job)
    (limit : Option Span) : Tabled (s.call job limit) endings got where
  stances := by
    intro place call hcall
    rw [Session.call, List.getElem?_append] at hcall
    split at hcall
    · exact h.stances place call hcall
    · next hnew =>
      rw [List.getElem?_singleton] at hcall
      split at hcall <;> cases hcall
      exact .free rfl rfl fun stream hholder => hnew (h.known stream place hholder)
  known := by
    intro stream place hholder
    rw [Session.call, List.length_append]
    exact Nat.lt_add_right _ (h.known stream place hholder)

theorem Tabled.act {s t : Session} {endings : List ClientError}
    {got : Nat → List (Except ClientError Frame)} (h : Tabled s endings got) {action : Action}
    (hact : s.act action = some t) :
    Tabled t (endings ++ (s.fails? action).toList) (s.collect action got) := by
  cases change_of_act hact with
  | moves hcall hleads => exact h.moves hcall hleads hact
  | waitOver =>
      rw [collect_of_quiet rfl (by simp)]
      exact (h.mono _).moveOver rfl
  | @left place _ haction _ stage _ hstage =>
      have hover : stage.isOver := by
        rcases hstage with rfl | ⟨_, rfl⟩ <;> rfl
      rcases haction with rfl | rfl <;> rw [collect_of_quiet rfl (by simp)] <;>
        exact (h.mono _).moveOver hover
  | called =>
      rw [collect_of_quiet rfl (by simp)]
      exact (h.mono _).called ..
  | works hworks => exact h.works hworks hact

theorem received_concat (steps : List (Session × Action)) (s : Session) (action : Action) :
    received (steps ++ [(s, action)]) = s.collect action (received steps) :=
  List.foldl_concat ..

theorem endings_concat (steps : List (Session × Action)) (s : Session) (action : Action) :
    endings (steps ++ [(s, action)]) = endings steps ++ (s.fails? action).toList := by
  rw [endings, List.filterMap_append, endings]
  cases hfails : s.fails? action <;> simp [hfails]

/-- Whatever the node does, a call that has a stream is in the table and has been handed nothing, or
it has been handed one result that fits and is in the table no more. -/
theorem Run.tabled {options : SessionOptions} {steps : List (Session × Action)} {s : Session}
    (h : Run (.new options) steps s) : Tabled s (endings steps) (received steps) := by
  induction h with
  | start => exact tabled_new options
  | act _ _ hact ih =>
      rw [received_concat, endings_concat]
      exact ih.act hact

end CqlClient.Session
