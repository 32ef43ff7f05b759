import CqlClient.Proofs.NameMap
import CqlClient.Proofs.Query.Counters
import CqlClient.Proofs.Text.Octets

/-!
What becomes of a query. It is accepted if its placeholders and its bound names are the same, no
counter stands where it is not added, and every value has a cell. Otherwise it is refused for the
first placeholder without a value, or for the first name, in the order of octets, with a value to
which something is to be objected. The order in which values are bound makes no difference.
-/

namespace CqlClient

open Utf8

namespace Query

variable {text name : String} {param : TypedValue} {e : EncodeError}

/-! ## One value -/

/-- Whether a placeholder of the name stands in the text. -/
def Placed (text name : String) : Prop := ∃ p ∈ placeholders text, p.name = name

/-- Whether a value may stand at the placeholders of its name: a counter must be added or subtracted
at all of them. -/
def WellPlaced (text name : String) (param : TypedValue) : Prop :=
  param.type = .scalar .counter → ∀ p ∈ placeholders text, p.name = name → p.increment = true

/-- What is to be objected to a value that is bound to a name. The name is looked at first, then the
placeholders, and the value last. -/
inductive Objection (text name : String) (param : TypedValue) : EncodeError → Prop where
  | unknown : ¬ Placed text name → Objection text name param (.unknownParameter name)
  | misplaced : Placed text name → ¬ WellPlaced text name param →
      Objection text name param .counterAssignment
  | unencodable {e : EncodeError} : Placed text name → WellPlaced text name param →
      param.type.encode param.value = .error e → Objection text name param e

theorem filter_placeholders_eq_nil_iff :
    (placeholders text).filter (·.name == name) = [] ↔ ¬ Placed text name := by
  simp [Placed, List.filter_eq_nil_iff]

theorem misplacesCounter_iff :
    misplacesCounter param.type ((placeholders text).filter (·.name == name)) = true ↔
      ¬ WellPlaced text name param := by
  simp [misplacesCounter, WellPlaced]

theorem exists_encodeParameter_iff_placed :
    (∃ sent, encodeParameter (placeholders text) name param = .ok sent) ↔
      Placed text name ∧ WellPlaced text name param ∧
        ∃ cell, param.type.encode param.value = .ok cell := by
  rw [exists_encodeParameter_iff, Ne, filter_placeholders_eq_nil_iff, not_not,
    ← Bool.not_eq_true, misplacesCounter_iff, not_not]

theorem encodeParameter_of_not_placed (h : ¬ Placed text name) :
    encodeParameter (placeholders text) name param = .error (.unknownParameter name) := by
  simp only [encodeParameter]
  rw [if_pos (List.isEmpty_iff.mpr (filter_placeholders_eq_nil_iff.mpr h))]

theorem encodeParameter_of_not_wellPlaced (hplaced : Placed text name)
    (h : ¬ WellPlaced text name param) :
    encodeParameter (placeholders text) name param = .error .counterAssignment :=
  encodeParameter_of_misplaced (fun hnone => filter_placeholders_eq_nil_iff.mp hnone hplaced)
    (misplacesCounter_iff.mpr h)

theorem encodeParameter_of_wellPlaced (hplaced : Placed text name)
    (h : WellPlaced text name param) :
    encodeParameter (placeholders text) name param =
      (param.type.encode param.value).map (name, ·) := by
  have hused : ¬ ((placeholders text).filter (·.name == name)).isEmpty = true := by
    rw [List.isEmpty_iff, filter_placeholders_eq_nil_iff]
    exact not_not_intro hplaced
  simp only [encodeParameter]
  rw [if_neg hused, if_neg fun hcounter => misplacesCounter_iff.mp hcounter h]
  rfl

theorem encodeParameter_eq_error_iff :
    encodeParameter (placeholders text) name param = .error e ↔ Objection text name param e := by
  constructor
  · intro h
    by_cases hplaced : Placed text name
    · by_cases hwell : WellPlaced text name param
      · rw [encodeParameter_of_wellPlaced hplaced hwell, map_eq_error] at h
        exact .unencodable hplaced hwell h
      · rw [encodeParameter_of_not_wellPlaced hplaced hwell] at h
        cases h
        exact .misplaced hplaced hwell
    · rw [encodeParameter_of_not_placed hplaced] at h
      cases h
      exact .unknown hplaced
  · intro h
    cases h with
    | unknown hplaced => exact encodeParameter_of_not_placed hplaced
    | misplaced hplaced hwell => exact encodeParameter_of_not_wellPlaced hplaced hwell
    | unencodable hplaced hwell hcell =>
        rw [encodeParameter_of_wellPlaced hplaced hwell, map_eq_error]
        exact hcell

theorem exists_encodeParameter_iff_forall_not_objection :
    (∃ sent, encodeParameter (placeholders text) name param = .ok sent) ↔
      ∀ e, ¬ Objection text name param e := by
  simp only [← encodeParameter_eq_error_iff]
  cases encodeParameter (placeholders text) name param <;> simp

/-! ## All values -/

/-- What a query is refused for: the first placeholder whose name is not bound, or if there is none,
an objection to the value of a name, if to those before it in the order of octets there is none. -/
inductive Refusal (query : Query) : EncodeError → Prop where
  | missing {front back : List Placeholder} {p : Placeholder} :
      placeholders query.text = front ++ p :: back →
      (∀ q ∈ front, query.params.get? q.name ≠ none) → query.params.get? p.name = none →
      Refusal query (.missingParameter p.name)
  | objection {name : String} {param : TypedValue} {e : EncodeError} :
      (∀ p ∈ placeholders query.text, query.params.get? p.name ≠ none) →
      query.params.get? name = some param → Objection query.text name param e →
      (∀ earlier other, query.params.get? earlier = some other → encode earlier < encode name →
        ∀ e, ¬ Objection query.text earlier other e) →
      Refusal query e

/-- What a request carries: the text and the consistency of the query, and for each bound name the
cell of its value, in strictly increasing order of the octets of names. -/
structure Carries (query : Query) (request : QueryRequest) : Prop where
  text_eq : request.text = query.text
  consistency_eq : request.consistency = query.consistency
  ordered : request.values.Pairwise fun a b => encode a.1 < encode b.1
  mem_iff : ∀ name cell, (name, cell) ∈ request.values ↔
    ∃ param, query.params.get? name = some param ∧ param.type.encode param.value = .ok cell

variable {query : Query}

/-- The first placeholder whose name is not bound. -/
def unbound? (query : Query) : Option Placeholder :=
  (placeholders query.text).find? fun p => (query.params.get? p.name).isNone

theorem unbound?_eq_none_iff :
    query.unbound? = none ↔ ∀ p ∈ placeholders query.text, query.params.get? p.name ≠ none := by
  simp [unbound?, List.find?_eq_none]

theorem unbound?_eq_some_iff {p : Placeholder} :
    query.unbound? = some p ↔ ∃ front back, placeholders query.text = front ++ p :: back ∧
      (∀ q ∈ front, query.params.get? q.name ≠ none) ∧ query.params.get? p.name = none := by
  simp only [unbound?, List.find?_eq_some_iff_append, Option.isNone_iff_eq_none,
    Bool.not_eq_true', Option.isNone_eq_false_iff, Option.isSome_iff_ne_none]
  constructor
  · rintro ⟨hp, front, back, htext, hfront⟩
    exact ⟨front, back, htext, hfront, hp⟩
  · rintro ⟨front, back, htext, hfront, hp⟩
    exact ⟨hp, front, back, htext, hfront⟩

/-- The cells of the bound values, if to none of them something is to be objected. -/
def encodeAll (query : Query) : Except EncodeError (List (String × Cell)) :=
  query.params.entries.mapM fun (name, param) =>
    encodeParameter (placeholders query.text) name param

theorem toRequest_of_unbound {p : Placeholder} (h : query.unbound? = some p) :
    query.toRequest = .error (.missingParameter p.name) := by
  rw [unbound?] at h
  simp only [toRequest, h]

theorem toRequest_of_bound (h : query.unbound? = none) :
    query.toRequest = query.encodeAll.map (⟨query.text, query.consistency, ·⟩) := by
  rw [unbound?] at h
  simp only [toRequest, h]
  rfl

/-- The names in front of one among the entries are those before it. -/
theorem forall_mem_front_iff {front back : List (String × TypedValue)}
    {entry : String × TypedValue} {P : String → TypedValue → Prop}
    (h : query.params.entries = front ++ entry :: back) :
    (∀ other ∈ front, P other.1 other.2) ↔ ∀ earlier other,
      query.params.get? earlier = some other → encode earlier < encode entry.1 →
        P earlier other := by
  have hsorted := query.params.sorted
  rw [h, List.pairwise_append, List.pairwise_cons] at hsorted
  obtain ⟨-, ⟨hback, -⟩, hfront⟩ := hsorted
  constructor
  · intro hall earlier other hget hlt
    rw [NameMap.get?_eq_some_iff, h, List.mem_append, List.mem_cons] at hget
    rw [encode_lt_encode_iff] at hlt
    rcases hget with hmem | rfl | hmem
    · exact hall _ hmem
    · exact absurd hlt (String.lt_irrefl _)
    · exact absurd hlt (String.lt_asymm (hback _ hmem))
  · intro hall other hmem
    refine hall other.1 other.2 ?_ (encode_lt_encode (hfront _ hmem _ List.mem_cons_self))
    rw [NameMap.get?_eq_some_iff, h]
    exact List.mem_append_left _ hmem

theorem encodeAll_eq_error_iff :
    query.encodeAll = .error e ↔
      ∃ name param, query.params.get? name = some param ∧ Objection query.text name param e ∧
        ∀ earlier other, query.params.get? earlier = some other → encode earlier < encode name →
          ∀ e, ¬ Objection query.text earlier other e := by
  simp only [encodeAll, mapM_eq_error_iff, encodeParameter_eq_error_iff,
    exists_encodeParameter_iff_forall_not_objection]
  constructor
  · rintro ⟨front, entry, back, hentries, hfront, hobjection⟩
    refine ⟨entry.1, entry.2, ?_, hobjection, (forall_mem_front_iff hentries).mp hfront⟩
    rw [NameMap.get?_eq_some_iff, hentries]
    exact List.mem_append_right _ List.mem_cons_self
  · rintro ⟨name, param, hget, hobjection, hearlier⟩
    obtain ⟨front, back, hentries⟩ := List.append_of_mem (NameMap.get?_eq_some_iff.mp hget)
    exact ⟨front, _, back, hentries, (forall_mem_front_iff hentries).mpr hearlier, hobjection⟩

theorem exists_encodeAll_iff :
    (∃ values, query.encodeAll = .ok values) ↔
      ∀ name param, query.params.get? name = some param →
        Placed query.text name ∧ WellPlaced query.text name param ∧
          ∃ cell, param.type.encode param.value = .ok cell := by
  simp only [encodeAll, exists_mapM_iff, exists_encodeParameter_iff_placed,
    NameMap.get?_eq_some_iff, Prod.forall]

theorem toRequest_eq_error_iff : query.toRequest = .error e ↔ Refusal query e := by
  constructor
  · intro h
    cases hunbound : query.unbound? with
    | some p =>
        rw [toRequest_of_unbound hunbound] at h
        cases h
        obtain ⟨front, back, htext, hfront, hp⟩ := unbound?_eq_some_iff.mp hunbound
        exact .missing htext hfront hp
    | none =>
        rw [toRequest_of_bound hunbound, map_eq_error, encodeAll_eq_error_iff] at h
        obtain ⟨name, param, hget, hobjection, hearlier⟩ := h
        exact .objection (unbound?_eq_none_iff.mp hunbound) hget hobjection hearlier
  · intro h
    cases h with
    | missing htext hfront hp =>
        exact toRequest_of_unbound (unbound?_eq_some_iff.mpr ⟨_, _, htext, hfront, hp⟩)
    | objection hbound hget hobjection hearlier =>
        rw [toRequest_of_bound (unbound?_eq_none_iff.mpr hbound), map_eq_error,
          encodeAll_eq_error_iff]
        exact ⟨_, _, hget, hobjection, hearlier⟩

/-- A query is accepted if the names of its placeholders are those that are bound, and every value
is well placed and has a cell. -/
theorem exists_toRequest_iff :
    (∃ request, query.toRequest = .ok request) ↔
      (∀ name, Placed query.text name ↔ query.params.get? name ≠ none) ∧
        ∀ name param, query.params.get? name = some param →
          WellPlaced query.text name param ∧
            ∃ cell, param.type.encode param.value = .ok cell := by
  cases hunbound : query.unbound? with
  | some p =>
      obtain ⟨front, back, htext, -, hp⟩ := unbound?_eq_some_iff.mp hunbound
      have hplaced : Placed query.text p.name :=
        ⟨p, htext ▸ List.mem_append_right _ List.mem_cons_self, rfl⟩
      rw [toRequest_of_unbound hunbound]
      exact iff_of_false (not_exists_error _) fun h => (h.1 p.name).mp hplaced hp
  | none =>
      have hmade : (∃ request, query.toRequest = .ok request) ↔
          ∃ values, query.encodeAll = .ok values := by
        simp [toRequest_of_bound hunbound, map_eq_ok]
      have hbound : ∀ name, Placed query.text name → query.params.get? name ≠ none := by
        rintro name ⟨p, hp, rfl⟩
        exact unbound?_eq_none_iff.mp hunbound p hp
      rw [hmade, exists_encodeAll_iff]
      constructor
      · intro h
        refine ⟨fun name => ⟨hbound name, fun hname => ?_⟩, fun name param hget => (h _ _ hget).2⟩
        obtain ⟨param, hget⟩ := Option.ne_none_iff_exists'.mp hname
        exact (h name param hget).1
      · rintro ⟨hsame, hvalues⟩ name param hget
        exact ⟨(hsame name).mpr (by simp [hget]), hvalues name param hget⟩

theorem carries_of_toRequest {request : QueryRequest} (h : query.toRequest = .ok request) :
    Carries query request := by
  obtain ⟨htext, hconsistency, hsends⟩ := toRequest_eq_ok h
  have hnames : request.values.map Prod.fst = query.params.names := names_eq_of_sends hsends
  refine ⟨htext, hconsistency, ?_, fun name cell => ⟨fun hmem => ?_, ?_⟩⟩
  · have hsorted : query.params.names.Pairwise (· < ·) := List.pairwise_map.mpr query.params.sorted
    rw [← hnames, List.pairwise_map] at hsorted
    exact hsorted.imp encode_lt_encode
  · obtain ⟨⟨name', param⟩, hentry, rfl, hcell⟩ := exists_of_mem_right hsends _ hmem
    exact ⟨param, NameMap.get?_eq_some_iff.mpr hentry, hcell⟩
  · rintro ⟨param, hget, hcell⟩
    have hname : name ∈ request.values.map Prod.fst := by
      rw [hnames]
      exact List.mem_map_of_mem (NameMap.get?_eq_some_iff.mp hget)
    obtain ⟨⟨name', cell'⟩, hmem, rfl⟩ := List.mem_map.mp hname
    obtain ⟨⟨name'', param'⟩, hentry, rfl, hcell'⟩ := exists_of_mem_right hsends _ hmem
    rw [← NameMap.get?_eq_some_iff, hget] at hentry
    cases hentry
    cases hcell.symm.trans hcell'
    exact hmem

/-! ## In any order -/

/-- Whether an entry may stand in front of another in the order of the octets of names. -/
def precedes (a b : String × TypedValue) : Bool := encode a.1 ≤ encode b.1

/-- The request of a text and of values that come in some order and are then sorted by the octets of
their names. -/
def requestFrom (text : String) (consistency : Consistency) (entries : List (String × TypedValue)) :
    Except EncodeError QueryRequest := do
  let found := placeholders text
  match found.find? fun p => (entries.lookup p.name).isNone with
  | some missing => .error (.missingParameter missing.name)
  | none =>
    let values ← (entries.mergeSort precedes).mapM fun (name, param) =>
      encodeParameter found name param
    return ⟨text, consistency, values⟩

theorem pairwise_mergeSort_precedes (entries : List (String × TypedValue)) :
    (entries.mergeSort precedes).Pairwise fun a b => precedes a b = true := by
  refine List.pairwise_mergeSort ?_ ?_ entries
  · intro a b c hab hbc
    exact decide_eq_true (List.le_trans (of_decide_eq_true hab) (of_decide_eq_true hbc))
  · intro a b
    rw [Bool.or_eq_true]
    exact (List.le_total (encode a.1) (encode b.1)).imp decide_eq_true decide_eq_true

/-- The entries of a map, in whatever order they come, are sorted into one order. -/
theorem mergeSort_precedes_of_perm {params : Parameters} {entries : List (String × TypedValue)}
    (h : entries.Perm params.entries) : entries.mergeSort precedes = params.entries := by
  have hmade : (entries.mergeSort precedes).Perm params.entries :=
    (List.mergeSort_perm ..).trans h
  refine List.Perm.eq_of_pairwise ?_ (pairwise_mergeSort_precedes entries) ?_ hmade
  · intro a b ha hb hab hba
    have hname : a.1 = b.1 :=
      encode_injective (List.le_antisymm (of_decide_eq_true hab) (of_decide_eq_true hba))
    have hget := NameMap.get?_eq_some_iff.mpr (hmade.mem_iff.mp ha)
    rw [hname, NameMap.get?_eq_some_iff.mpr hb] at hget
    exact Prod.ext hname (Option.some.inj hget).symm
  · refine params.sorted.imp fun hlt => decide_eq_true ?_
    exact List.le_of_lt (encode_lt_encode hlt)

theorem requestFrom_eq {entries : List (String × TypedValue)}
    (h : entries.Perm query.params.entries) :
    requestFrom query.text query.consistency entries = query.toRequest := by
  have hlookup : ∀ name, entries.lookup name = query.params.get? name := fun name =>
    (NameMap.lookup_of_perm h.symm query.params.nodup_names name).symm
  simp only [requestFrom, hlookup, mergeSort_precedes_of_perm h]
  rfl

/-- The query with values bound in turn. -/
def bindAll (query : Query) (bindings : List (String × TypedValue)) : Query :=
  bindings.foldl (fun query (name, param) => query.bind name param) query

theorem bindAll_eq (query : Query) (bindings : List (String × TypedValue)) :
    query.bindAll bindings = { query with params := query.params.insertMany bindings } := by
  induction bindings generalizing query with
  | nil => rfl
  | cons binding bindings ih => exact ih _

theorem get?_bindAll (query : Query) (bindings : List (String × TypedValue)) (name : String) :
    (query.bindAll bindings).params.get? name =
      (bindings.reverse.lookup name).or (query.params.get? name) := by
  rw [bindAll_eq]
  exact NameMap.get?_insertMany ..

theorem bindAll_congr (query : Query) {a b : List (String × TypedValue)}
    (h : ∀ name, a.reverse.lookup name = b.reverse.lookup name) :
    query.bindAll a = query.bindAll b := by
  have hparams : query.params.insertMany a = query.params.insertMany b := by
    refine NameMap.eq_of_get?_eq fun name => ?_
    rw [NameMap.get?_insertMany, NameMap.get?_insertMany, h]
  rw [bindAll_eq, bindAll_eq, hparams]

theorem bindAll_of_perm (query : Query) {params : Parameters}
    {order : List (String × TypedValue)} (h : order.Perm params.entries) :
    query.bindAll order = query.withParameters params := by
  have hreversed : order.reverse.Perm params.entries.reverse :=
    (List.reverse_perm order).trans (h.trans (List.reverse_perm _).symm)
  have hnodup : (order.reverse.map Prod.fst).Nodup := by
    refine ((hreversed.trans (List.reverse_perm _)).map Prod.fst).nodup_iff.mpr ?_
    exact params.nodup_names
  rw [withParameters, ← bindAll_eq]
  exact query.bindAll_congr (NameMap.lookup_of_perm hreversed hnodup)

/-- A query is accepted if and only if its placeholders and its bound names are the same, every
counter is added or subtracted wherever it stands, and every value has a cell; its request then
carries these cells in the order of the octets of names. Otherwise it is refused for what comes
first. In which order the values come out of the map and have been bound makes no difference. -/
theorem toRequest_exact (query : Query) :
    ((∃ request, query.toRequest = .ok request) ↔
      (∀ name, Placed query.text name ↔ query.params.get? name ≠ none) ∧
        ∀ name param, query.params.get? name = some param →
          WellPlaced query.text name param ∧
            ∃ cell, param.type.encode param.value = .ok cell) ∧
    (∀ request, query.toRequest = .ok request → Carries query request) ∧
    (∀ e, query.toRequest = .error e ↔ Refusal query e) ∧
    (∀ entries, entries.Perm query.params.entries →
      requestFrom query.text query.consistency entries = query.toRequest) ∧
    (∀ bindings name, (query.bindAll bindings).params.get? name =
      (bindings.reverse.lookup name).or (query.params.get? name)) ∧
    (∀ a b, (∀ name, a.reverse.lookup name = b.reverse.lookup name) →
      (query.bindAll a).toRequest = (query.bindAll b).toRequest) ∧
    ∀ params order, order.Perm params.entries →
      (query.withParameters params).toRequest = (query.bindAll order).toRequest :=
  ⟨exists_toRequest_iff, fun _ => carries_of_toRequest, fun _ => toRequest_eq_error_iff,
    fun _ => requestFrom_eq, get?_bindAll query,
    fun _ _ h => congrArg toRequest (query.bindAll_congr h),
    fun _ _ h => congrArg toRequest (query.bindAll_of_perm h).symm⟩

/-- A counter that is added to a column, and the integer that says where. -/
def added : Query :=
  (Query.of "UPDATE t SET c = c + :b WHERE k = :a").bindAll
    [("b", ⟨.scalar .counter, .counterDelta 1⟩), ("a", ⟨.scalar .int, .int 7⟩)]

theorem get?_added {name : String} {param : TypedValue} :
    added.params.get? name = some param ↔
      (name, param) = ("a", ⟨.scalar .int, .int 7⟩) ∨
        (name, param) = ("b", ⟨.scalar .counter, .counterDelta 1⟩) := by
  have hentries : added.params.entries =
      [("a", ⟨.scalar .int, .int 7⟩), ("b", ⟨.scalar .counter, .counterDelta 1⟩)] := by
    rfl
  rw [NameMap.get?_eq_some_iff, hentries, List.mem_pair]

theorem placed_added {name : String} : Placed added.text name ↔ name = "a" ∨ name = "b" := by
  have hfound : placeholders added.text = [⟨"b", 21, 23, true⟩, ⟨"a", 34, 36, false⟩] := by
    decide +kernel
  simp [Placed, hfound, eq_comm, or_comm]

theorem wellPlaced_added {name : String} {param : TypedValue}
    (h : added.params.get? name = some param) : WellPlaced added.text name param := by
  have hfound : ∀ p ∈ placeholders added.text, p.name = "a" ∨ p.increment = true := by
    decide +kernel
  intro hcounter p hp hname
  rcases get?_added.mp h with hkey | hvalue
  · cases hkey
    cases hcounter
  · cases hvalue
    refine (hfound p hp).resolve_left ?_
    rw [hname]
    decide

theorem exists_encode_added {name : String} {param : TypedValue}
    (h : added.params.get? name = some param) :
    ∃ cell, param.type.encode param.value = .ok cell := by
  rcases get?_added.mp h with hkey | hvalue
  · cases hkey
    exact ⟨_, rfl⟩
  · cases hvalue
    exact ⟨_, rfl⟩

/-- A counter that is assigned to a column. -/
def assigning : Query := .of "UPDATE t SET c = :b WHERE k = :a"

/-- Values that do not fit there: the counter, and a text that is to be an integer. -/
def misfits : List (String × TypedValue) :=
  [("b", ⟨.scalar .counter, .counterDelta 1⟩), ("a", ⟨.scalar .int, .text "x"⟩)]

theorem entries_misfits : (assigning.bindAll misfits).params.entries = misfits.reverse := rfl

/-- The text is objected to, and its name comes first. -/
theorem refusal_misfits :
    Refusal (assigning.bindAll misfits) (.typeMismatch (.scalar .int) "text") := by
  have hfound : placeholders (assigning.bindAll misfits).text =
      [⟨"b", 17, 19, false⟩, ⟨"a", 30, 32, false⟩] := by decide +kernel
  refine @Refusal.objection _ "a" ⟨.scalar .int, .text "x"⟩ _ ?_ rfl (.unencodable ?_ ?_ rfl) ?_
  · rw [hfound]
    decide +kernel
  · exact ⟨⟨"a", 30, 32, false⟩, by rw [hfound]; decide, rfl⟩
  · intro h
    cases h
  · intro earlier other hget hlt
    have hfirst : ∀ entry ∈ misfits.reverse, ¬ encode entry.1 < encode "a" := by
      decide +kernel
    rw [NameMap.get?_eq_some_iff, entries_misfits] at hget
    exact absurd hlt (hfirst _ hget)

/-- A counter that is added to a column and an integer for a key are accepted. Of a counter that is
assigned and a text for a column of integers, the one whose name comes first is what the query is
refused for, whichever is bound first or comes first out of the map. -/
theorem toRequest_of_two_names :
    (∃ request, added.toRequest = .ok request ∧ Carries added request ∧
      ("a", some [0, 0, 0, 7]) ∈ request.values ∧
      ("b", some [0, 0, 0, 0, 0, 0, 0, 1]) ∈ request.values) ∧
    (∀ name, misfits.reverse.lookup name = misfits.reverse.reverse.lookup name) ∧
      misfits.Perm (assigning.bindAll misfits).params.entries ∧
      (assigning.bindAll misfits).toRequest = .error (.typeMismatch (.scalar .int) "text") ∧
      (assigning.bindAll misfits.reverse).toRequest =
        .error (.typeMismatch (.scalar .int) "text") ∧
      requestFrom assigning.text assigning.consistency misfits =
        .error (.typeMismatch (.scalar .int) "text") := by
  constructor
  · obtain ⟨haccepts, hcarries, -⟩ := toRequest_exact added
    have hnames : ∀ name, Placed added.text name ↔ added.params.get? name ≠ none := by
      intro name
      rw [placed_added, Option.ne_none_iff_exists']
      simp [get?_added, exists_or]
    obtain ⟨request, h⟩ := haccepts.mpr
      ⟨hnames, fun _ _ hget => ⟨wellPlaced_added hget, exists_encode_added hget⟩⟩
    have hcarried := hcarries request h
    exact ⟨request, h, hcarried, (hcarried.mem_iff ..).mpr ⟨_, get?_added.mpr (.inl rfl), rfl⟩,
      (hcarried.mem_iff ..).mpr ⟨_, get?_added.mpr (.inr rfl), rfl⟩⟩
  · have hsame : ∀ name, misfits.reverse.lookup name = misfits.reverse.reverse.lookup name :=
      NameMap.lookup_of_perm (List.reverse_perm _).symm (by decide)
    have hperm : misfits.Perm (assigning.bindAll misfits).params.entries :=
      entries_misfits ▸ (List.reverse_perm _).symm
    obtain ⟨-, -, hrefused, hfrom, -⟩ := toRequest_exact (assigning.bindAll misfits)
    have hfirst := (hrefused _).mpr refusal_misfits
    have hswapped := (toRequest_exact assigning).2.2.2.2.2.1 _ _ hsame
    exact ⟨hsame, hperm, hfirst, hswapped.symm.trans hfirst, (hfrom _ hperm).trans hfirst⟩

end Query

end CqlClient
