import CqlClient.Message.Request
import CqlClient.Proofs.Message.Field

/-!
The bodies of requests. A request whose lengths and counts their words can state is read back as it
was written, its options in any order, and no other request is ever read. The reader takes more
bodies than a client writes: options with repeated keys, and queries with flags of any kind.
-/

namespace CqlClient

open CqlClient.Field

/-- The lengths and the count in the body of a query are those that their words can state. -/
structure QueryRequest.Fits (query : QueryRequest) : Prop where
  text_le : octetLength query.text ≤ 0x7fffffff
  count_le : query.values.length ≤ 0xffff
  name_le : ∀ entry ∈ query.values, octetLength entry.1 ≤ 0xffff
  value_le : ∀ entry ∈ query.values, ∀ octets, entry.2 = some octets → octets.length ≤ 0x7fffffff

namespace Request

/-- The octets of a value with its name. -/
def entryBody (entry : String × Option Bytes) : Bytes :=
  Field.ofString entry.1 ++ Field.ofValue entry.2

theorem takes_readValue (place : Nat) {entry : String × Option Bytes}
    (hname : octetLength entry.1 ≤ 0xffff)
    (hvalue : ∀ octets, entry.2 = some octets → octets.length ≤ 0x7fffffff) :
    Takes (readValue true place) (entryBody entry) entry :=
  (takes_string _ hname).bind ((takes_value _ hvalue).bind_pure _)

theorem takes_readQuery {query : QueryRequest} (h : query.Fits) :
    Takes readQuery (queryBody query) query := by
  obtain ⟨text, consistency, values⟩ := query
  rw [queryBody, List.append_assoc]
  refine (takes_longString _ h.text_le).bind ((takes_word16 _ _).bind ?_)
  simp only [Consistency.ofCode?_code]
  by_cases hempty : values = []
  · subst hempty
    rw [show valuesBody [] = [0] ++ [] from rfl]
    exact (takes_octet _ 0).bind (Takes.pure _)
  · rw [valuesBody, if_neg (by simpa using hempty), List.cons_append, ← List.singleton_append]
    apply (takes_octet _ _).bind
    rw [if_neg (by decide)]
    apply (takes_word16_ofNat _ _).bind
    rw [Bytes.toNat_toWord16_ofNat h.count_le]
    refine Takes.bind_pure _ (Takes.repeatFrom 0 ?_)
    intro place entry hentry
    exact takes_readValue place (h.name_le entry hentry) (h.value_le entry hentry)

/-- The place of an unnamed value, in decimal, is a short text. -/
theorem octetLength_text_le {n : Nat} (h : n ≤ 0xffff) : octetLength (Integer.text n) ≤ 0xffff := by
  have hdigits : (Integer.digits n).length ≤ 5 :=
    (Nat.length_toDigits_le_iff (by decide) (by decide)).mpr (by omega)
  have hoctets := octetLength_ofList_le (Integer.digits n)
  rw [Integer.text, if_neg (by omega), Int.natAbs_natCast]
  omega

theorem yields_readValue (isNamed : Bool) {place : Nat} (h : place ≤ 0xffff) :
    Yields (readValue isNamed place) fun entry => octetLength entry.1 ≤ 0xffff ∧
      ∀ octets, entry.2 = some octets → octets.length ≤ 0x7fffffff := by
  have hentry (name : String) (hname : octetLength name ≤ 0xffff) :
      Yields (Field.value "bound value" >>= fun value => pure (name, value)) fun entry =>
        octetLength entry.1 ≤ 0xffff ∧
          ∀ octets, entry.2 = some octets → octets.length ≤ 0x7fffffff :=
    (yields_value _).bind fun value hvalue => Yields.pure ⟨hname, hvalue⟩
  cases isNamed with
  | true => exact (yields_string _).bind hentry
  | false => exact hentry _ (octetLength_text_le h)

theorem yields_readQuery : Yields readQuery QueryRequest.Fits := by
  refine (yields_longString _).bind ?_
  intro text htext
  refine (Yields.trivial _).bind ?_
  intro code _
  split
  · exact Yields.fail _ _
  · refine (Yields.trivial _).bind ?_
    intro flags _
    split
    · exact Yields.pure ⟨htext, by simp, by simp, by simp⟩
    · refine (Yields.trivial _).bind ?_
      intro count _
      have hcount := count.toNat_lt
      have hvalues : Yields (repeatFrom (readValue (flags &&& namesFlag ≠ 0)) 0 count.toNat) _ :=
        Yields.repeatFrom fun place hplace => yields_readValue _ (by omega)
      refine hvalues.bind fun values ⟨hlength, hentries⟩ => Yields.pure ⟨htext, ?_, ?_, ?_⟩
      · show values.length ≤ 0xffff
        omega
      · intro entry hentry
        exact (hentries entry hentry).1
      · intro entry hentry
        exact (hentries entry hentry).2

/-- A query is read back from its body if and only if it fits: what does not fit is read as another
request, or as none. -/
theorem decode_queryBody_iff {query : QueryRequest} :
    decode .query (queryBody query) = .ok (.query query) ↔ query.Fits := by
  have hwhole : decode .query (queryBody query) = .ok (.query query) ↔
      (Request.query <$> readQuery) (queryBody query) = .ok (.query query, []) :=
    read_finish_eq_ok
  rw [hwhole]
  constructor
  · intro h
    have hfits : Yields (Request.query <$> readQuery)
        fun request => ∀ query, request = .query query → query.Fits :=
      yields_readQuery.map fun query hquery _ heq => Request.query.inj heq ▸ hquery
    exact hfits _ _ _ h query rfl
  · intro h
    have htakes := (takes_readQuery h).map Request.query []
    rwa [List.append_nil] at htakes

/-! ## Options -/

/-- The lengths of options and their number are those that their words can state. -/
def OptionsFit : List (String × String) → Prop :=
  Counted fun entry => octetLength entry.1 ≤ 0xffff ∧ octetLength entry.2 ≤ 0xffff

theorem takes_readOptions {entries : List (String × String)} (h : OptionsFit entries) :
    Takes readOptions (optionsBody entries) (.ofList entries) := by
  refine takes_counted _ NameMap.ofList h ?_
  rintro entry ⟨hkey, hvalue⟩
  exact (takes_string _ hkey).bind ((takes_string _ hvalue).bind_pure _)

theorem yields_readOptions : Yields readOptions fun named => OptionsFit named.entries := by
  refine yields_counted _ NameMap.ofList ?_ fun entries => Counted.ofList
  refine (yields_string _).bind fun key hkey => ?_
  exact (yields_string _).bind fun value hvalue => Yields.pure ⟨hkey, hvalue⟩

/-! ## Queries with any flags -/

/-- The octets of a value, with its name if names are sent. -/
def flaggedEntry (isNamed : Bool) (entry : String × Option Bytes) : Bytes :=
  (if isNamed then Field.ofString entry.1 else []) ++ Field.ofValue entry.2

/-- The body of a query under given flags: values are sent if one flag says so, and their names if
another does. The other flags mean nothing. -/
def flaggedBody (query : QueryRequest) (flags : UInt8) : Bytes :=
  Field.ofLongString query.text ++ (Bytes.ofWord16 query.consistency.code ++ ([flags] ++
    if flags &&& valuesFlag = 0 then []
    else Bytes.ofNat 2 query.values.length ++
      query.values.flatMap (flaggedEntry (flags &&& namesFlag ≠ 0))))

/-- A value as it is read at its place, by which it is named if its name is not sent. -/
def placedEntry (isNamed : Bool) (place : Nat) (entry : String × Option Bytes) :
    String × Option Bytes :=
  (if isNamed then entry.1 else Integer.text place, entry.2)

/-- The query that is sent under given flags. -/
def flaggedQuery (query : QueryRequest) (flags : UInt8) : QueryRequest :=
  { query with
    values := if flags &&& valuesFlag = 0 then []
      else query.values.zipIdx.map fun (entry, place) =>
        placedEntry (flags &&& namesFlag ≠ 0) place entry }

theorem takes_flaggedEntry (isNamed : Bool) (place : Nat) {entry : String × Option Bytes}
    (hname : octetLength entry.1 ≤ 0xffff)
    (hvalue : ∀ octets, entry.2 = some octets → octets.length ≤ 0x7fffffff) :
    Takes (readValue isNamed place) (flaggedEntry isNamed entry)
      (placedEntry isNamed place entry) := by
  have htakes := takes_value "bound value" hvalue
  cases isNamed with
  | true => exact (takes_string _ hname).bind (htakes.bind_pure _)
  | false => exact (Takes.pure (Integer.text place)).bind (htakes.bind_pure _)

theorem takes_flaggedBody {query : QueryRequest} (h : query.Fits) (flags : UInt8) :
    Takes readQuery (flaggedBody query flags) (flaggedQuery query flags) := by
  refine (takes_longString _ h.text_le).bind ((takes_word16 _ _).bind ?_)
  simp only [Consistency.ofCode?_code]
  apply (takes_octet _ flags).bind
  by_cases hflag : flags &&& valuesFlag = 0
  · simp only [flaggedQuery, if_pos hflag]
    exact Takes.pure _
  · simp only [flaggedQuery, if_neg hflag]
    apply (takes_word16_ofNat _ _).bind
    rw [Bytes.toNat_toWord16_ofNat h.count_le]
    refine Takes.bind_pure _ (Takes.repeatFrom_zipIdx 0 ?_)
    intro place entry hentry
    exact takes_flaggedEntry _ place (h.name_le entry hentry) (h.value_le entry hentry)

/-! ## Requests -/

/-- The lengths and counts in the body of a request are those that their words can state. -/
def Fits : Request → Prop
  | startup named => OptionsFit named.entries
  | options => True
  | query q => q.Fits

/-- Whether a request may be written as this body: its options may come in any order. -/
def HasBody (request : Request) (body : Bytes) : Prop :=
  match request with
  | startup named => ∃ entries, entries.Perm named.entries ∧ body = optionsBody entries
  | other => body = other.body

theorem hasBody_body (request : Request) : request.HasBody request.body := by
  cases request with
  | startup named => exact ⟨named.entries, .refl _, rfl⟩
  | options => rfl
  | query q => rfl

theorem decode_of_hasBody {request : Request} (h : request.Fits) {body : Bytes}
    (hbody : request.HasBody body) : decode request.opcode body = .ok request := by
  cases request with
  | startup named =>
      obtain ⟨entries, order, rfl⟩ := hbody
      have htakes := (takes_readOptions (Counted.of_perm h order)).map startup
      rw [NameMap.ofList_of_perm order] at htakes
      exact htakes.read_finish
  | options =>
      subst hbody
      exact (Takes.pure options).read_finish
  | query q =>
      subst hbody
      exact decode_queryBody_iff.mpr h

theorem fits_of_decode {opcode : Opcode} {bytes : Bytes} {request : Request}
    (h : decode opcode bytes = .ok request) : request.opcode = opcode ∧ request.Fits := by
  have hread (step : Reader Request) (hyields : Yields step fun r => r.opcode = opcode ∧ r.Fits)
      (h : read (do let r ← step; finish; return r) bytes = .ok request) :
      request.opcode = opcode ∧ request.Fits :=
    hyields _ _ _ (read_finish_eq_ok.mp h)
  cases opcode with
  | startup =>
      exact hread (startup <$> readOptions) (yields_readOptions.map fun _ hfits => ⟨rfl, hfits⟩) h
  | options => exact hread (pure options) (Yields.pure ⟨rfl, trivial⟩) h
  | query => exact hread (query <$> readQuery) (yields_readQuery.map fun _ hfits => ⟨rfl, hfits⟩) h
  | error | ready | authenticate | supported | result | event => cases h

/-- Requests that fit are what the reader of requests reads: each is read back from every body that
it may be written as, and whatever is read fits. What no client writes is read as well: of options
with repeated keys the last one of a key, and of values that are sent without names each by its
place, whatever the other flags are. -/
theorem decode_hasBody_and_fits :
    (∀ request : Request, request.HasBody request.body ∧
      (request.Fits → ∀ body, request.HasBody body → decode request.opcode body = .ok request)) ∧
    (∀ opcode bytes request, decode opcode bytes = .ok request →
      request.opcode = opcode ∧ request.Fits ∧
        ∀ body, request.HasBody body → decode request.opcode body = .ok request) ∧
    (∀ entries, OptionsFit entries →
      decode .startup (optionsBody entries) = .ok (startup (.ofList entries))) ∧
    ∀ q : QueryRequest, q.Fits → ∀ flags,
      decode .query (flaggedBody q flags) = .ok (query (flaggedQuery q flags)) := by
  refine ⟨?_, ?_, ?_, ?_⟩
  · intro request
    exact ⟨hasBody_body request, fun h _ => decode_of_hasBody h⟩
  · intro opcode bytes request h
    obtain ⟨hopcode, hfits⟩ := fits_of_decode h
    exact ⟨hopcode, hfits, fun body hbody => decode_of_hasBody hfits hbody⟩
  · intro entries h
    exact ((takes_readOptions h).map Request.startup).read_finish
  · intro q h flags
    exact ((takes_flaggedBody h flags).map Request.query).read_finish

/-- Two options against their order, and two values without names under a flag without meaning. -/
theorem decode_unordered_and_unnamed :
    let named := NameMap.ofList [("a", "1"), ("b", "2")]
    let q : QueryRequest := ⟨"?", .one, [("", some []), ("", none)]⟩
    (startup named).Fits ∧ (startup named).HasBody (optionsBody [("b", "2"), ("a", "1")]) ∧
      decode .startup (optionsBody [("b", "2"), ("a", "1")]) = .ok (startup named) ∧
      q.Fits ∧ decode .query (flaggedBody q 0x81) =
        .ok (query ⟨"?", .one, [("0", some []), ("1", none)]⟩) := by
  intro named q
  obtain ⟨hwritten, -, -, hflagged⟩ := decode_hasBody_and_fits
  have hfits : (startup named).Fits := by
    show Counted (fun entry => octetLength entry.1 ≤ 0xffff ∧ octetLength entry.2 ≤ 0xffff)
      named.entries
    decide
  have hbody : (startup named).HasBody (optionsBody [("b", "2"), ("a", "1")]) :=
    ⟨_, .swap .., rfl⟩
  have hq : q.Fits := by
    refine ⟨by decide, by decide, ?_, ?_⟩
    · decide
    · simp [q]
  refine ⟨hfits, hbody, (hwritten _).2 hfits _ hbody, hq, ?_⟩
  rw [hflagged q hq 0x81]
  rfl

end Request

end CqlClient
