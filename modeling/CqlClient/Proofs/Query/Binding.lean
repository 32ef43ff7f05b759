import CqlClient.Proofs.Cell.RoundTrip
import CqlClient.Proofs.Message.Request
import CqlClient.Query.Basic
import Mathlib.Data.List.TakeWhile

/-!
Bound values on their way to the node. A query that is accepted becomes a request with its text, its
consistency and a cell for each of its values, in the order of their names. The body of the request
has a word of sixteen bits for the length of a name and for the number of values, and nobody looks
whether that is enough: the node reads the request if and only if it is.
-/

namespace CqlClient

open CqlClient.Field

namespace Query

/-- A bound value is sent under its name as its cell. -/
def Sends (entry : String × TypedValue) (sent : String × Cell) : Prop :=
  sent.1 = entry.1 ∧ entry.2.type.encode entry.2.value = .ok sent.2

theorem encodeParameter_eq_ok {found : List Placeholder} {name : String} {param : TypedValue}
    {sent : String × Cell} (h : encodeParameter found name param = .ok sent) :
    Sends (name, param) sent := by
  simp only [encodeParameter] at h
  split at h
  · cases h
  split at h
  · cases h
  obtain ⟨cell, hcell, h⟩ := bind_eq_ok.mp h
  cases h
  exact ⟨rfl, hcell⟩

theorem toRequest_eq_ok {query : Query} {request : QueryRequest}
    (h : query.toRequest = .ok request) :
    request.text = query.text ∧ request.consistency = query.consistency ∧
      List.Forall₂ Sends query.params.entries request.values := by
  simp only [toRequest] at h
  split at h
  · cases h
  obtain ⟨values, hvalues, h⟩ := bind_eq_ok.mp h
  cases h
  exact ⟨rfl, rfl, (mapM_eq_ok.mp hvalues).imp fun entry sent => encodeParameter_eq_ok⟩

theorem names_eq_of_sends {entries : List (String × TypedValue)} {values : List (String × Cell)}
    (h : List.Forall₂ Sends entries values) : values.map Prod.fst = entries.map Prod.fst := by
  induction h with
  | nil => rfl
  | cons hfirst _ ih => rw [List.map_cons, List.map_cons, hfirst.1, ih]

/-- No cell is longer than its length in front can state. -/
theorem length_le_of_sends {entries : List (String × TypedValue)} {values : List (String × Cell)}
    (h : List.Forall₂ Sends entries values) :
    ∀ value ∈ values, ∀ octets, value.2 = some octets → octets.length ≤ 0x7fffffff := by
  induction h with
  | nil => simp
  | cons hfirst _ ih =>
      refine List.forall_mem_cons.mpr ⟨?_, ih⟩
      intro octets hoctets
      rcases WireType.encode_eq_ok hfirst.2 with ⟨-, hnone⟩ | ⟨body, -, -, hfits, hsome⟩
      · rw [hoctets] at hnone
        cases hnone
      · rw [hoctets] at hsome
        cases hsome
        exact hfits

/-- Whether the words in front of the names and of their number can state them. -/
def NamesFit (query : Query) : Prop :=
  query.params.size ≤ 0xffff ∧ ∀ name ∈ query.params.names, octetLength name ≤ 0xffff

/-- The request of an accepted query fits if and only if its names and their number do: the cells
have been measured when they were made, the names have not. -/
theorem fits_iff_namesFit {query : Query} {request : QueryRequest}
    (htext : octetLength query.text < 2 ^ 31) (h : query.toRequest = .ok request) :
    request.Fits ↔ query.NamesFit := by
  obtain ⟨hsame, -, hsends⟩ := toRequest_eq_ok h
  have hnames : request.values.map Prod.fst = query.params.names := names_eq_of_sends hsends
  have hcount : request.values.length = query.params.size := hsends.length_eq.symm
  constructor
  · intro hfits
    refine ⟨hcount ▸ hfits.count_le, ?_⟩
    intro name hname
    rw [← hnames] at hname
    obtain ⟨value, hvalue, rfl⟩ := List.mem_map.mp hname
    exact hfits.name_le value hvalue
  · rintro ⟨hsize, hlength⟩
    refine ⟨?_, hcount ▸ hsize, ?_, length_le_of_sends hsends⟩
    · rw [hsame]
      omega
    · intro value hvalue
      exact hlength _ (hnames ▸ List.mem_map_of_mem hvalue)

/-- The node reads what was bound if and only if the names and their number fit their words. -/
theorem decode_frame_toRequest_iff {query : Query} {request : QueryRequest}
    (htext : octetLength query.text < 2 ^ 31) (h : query.toRequest = .ok request)
    (stream : Int16) :
    let frame := (Request.query request).frame stream
    (Request.decode frame.opcode frame.body = .ok (.query request) ↔ query.NamesFit) ∧
      frame.stream = stream ∧ request.text = query.text ∧
      request.consistency = query.consistency ∧
      List.Forall₂ Sends query.params.entries request.values := by
  refine ⟨?_, rfl, toRequest_eq_ok h⟩
  rw [← fits_iff_namesFit htext h]
  exact Request.decode_queryBody_iff

/-- A query whose text is a placeholder and nothing else. -/
def ofPlaceholder (name : List Char) (param : TypedValue) : Query :=
  (Query.of (String.ofList (':' :: name))).bind (String.ofList name) param

theorem ofChars_placeholder {name : List Char} (hstart : name.head?.any Segment.isNameStart = true)
    (hrest : ∀ c ∈ name, Segment.isNameRest c = true) :
    Segment.ofChars (':' :: name) = [.placeholder name] := by
  have hnext : Segment.next ':' name = (.placeholder name, []) := by
    have htake : name.takeWhile Segment.isNameRest = name := List.takeWhile_eq_self_iff.mpr hrest
    have hdrop : name.dropWhile Segment.isNameRest = [] := List.dropWhile_eq_nil_iff.mpr hrest
    simp only [Segment.next, hstart, htake, hdrop]
    rfl
  rw [Segment.ofChars, hnext, Segment.ofChars]

theorem placeholders_ofList {name : List Char}
    (hstart : name.head?.any Segment.isNameStart = true)
    (hrest : ∀ c ∈ name, Segment.isNameRest c = true) :
    ∃ stop, placeholders (String.ofList (':' :: name)) =
      [⟨String.ofList name, 0, stop, false⟩] := by
  rw [placeholders, segments, String.toList_ofList, ofChars_placeholder hstart hrest]
  exact ⟨_, rfl⟩

/-- A placeholder and its value make a request, however long the name. -/
theorem toRequest_ofPlaceholder {name : List Char} {param : TypedValue} {cell : Cell}
    (hstart : name.head?.any Segment.isNameStart = true)
    (hrest : ∀ c ∈ name, Segment.isNameRest c = true)
    (htype : param.type ≠ .scalar .counter) (hcell : param.type.encode param.value = .ok cell) :
    (ofPlaceholder name param).toRequest =
      .ok ⟨String.ofList (':' :: name), .standard, [(String.ofList name, cell)]⟩ := by
  obtain ⟨stop, hfound⟩ := placeholders_ofList hstart hrest
  set only : Placeholder := ⟨String.ofList name, 0, stop, false⟩
  have hparams : (ofPlaceholder name param).params.entries = [(String.ofList name, param)] := rfl
  have hentry : encodeParameter [only] (String.ofList name) param =
      .ok (String.ofList name, cell) := by
    have huses : [only].filter (·.name == String.ofList name) = [only] := by simp [only]
    have hplain : misplacesCounter param.type [only] = false := by simp [misplacesCounter, htype]
    simp only [encodeParameter, huses, hplain, hcell, ok_bind]
    rfl
  have hget : (ofPlaceholder name param).params.get? only.name = some param := by
    rw [NameMap.get?, hparams, List.lookup_cons_self]
  have hmissing : [only].find? (fun p => ((ofPlaceholder name param).params.get? p.name).isNone) =
      none := by
    rw [List.find?_singleton, hget]
    rfl
  rw [toRequest, show placeholders (ofPlaceholder name param).text = [only] from hfound]
  simp only [hmissing, hparams, List.mapM_cons, hentry, ok_bind]
  rfl

/-! ## A name that its word can state, and one that it cannot -/

theorem decode_frame_toRequest_short :
    ∃ request, (ofPlaceholder ['a'] ⟨.scalar .int, .int 1⟩).toRequest = .ok request ∧
      octetLength ":a" < 2 ^ 31 ∧
      Request.decode .query ((Request.query request).frame 0).body = .ok (.query request) := by
  have htext : octetLength ":a" < 2 ^ 31 := by decide
  have h : (ofPlaceholder ['a'] ⟨.scalar .int, .int 1⟩).toRequest =
      .ok ⟨":a", .standard, [("a", some [0, 0, 0, 1])]⟩ :=
    toRequest_ofPlaceholder rfl (List.forall_mem_singleton.mpr rfl) (by decide) rfl
  refine ⟨_, h, htext, (decode_frame_toRequest_iff htext h 0).1.mpr ⟨by decide, ?_⟩⟩
  have hnames : (ofPlaceholder ['a'] ⟨.scalar .int, .int 1⟩).params.names = ["a"] := rfl
  rw [hnames, List.forall_mem_singleton]
  decide

/-- A name of 65536 letters is accepted and sent with zero for its length. -/
theorem decode_frame_toRequest_long :
    let query := ofPlaceholder (List.replicate 65536 'a') ⟨.scalar .int, .int 1⟩
    octetLength query.text < 2 ^ 31 ∧ ∃ request, query.toRequest = .ok request ∧
      Request.decode .query ((Request.query request).frame 0).body ≠ .ok (.query request) := by
  obtain ⟨n, hn⟩ : ∃ n, n = 65536 := ⟨_, rfl⟩
  rw [← hn]
  have hletters : ∀ c ∈ List.replicate n 'a', c = 'a' := fun c => List.eq_of_mem_replicate
  have hstart : (List.replicate n 'a').head?.any Segment.isNameStart = true := by
    rw [List.head?_replicate, if_neg (by omega)]
    rfl
  have haccepted : (ofPlaceholder (List.replicate n 'a') ⟨.scalar .int, .int 1⟩).toRequest = _ :=
    toRequest_ofPlaceholder hstart (fun c hc => by rw [hletters c hc]; decide) (by decide) rfl
  refine ⟨?_, _, haccepted, ?_⟩
  · have htext := octetLength_ofList_le (':' :: List.replicate n 'a')
    rw [List.length_cons, List.length_replicate] at htext
    show octetLength (String.ofList (':' :: List.replicate n 'a')) < 2 ^ 31
    omega
  · intro hread
    have hfits := (Request.decode_queryBody_iff.mp hread).name_le _ List.mem_cons_self
    have hone : 'a'.utf8Size = 1 := rfl
    rw [octetLength_replicate, hone, Nat.mul_one] at hfits
    omega

end Query

end CqlClient
