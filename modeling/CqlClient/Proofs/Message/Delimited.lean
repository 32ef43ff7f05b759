import CqlClient.Proofs.Message.Request
import CqlClient.Proofs.Message.Response

/-!
Bodies that end where they end. No step of reading looks further than the octets that it takes: what
it makes of some octets it makes of more of them, unless it has run out. So a body that is cut short
is noticed by a step that runs out, before anything else can be wrong with it, and what stands after
a body is left over.
-/

namespace CqlClient

namespace Field

variable {α β : Type}

/-- The step runs out of octets. -/
def RunsOut (step : Reader α) (bytes : Bytes) : Prop :=
  ∃ what, step bytes = .error (.truncated what)

/-- What the step makes of octets it makes of more of them, unless it runs out. -/
def Steady (step : Reader α) : Prop :=
  ∀ bytes extra, RunsOut step bytes ∨
    step (bytes ++ extra) = (step bytes).map fun (a, rest) => (a, rest ++ extra)

theorem RunsOut.bind {step : Reader α} {next : α → Reader β} {bytes : Bytes}
    (h : RunsOut step bytes) : RunsOut (step >>= next) bytes := by
  obtain ⟨what, h⟩ := h
  exact ⟨what, by rw [bind_apply, h, error_bind]⟩

/-! ## Steps in a row -/

namespace Steady

theorem pure (a : α) : Steady (Pure.pure a) := fun _ _ => .inr rfl

theorem fail (err : ProtocolError) : Steady (Field.fail err : Reader α) := fun _ _ => .inr rfl

theorem bind {step : Reader α} {next : α → Reader β} (h : Steady step)
    (hnext : ∀ a, Steady (next a)) : Steady (step >>= next) := by
  intro bytes extra
  rcases h bytes extra with hout | hmore
  · exact .inl hout.bind
  rw [RunsOut, bind_apply, bind_apply, hmore]
  rcases step bytes with err | ⟨a, rest⟩
  · exact .inr rfl
  · exact hnext a rest extra

theorem map {step : Reader α} (f : α → β) (h : Steady step) : Steady (f <$> step) := by
  rw [← bind_pure_comp]
  exact h.bind fun a => pure (f a)

theorem repeatFrom {step : Nat → Reader α} (h : ∀ place, Steady (step place)) (start count : Nat) :
    Steady (Field.repeatFrom step start count) := by
  induction count generalizing start with
  | zero => exact pure []
  | succ count ih => exact (h start).bind fun _ => (ih _).bind fun _ => pure _

theorem times {step : Reader α} (h : Steady step) (count : Nat) : Steady (Field.times count step) :=
  repeatFrom (fun _ => h) 0 count

/-! ## Single fields -/

theorem take (count : Nat) (what : String) : Steady (Field.take count what) := by
  intro bytes extra
  rw [RunsOut, Field.take]
  split
  · next head rest hsplit =>
    obtain ⟨rfl, rfl⟩ := Bytes.split?_eq_some_iff.mp hsplit
    right
    rw [Field.take, List.append_assoc, Bytes.split?_append]
    rfl
  · exact .inl ⟨what, rfl⟩

theorem octet (what : String) : Steady (Field.octet what) := (take _ _).bind fun _ => pure _

theorem word16 (what : String) : Steady (Field.word16 what) := (take _ _).bind fun _ => pure _

theorem int32 (what : String) : Steady (Field.int32 what) := (take _ _).bind fun _ => pure _

theorem utf8 (count : Nat) (what : String) : Steady (Field.utf8 count what) := by
  refine (take count what).bind fun octets => ?_
  split
  · exact pure _
  · exact fail _

theorem string (what : String) : Steady (Field.string what) := (word16 what).bind fun _ => utf8 _ _

theorem longString (what : String) : Steady (Field.longString what) := by
  refine (int32 what).bind fun length => ?_
  split
  · exact fail _
  · exact utf8 _ _

theorem value (what : String) : Steady (Field.value what) := by
  refine (int32 what).bind fun length => ?_
  split
  · exact pure none
  · exact (take _ _).bind fun _ => pure _

end Steady

/-! ## Bodies that are cut or go on -/

/-- The step runs out on whatever is left of the octets if their end is cut off. -/
def NoticesCut (step : Reader α) (bytes : Bytes) : Prop :=
  ∀ short, short <+: bytes → short ≠ bytes → RunsOut step short

/-- If a steady step takes some octets it needs all of them: had it succeeded on the first of them
or failed for good, it would have done the same on all. -/
theorem Steady.noticesCut {step : Reader α} {bytes : Bytes} {a : α} (h : Steady step)
    (htakes : Takes step bytes a) : NoticesCut step bytes := by
  rintro short ⟨missing, rfl⟩ hne
  refine (h short missing).resolve_right fun hmore => ?_
  have hwhole := htakes []
  rw [List.append_nil, hmore] at hwhole
  obtain ⟨⟨b, rest⟩, -, hrest⟩ := map_eq_ok.mp hwhole
  have hmissing : missing = [] := (List.append_eq_nil_iff.mp (congrArg Prod.snd hrest)).2
  exact hne (by rw [hmissing, List.append_nil])

theorem NoticesCut.bind {step : Reader α} {next : α → Reader β} {first second : Bytes} {a : α}
    (htakes : Takes step first a) (hfirst : NoticesCut step first)
    (hsecond : NoticesCut (next a) second) : NoticesCut (step >>= next) (first ++ second) := by
  intro short hshort hne
  by_cases hinside : first <+: short
  · obtain ⟨later, rfl⟩ := hinside
    have hlater : later <+: second := (List.prefix_append_right_inj first).mp hshort
    rw [RunsOut, bind_apply, htakes, ok_bind]
    exact hsecond later hlater fun heq => hne (by rw [heq])
  · have hcut : short <+: first :=
      (List.prefix_or_prefix_of_prefix hshort (List.prefix_append ..)).resolve_right hinside
    refine (hfirst short hcut ?_).bind
    rintro rfl
    exact hinside (List.prefix_refl _)

theorem NoticesCut.map {step : Reader α} {bytes : Bytes} (f : α → β) (h : NoticesCut step bytes) :
    NoticesCut (f <$> step) bytes := by
  intro short hshort hne
  rw [← bind_pure_comp]
  exact (h short hshort hne).bind

theorem NoticesCut.finish {step : Reader α} {bytes : Bytes} (h : NoticesCut step bytes) :
    NoticesCut (do let a ← step; Field.finish; return a) bytes :=
  fun short hshort hne => (h short hshort hne).bind

theorem NoticesCut.read {step : Reader α} {bytes short : Bytes} (h : NoticesCut step bytes)
    (hshort : short <+: bytes) (hne : short ≠ bytes) :
    ∃ what, Field.read step short = .error (.truncated what) := by
  obtain ⟨what, hwhat⟩ := h short hshort hne
  refine ⟨what, ?_⟩
  show (step short).map Prod.fst = _
  rw [hwhat]
  rfl

/-- Octets after those that a step takes are left over. -/
theorem Takes.finish_append {step : Reader α} {bytes extra : Bytes} {a : α} (h : Takes step bytes a)
    (hextra : extra ≠ []) :
    (do let a ← step; Field.finish; return a : Reader α) (bytes ++ extra) =
      .error (.trailingBytes extra.length) := by
  rw [bind_apply, h, ok_bind]
  show (Field.finish >>= fun _ => Pure.pure a : Reader α) extra = _
  rw [bind_apply, Field.finish, if_neg (by simpa using hextra), error_bind]

theorem Takes.read_append {step : Reader α} {bytes extra : Bytes} {a : α} (h : Takes step bytes a) :
    Field.read step (bytes ++ extra) = .ok a :=
  read_eq_ok.mpr ⟨extra, h extra⟩

theorem Takes.read_finish_append {step : Reader α} {bytes extra : Bytes} {a : α}
    (h : Takes step bytes a) (hextra : extra ≠ []) :
    Field.read (do let a ← step; Field.finish; return a) (bytes ++ extra) =
      .error (.trailingBytes extra.length) := by
  show Except.map Prod.fst ((do let a ← step; Field.finish; return a : Reader α) _) = _
  rw [h.finish_append hextra]
  rfl

end Field

open CqlClient.Field

/-! ## Requests -/

namespace Request

theorem steady_readOptions : Steady readOptions := by
  have hentry : Steady (do
      let key ← Field.string "startup options"
      return (key, ← Field.string "startup options") : Reader (String × String)) :=
    (Steady.string _).bind fun _ => (Steady.string _).bind fun _ => .pure _
  exact (Steady.word16 _).bind fun _ => (hentry.times _).bind fun _ => .pure _

theorem steady_readValue (isNamed : Bool) (place : Nat) : Steady (readValue isNamed place) := by
  cases isNamed with
  | true => exact (Steady.string _).bind fun _ => (Steady.value _).bind fun _ => .pure _
  | false => exact (Steady.pure _).bind fun _ => (Steady.value _).bind fun _ => .pure _

theorem steady_readQuery : Steady readQuery := by
  refine (Steady.longString _).bind fun text => (Steady.word16 _).bind fun code => ?_
  split
  · exact .fail _
  · refine (Steady.octet _).bind fun flags => ?_
    split
    · exact .pure _
    · refine (Steady.word16 _).bind fun count => ?_
      exact (Steady.repeatFrom (steady_readValue _) _ _).bind fun _ => .pure _

/-- A body is taken by a step that does not look behind it, and then the end is expected. -/
theorem exists_step {request : Request} (h : request.Fits) {body : Bytes}
    (hbody : request.HasBody body) :
    ∃ step : Reader Request, Takes step body request ∧ Steady step ∧
      ∀ bytes, decode request.opcode bytes =
        Field.read (do let r ← step; Field.finish; return r) bytes := by
  cases request with
  | startup named =>
      obtain ⟨entries, order, rfl⟩ := hbody
      have htakes := (takes_readOptions (Counted.of_perm h order)).map startup
      rw [NameMap.ofList_of_perm order] at htakes
      exact ⟨_, htakes, steady_readOptions.map startup, fun _ => rfl⟩
  | options =>
      subst hbody
      exact ⟨_, Takes.pure options, .pure options, fun _ => rfl⟩
  | query q =>
      subst hbody
      exact ⟨_, (takes_readQuery h).map query, steady_readQuery.map query, fun _ => rfl⟩

end Request

/-! ## Results -/

namespace WireType

theorem steady_scalarOfId (id : UInt16) : Steady (scalarOfId id) := by
  rw [scalarOfId]
  split
  · exact .pure _
  · exact .fail _

theorem steady_readDescriptor (levels : Nat) : Steady (readDescriptor levels) := by
  induction levels with
  | zero =>
      refine (Steady.word16 _).bind fun id => ?_
      split
      · exact .fail _
      · exact steady_scalarOfId id
  | succ levels ih =>
      refine (Steady.word16 _).bind fun id => ?_
      split
      · exact ih.map list
      split
      · exact ih.map set
      split
      · exact ih.bind fun key => ih.map (WireType.map key)
      · exact steady_scalarOfId id

end WireType

namespace Outcome

theorem steady_readCount (what : String) : Steady (readCount what) := by
  refine (Steady.int32 _).bind fun count => ?_
  split
  · exact .fail _
  · exact .pure _

theorem steady_readTable : Steady readTable :=
  (Steady.string _).bind fun _ => (Steady.string _).bind fun _ => .pure _

theorem steady_readColumn (table : Option (String × String)) : Steady (readColumn table) := by
  have hrest (known : String × String) : Steady (Field.string "column name" >>= fun name =>
      WireType.readDescriptor WireType.maxDepth >>= fun type =>
        pure ⟨known.1, known.2, name, type⟩ : Reader Column) :=
    (Steady.string _).bind fun _ => (WireType.steady_readDescriptor _).bind fun _ => .pure _
  cases table with
  | none => exact steady_readTable.bind hrest
  | some known => exact (Steady.pure known).bind hrest

theorem steady_readColumns : Steady readColumns := by
  refine (Steady.int32 _).bind fun flags => (steady_readCount _).bind fun count => ?_
  have hcolumns (table : Option (String × String)) : Steady (times count (readColumn table)) :=
    (steady_readColumn table).times count
  have htables : Steady
      (if flags.toUInt32 &&& noMetadataFlag ≠ 0 then Field.fail .missingMetadata
      else if flags.toUInt32 &&& globalTableFlag ≠ 0 then
        some <$> readTable >>= fun table => times count (readColumn table)
      else pure none >>= fun table => times count (readColumn table)) := by
    split
    · exact .fail _
    split
    · exact (steady_readTable.map some).bind hcolumns
    · exact (Steady.pure none).bind hcolumns
  dsimp only
  split
  · exact (Steady.value _).bind fun _ => htables
  · exact htables

/-- If too few octets are left the step runs out, and if there are enough there still are with more
octets behind them. -/
theorem steady_enough {α : Type} {step : Reader α} (h : Steady step) (count : Nat) (what : String) :
    Steady (remaining >>= fun left => if left < count then Field.fail (.truncated what) else step) := by
  intro bytes extra
  rw [RunsOut, bind_apply, bind_apply, remaining, remaining, ok_bind, ok_bind]
  dsimp only
  by_cases hfew : bytes.length < count
  · rw [if_pos hfew]
    exact .inl ⟨what, rfl⟩
  · rw [if_neg hfew, if_neg (by rw [List.length_append]; omega)]
    exact h bytes extra

theorem steady_readRows : Steady readRows := by
  refine steady_readColumns.bind fun columns => (steady_readCount _).bind fun count => ?_
  split
  · exact .fail _
  · exact steady_enough ((((Steady.value _).times _).times _).bind fun _ => .pure _) _ _

theorem steady_readSchemaChange : Steady readSchemaChange := by
  refine (Steady.string _).bind fun _ => (Steady.string _).bind fun target =>
    (Steady.string _).bind fun _ => ?_
  split
  · exact .pure _
  · exact (Steady.string _).bind fun _ => .pure _

/-- Whether more octets may follow the result. -/
def isOpen : Outcome → Bool
  | schemaChange _ _ _ => true
  | _ => false

/-- After its kind a result is taken by a step that does not look behind it, and then the end is
expected unless more may follow. -/
theorem exists_step {outcome : Outcome} (h : outcome.Representable) :
    ∃ (kind : Int32) (payload : Bytes) (step : Reader Outcome) (next : Int32 → Reader Outcome),
      outcome.body = Bytes.ofInt32 kind ++ payload ∧
      Outcome.read = (int32 "result kind" >>= next) ∧
      Takes step payload outcome ∧ Steady step ∧
      next kind = if outcome.isOpen then step else do let o ← step; finish; return o := by
  cases outcome with
  | void =>
      refine ⟨voidKind, [], pure void, _, (List.append_nil _).symm, rfl, Takes.pure void, .pure void,
        ?_⟩
      dsimp only
      rw [if_pos rfl]
      rfl
  | rows columns cells =>
      refine ⟨rowsKind, metadata columns ++ (Bytes.ofNat 4 cells.length ++ rowsBody cells), readRows,
        _, body_rows columns cells, rfl, takes_readRows h, steady_readRows, ?_⟩
      dsimp only
      rw [if_neg (by decide), if_pos rfl]
      rfl
  | setKeyspace keyspace =>
      refine ⟨setKeyspaceKind, Field.ofString keyspace, setKeyspace <$> Field.string "keyspace", _,
        rfl, rfl, (takes_string _ h).map setKeyspace, (Steady.string _).map setKeyspace, ?_⟩
      dsimp only
      rw [if_neg (by decide), if_neg (by decide), if_pos rfl]
      rfl
  | schemaChange change target options =>
      refine ⟨schemaChangeKind, Field.ofString change ++ (Field.ofString target ++
        options.flatMap Field.ofString), readSchemaChange, _, ?_, rfl, takes_readSchemaChange h,
        steady_readSchemaChange, ?_⟩
      · simp only [body, List.append_assoc]
      · dsimp only
        rw [if_neg (by decide), if_neg (by decide), if_neg (by decide), if_pos rfl]
        rfl

theorem noticesCut_read {outcome : Outcome} (h : outcome.Representable) :
    NoticesCut Outcome.read outcome.body := by
  obtain ⟨kind, payload, step, next, hbody, hread, htakes, hsteady, hnext⟩ := exists_step h
  rw [hbody, hread]
  refine .bind (takes_int32 _ kind) ((Steady.int32 _).noticesCut (takes_int32 _ kind)) ?_
  rw [hnext]
  split
  · exact hsteady.noticesCut htakes
  · exact (hsteady.noticesCut htakes).finish

theorem read_append {outcome : Outcome} (h : outcome.Representable) {extra : Bytes}
    (hextra : extra ≠ []) :
    Outcome.read (outcome.body ++ extra) =
      if outcome.isOpen then .ok (outcome, extra) else .error (.trailingBytes extra.length) := by
  obtain ⟨kind, payload, step, next, hbody, hread, htakes, hsteady, hnext⟩ := exists_step h
  rw [hbody, hread, List.append_assoc, bind_apply, takes_int32, ok_bind]
  dsimp only
  rw [hnext]
  split
  · exact htakes extra
  · exact htakes.finish_append hextra

end Outcome

/-! ## Responses -/

namespace Response

theorem steady_readSupported : Steady readSupported := by
  have hentry : Steady (do
      let key ← Field.string "supported key"
      let values ← Field.word16 "supported values"
      return (key, ← Field.times values.toNat (Field.string "supported value")) :
        Reader (String × List String)) :=
    (Steady.string _).bind fun _ => (Steady.word16 _).bind fun _ =>
      ((Steady.string _).times _).bind fun _ => .pure _
  exact (Steady.word16 _).bind fun _ => (hentry.times _).bind fun _ => .pure _

theorem steady_readError : Steady readError :=
  (Steady.int32 _).bind fun _ => (Steady.string _).bind fun _ => .pure _

/-- Whether more octets may follow the response. -/
def isOpen : Response → Bool
  | error _ _ => true
  | result outcome => outcome.isOpen
  | event => true
  | _ => false

/-- A body that is cut runs out while it is read. -/
theorem decode_cut {response : Response} (h : response.Representable) {body short : Bytes}
    (hbody : response.HasBody body) (hshort : short <+: body) (hne : short ≠ body) :
    ∃ what, decode response.opcode short = .error (.truncated what) := by
  cases response with
  | error code message =>
      subst hbody
      have htakes : Takes readError _ (error code message) :=
        (takes_int32 _ code).bind ((takes_string _ h).bind_pure _)
      exact (steady_readError.noticesCut htakes).read hshort hne
  | ready =>
      subst hbody
      exact ((Steady.pure ready).noticesCut (Takes.pure ready)).finish.read hshort hne
  | authenticate authenticator =>
      subst hbody
      have htakes := (takes_string "authenticator" h).map authenticate
      exact (((Steady.string _).map authenticate).noticesCut htakes).finish.read hshort hne
  | supported named =>
      obtain ⟨entries, order, rfl⟩ := hbody
      have htakes := (takes_readSupported (Counted.of_perm h order)).map supported
      exact ((steady_readSupported.map supported).noticesCut htakes).finish.read hshort hne
  | result outcome =>
      subst hbody
      exact ((Outcome.noticesCut_read h).map result).read hshort hne
  | event =>
      subst hbody
      exact absurd (List.prefix_nil.mp hshort) hne

/-- What follows a body is left over, or left unread where more may follow. -/
theorem decode_append {response : Response} (h : response.Representable) {body extra : Bytes}
    (hbody : response.HasBody body) (hextra : extra ≠ []) :
    decode response.opcode (body ++ extra) =
      if response.isOpen then .ok response else .error (.trailingBytes extra.length) := by
  cases response with
  | error code message =>
      subst hbody
      have htakes : Takes readError _ (error code message) :=
        (takes_int32 _ code).bind ((takes_string _ h).bind_pure _)
      exact htakes.read_append
  | ready =>
      subst hbody
      exact (Takes.pure ready).read_finish_append hextra
  | authenticate authenticator =>
      subst hbody
      exact ((takes_string _ h).map authenticate).read_finish_append hextra
  | supported named =>
      obtain ⟨entries, order, rfl⟩ := hbody
      have htakes := (takes_readSupported (Counted.of_perm h order)).map supported
      exact htakes.read_finish_append hextra
  | result outcome =>
      subst hbody
      show Except.map Prod.fst ((result <$> Outcome.read) (outcome.body ++ extra)) = _
      rw [map_apply, Outcome.read_append h hextra, isOpen]
      split <;> rfl
  | event => rfl

end Response

/-- A body ends where its message ends. If its end is cut off, anywhere, then it runs out before
anything else can be found wrong with it. If more octets follow they are left over, unless it is an
error, an event or a change of the schema, which are read as before. -/
theorem bodies_delimited :
    (∀ request : Request, request.Fits → ∀ body, request.HasBody body →
      (∀ short, short <+: body → short ≠ body →
        ∃ what, Request.decode request.opcode short = .error (.truncated what)) ∧
      ∀ extra, extra ≠ [] →
        Request.decode request.opcode (body ++ extra) = .error (.trailingBytes extra.length)) ∧
    ∀ response : Response, response.Representable → ∀ body, response.HasBody body →
      (∀ short, short <+: body → short ≠ body →
        ∃ what, Response.decode response.opcode short = .error (.truncated what)) ∧
      ∀ extra, extra ≠ [] →
        Response.decode response.opcode (body ++ extra) =
          if response.isOpen then .ok response else .error (.trailingBytes extra.length) := by
  constructor
  · intro request h body hbody
    obtain ⟨step, htakes, hsteady, hdecode⟩ := Request.exists_step h hbody
    constructor
    · intro short hshort hne
      rw [hdecode]
      exact (hsteady.noticesCut htakes).finish.read hshort hne
    · intro extra hextra
      rw [hdecode]
      exact htakes.read_finish_append hextra
  · intro response h body hbody
    exact ⟨fun short => Response.decode_cut h hbody, fun extra => Response.decode_append h hbody⟩

/-- A query and a table that are cut in their last value, the table with an octet behind it, and a
new function with the types of its arguments behind it. -/
theorem delimited_query_table_and_function :
    let query := Request.query ⟨":a", .one, [("a", some [1, 2])]⟩
    let table := Response.result (.rows [⟨"k", "t", "c", .list (.scalar .int)⟩] [[none], [some [7]]])
    let function := Response.result (.schemaChange "CREATED" "FUNCTION" ["k", "f"])
    query.Fits ∧ table.Representable ∧ function.Representable ∧
      (∃ what, Request.decode .query query.body.dropLast = .error (.truncated what)) ∧
      (∃ what, Response.decode .result table.body.dropLast = .error (.truncated what)) ∧
      Response.decode .result (table.body ++ [0]) = .error (.trailingBytes 1) ∧
      Response.decode .result (function.body ++ [0, 0]) = .ok function := by
  intro query table function
  have hquery : query.Fits := ⟨by decide, by decide, by decide, by simp⟩
  have htable : table.Representable := by
    refine ⟨by decide, by decide, by decide, ?_, by decide, by simp⟩
    exact List.forall_mem_singleton.mpr ⟨by decide, by decide, by decide, by decide⟩
  have hfunction : function.Representable := ⟨by decide, by decide, by decide, by decide⟩
  have hshorter : ∀ body : Bytes, 0 < body.length → body.dropLast ≠ body := by
    intro body hpos heq
    have hlength := congrArg List.length heq
    rw [List.length_dropLast] at hlength
    omega
  obtain ⟨hrequests, hresponses⟩ := bodies_delimited
  obtain ⟨hcutQuery, -⟩ := hrequests query hquery query.body query.hasBody_body
  obtain ⟨hcutTable, hlonger⟩ := hresponses table htable table.body table.hasBody_body
  obtain ⟨-, hargs⟩ := hresponses function hfunction function.body function.hasBody_body
  exact ⟨hquery, htable, hfunction,
    hcutQuery _ (List.dropLast_prefix _) (hshorter _ (by decide)),
    hcutTable _ (List.dropLast_prefix _) (hshorter _ (by decide)),
    hlonger [0] (by simp), hargs [0, 0] (by simp)⟩

end CqlClient
