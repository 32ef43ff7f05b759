import CqlClient.Message.Response
import CqlClient.Proofs.Message.TypeCode

/-!
The bodies of responses. The responses that a body can carry are those whose lengths and counts
their words can state and whose rows, if any, fill a table of columns whose types nest no deeper
than is allowed. Each of them is read back as it was written, its options in any order, and no other
response is ever read.
-/

namespace CqlClient

open CqlClient.Field

/-- The names of a column are short texts, and its type nests no deeper than is allowed. -/
structure Column.Fits (column : Column) : Prop where
  keyspace_le : octetLength column.keyspace ≤ 0xffff
  table_le : octetLength column.table ≤ 0xffff
  name_le : octetLength column.name ≤ 0xffff
  depth_le : column.type.depth ≤ WireType.maxDepth

namespace Outcome

/-- The rows have a cell for each column, and lengths and counts are those that their words can
state. Without columns there are no rows. -/
structure Tabular (columns : List Column) (cells : List (List (Option Bytes))) : Prop where
  columns_le : columns.length ≤ 0x7fffffff
  rows_le : cells.length ≤ 0x7fffffff
  rows_nil : columns = [] → cells = []
  column_fits : ∀ column ∈ columns, column.Fits
  row_length : ∀ row ∈ cells, row.length = columns.length
  cell_le : ∀ row ∈ cells, ∀ cell ∈ row, ∀ octets, cell = some octets → octets.length ≤ 0x7fffffff

/-- What a result can say about a query. A change of a keyspace names the keyspace, and any other
change also what was changed in it. -/
def Representable : Outcome → Prop
  | void => True
  | rows columns cells => Tabular columns cells
  | setKeyspace keyspace => octetLength keyspace ≤ 0xffff
  | schemaChange change target options =>
    octetLength change ≤ 0xffff ∧ octetLength target ≤ 0xffff ∧
      (∀ option ∈ options, octetLength option ≤ 0xffff) ∧
      options.length = if target = "KEYSPACE" then 1 else 2

/-! ## Columns -/

theorem takes_readCount (what : String) {n : Nat} (h : n ≤ 0x7fffffff) :
    Takes (readCount what) (Bytes.ofNat 4 n) n := by
  rw [← List.append_nil (Bytes.ofNat 4 n)]
  apply (takes_int32_ofNat what n).bind
  rw [if_neg (Bytes.not_toInt32_ofNat_lt h), Bytes.toInt_toInt32_ofNat h]
  exact Takes.pure n

theorem yields_readCount (what : String) : Yields (readCount what) fun n => n ≤ 0x7fffffff := by
  refine (Yields.trivial _).bind ?_
  intro count _
  split
  · exact Yields.fail _ _
  · exact Yields.pure (toNat_toInt_le count)

theorem takes_readTable {keyspace table : String} (hkeyspace : octetLength keyspace ≤ 0xffff)
    (htable : octetLength table ≤ 0xffff) :
    Takes readTable (Field.ofString keyspace ++ Field.ofString table) (keyspace, table) :=
  (takes_string _ hkeyspace).bind ((takes_string _ htable).bind_pure _)

theorem yields_readTable :
    Yields readTable fun table => octetLength table.1 ≤ 0xffff ∧ octetLength table.2 ≤ 0xffff := by
  refine (yields_string _).bind fun keyspace hkeyspace => ?_
  exact (yields_string _).bind fun table htable => Yields.pure ⟨hkeyspace, htable⟩

theorem takes_readColumn {column : Column} (h : column.Fits) :
    Takes (readColumn none) (columnBody column) column := by
  rw [columnBody, List.append_assoc]
  apply (takes_readTable h.keyspace_le h.table_le).bind
  exact (takes_string _ h.name_le).bind ((WireType.takes_readDescriptor h.depth_le).bind_pure _)

theorem yields_readColumn {table : Option (String × String)}
    (h : ∀ known, table = some known →
      octetLength known.1 ≤ 0xffff ∧ octetLength known.2 ≤ 0xffff) :
    Yields (readColumn table) Column.Fits := by
  have hrest (known : String × String)
      (hknown : octetLength known.1 ≤ 0xffff ∧ octetLength known.2 ≤ 0xffff) :
      Yields (string "column name" >>= fun name =>
        WireType.readDescriptor WireType.maxDepth >>= fun type =>
          pure ⟨known.1, known.2, name, type⟩) Column.Fits := by
    refine (yields_string _).bind fun name hname => ?_
    refine (WireType.yields_readDescriptor _).bind fun type htype => Yields.pure ?_
    exact ⟨hknown.1, hknown.2, hname, htype⟩
  cases table with
  | none => exact yields_readTable.bind hrest
  | some known => exact hrest known (h known rfl)

/-- The octets in front of the rows, with keyspace and table at every column. -/
def metadata (columns : List Column) : Bytes :=
  Bytes.ofInt32 0 ++ (Bytes.ofNat 4 columns.length ++ columns.flatMap columnBody)

theorem takes_readColumns {columns : List Column} (hcount : columns.length ≤ 0x7fffffff)
    (h : ∀ column ∈ columns, column.Fits) : Takes readColumns (metadata columns) columns := by
  apply (takes_int32 _ 0).bind
  apply (takes_readCount _ hcount).bind
  dsimp only
  rw [if_neg (by decide), if_neg (by decide), if_neg (by decide)]
  exact (Takes.pure none).bind (Takes.repeatFrom 0 fun _ column hcolumn =>
    takes_readColumn (h column hcolumn))

theorem yields_readColumns :
    Yields readColumns fun columns =>
      columns.length ≤ 0x7fffffff ∧ ∀ column ∈ columns, column.Fits := by
  refine (Yields.trivial _).bind ?_
  intro flags _
  refine (yields_readCount _).bind ?_
  intro count hcount
  have hcolumns (table : Option (String × String)) (htable : ∀ known, table = some known →
      octetLength known.1 ≤ 0xffff ∧ octetLength known.2 ≤ 0xffff) :
      Yields (times count (readColumn table)) fun columns =>
        columns.length ≤ 0x7fffffff ∧ ∀ column ∈ columns, column.Fits := by
    refine (Yields.repeatFrom fun _ _ => yields_readColumn htable).mono ?_
    rintro columns ⟨hlength, hfits⟩
    exact ⟨by omega, hfits⟩
  have htables : Yields
      (if flags.toUInt32 &&& noMetadataFlag ≠ 0 then Field.fail .missingMetadata
      else if flags.toUInt32 &&& globalTableFlag ≠ 0 then
        some <$> readTable >>= fun table => times count (readColumn table)
      else pure none >>= fun table => times count (readColumn table))
      fun columns => columns.length ≤ 0x7fffffff ∧ ∀ column ∈ columns, column.Fits := by
    split
    · exact Yields.fail _ _
    split
    · refine (yields_readTable.map (f := some) fun table htable => ?_).bind hcolumns
      rintro known ⟨⟩
      exact htable
    · exact hcolumns none (by simp)
  dsimp only
  split
  · exact (Yields.trivial _).bind fun _ _ => htables
  · exact htables

/-! ## Rows -/

theorem four_le_length_ofValue (value : Option Bytes) : 4 ≤ (Field.ofValue value).length := by
  cases value with
  | none => exact Nat.le_of_eq (Bytes.length_ofInt32 (-1)).symm
  | some octets =>
      rw [Field.ofValue, List.length_append, Bytes.length_ofNat]
      omega

theorem length_row_le (row : List (Option Bytes)) :
    row.length * 4 ≤ (row.flatMap Field.ofValue).length := by
  induction row with
  | nil => exact Nat.le_refl 0
  | cons value row ih =>
      have hvalue := four_le_length_ofValue value
      rw [List.flatMap_cons, List.length_append, List.length_cons]
      omega

/-- The octets of the rows, of which every cell takes at least four. -/
def rowsBody (cells : List (List (Option Bytes))) : Bytes :=
  cells.flatMap fun row => row.flatMap Field.ofValue

theorem length_rows_le {width : Nat} {cells : List (List (Option Bytes))}
    (h : ∀ row ∈ cells, row.length = width) :
    cells.length * width * 4 ≤ (rowsBody cells).length := by
  induction cells with
  | nil => simp [rowsBody]
  | cons row cells ih =>
      obtain ⟨hrow, hcells⟩ := List.forall_mem_cons.mp h
      have hoctets := length_row_le row
      rw [rowsBody, List.flatMap_cons, List.length_append, List.length_cons, Nat.succ_mul,
        Nat.add_mul, ← hrow]
      have hrest := ih hcells
      rw [← hrow, rowsBody] at hrest
      omega

theorem takes_readCells {width : Nat} {cells : List (List (Option Bytes))}
    (hwidth : ∀ row ∈ cells, row.length = width)
    (hcell : ∀ row ∈ cells, ∀ cell ∈ row, ∀ octets, cell = some octets →
      octets.length ≤ 0x7fffffff) :
    Takes (times cells.length (times width (Field.value "cell value"))) (rowsBody cells) cells := by
  apply Takes.repeatFrom 0
  intro _ row hrow
  rw [← hwidth row hrow]
  exact Takes.repeatFrom 0 fun _ cell hmem => takes_value _ (hcell row hrow cell hmem)

theorem takes_readRows {columns : List Column} {cells : List (List (Option Bytes))}
    (h : Tabular columns cells) :
    Takes readRows (metadata columns ++ (Bytes.ofNat 4 cells.length ++ rowsBody cells))
      (rows columns cells) := by
  apply (takes_readColumns h.columns_le h.column_fits).bind
  apply (takes_readCount _ h.rows_le).bind
  have hnil : ¬ (columns.isEmpty ∧ cells.length ≠ 0) := by
    rintro ⟨hcolumns, hcells⟩
    apply hcells
    rw [h.rows_nil (List.isEmpty_iff.mp hcolumns), List.length_nil]
  rw [if_neg hnil]
  intro rest
  -- The octets that are left are those of the rows and what follows them, which is enough.
  have hleft := length_rows_le h.row_length
  have henough : ¬ (rowsBody cells ++ rest).length < cells.length * columns.length * 4 := by
    rw [List.length_append]
    omega
  rw [bind_apply, remaining, ok_bind]
  dsimp only
  rw [if_neg henough]
  exact (takes_readCells h.row_length h.cell_le).bind_pure (rows columns) rest

theorem yields_readRows : Yields readRows Representable := by
  refine yields_readColumns.bind ?_
  rintro columns ⟨hcolumns, hfits⟩
  refine (yields_readCount _).bind ?_
  intro count hcount
  split
  · exact Yields.fail _ _
  next hnil =>
  refine (Yields.trivial _).bind ?_
  intro left _
  split
  · exact Yields.fail _ _
  have hrow : Yields (times columns.length (Field.value "cell value")) fun row =>
      row.length = columns.length ∧ ∀ cell ∈ row, ∀ octets, cell = some octets →
        octets.length ≤ 0x7fffffff :=
    Yields.repeatFrom fun _ _ => yields_value _
  have hcells : Yields (times count (times columns.length (Field.value "cell value"))) _ :=
    Yields.repeatFrom fun _ _ => hrow
  refine hcells.bind ?_
  rintro cells ⟨hlength, hall⟩
  apply Yields.pure
  refine ⟨hcolumns, by omega, ?_, hfits, fun row hmem => (hall row hmem).1,
    fun row hmem => (hall row hmem).2⟩
  intro hempty
  by_contra hcells
  apply hnil
  refine ⟨List.isEmpty_iff.mpr hempty, ?_⟩
  rw [← hlength]
  exact fun hzero => hcells (List.length_eq_zero_iff.mp hzero)

/-! ## Changes of the schema -/

theorem takes_readSchemaChange {change target : String} {options : List String}
    (h : (schemaChange change target options).Representable) :
    Takes readSchemaChange (Field.ofString change ++ (Field.ofString target ++
      options.flatMap Field.ofString)) (schemaChange change target options) := by
  obtain ⟨hchange, htarget, hoptions, hlength⟩ := h
  refine (takes_string _ hchange).bind ((takes_string _ htarget).bind ?_)
  by_cases hkeyspace : target = "KEYSPACE"
  · rw [if_pos hkeyspace] at hlength
    obtain ⟨keyspace, rfl⟩ := List.length_eq_one_iff.mp hlength
    rw [List.flatMap_cons]
    apply (takes_string _ (hoptions keyspace List.mem_cons_self)).bind
    rw [if_pos hkeyspace]
    exact Takes.pure _
  · rw [if_neg hkeyspace] at hlength
    obtain ⟨keyspace, name, rfl⟩ := List.length_eq_two.mp hlength
    have hfirst := hoptions keyspace List.mem_cons_self
    have hsecond := hoptions name (List.mem_cons_of_mem _ List.mem_cons_self)
    rw [List.flatMap_cons, List.flatMap_cons]
    apply (takes_string _ hfirst).bind
    rw [if_neg hkeyspace]
    exact (takes_string _ hsecond).bind (Takes.pure _)

theorem yields_readSchemaChange : Yields readSchemaChange Representable := by
  refine (yields_string _).bind fun change hchange => ?_
  refine (yields_string _).bind fun target htarget => ?_
  refine (yields_string _).bind fun keyspace hfirst => ?_
  split
  · next hkeyspace =>
    refine Yields.pure ⟨hchange, htarget, List.forall_mem_singleton.mpr hfirst, ?_⟩
    rw [if_pos hkeyspace]
    rfl
  · next hkeyspace =>
    refine (yields_string _).bind fun name hsecond => Yields.pure ⟨hchange, htarget, ?_, ?_⟩
    · exact List.forall_mem_cons.mpr ⟨hfirst, List.forall_mem_singleton.mpr hsecond⟩
    · rw [if_neg hkeyspace]
      rfl

/-! ## Results -/

theorem body_rows (columns : List Column) (cells : List (List (Option Bytes))) :
    (rows columns cells).body = Bytes.ofInt32 rowsKind ++ (metadata columns ++
      (Bytes.ofNat 4 cells.length ++ rowsBody cells)) := by
  simp only [body, metadata, rowsBody, List.append_assoc]

theorem read_rowsKind (bytes : Bytes) :
    Outcome.read (Bytes.ofInt32 rowsKind ++ bytes) =
      (do let outcome ← readRows; finish; return outcome : Reader Outcome) bytes := by
  rw [Outcome.read, bind_apply, takes_int32, ok_bind]
  dsimp only
  rw [if_neg (by decide), if_pos rfl]

theorem read_body {outcome : Outcome} (h : outcome.Representable) :
    Outcome.read outcome.body = .ok (outcome, []) := by
  cases outcome with
  | void =>
      rw [Outcome.read, body, ← List.append_nil (Bytes.ofInt32 _), bind_apply, takes_int32, ok_bind]
      dsimp only
      rw [if_pos rfl]
      rfl
  | rows columns cells =>
      rw [body_rows, read_rowsKind]
      exact (takes_readRows h).finish
  | setKeyspace keyspace =>
      rw [Outcome.read, body, bind_apply, takes_int32, ok_bind]
      dsimp only
      rw [if_neg (by decide), if_neg (by decide), if_pos rfl]
      exact ((takes_string _ h).map setKeyspace).finish
  | schemaChange change target options =>
      have htakes := takes_readSchemaChange h []
      rw [List.append_nil] at htakes
      rw [Outcome.read, body, List.append_assoc, List.append_assoc, bind_apply, takes_int32,
        ok_bind]
      dsimp only
      rw [if_neg (by decide), if_neg (by decide), if_neg (by decide), if_pos rfl]
      exact htakes

theorem yields_read : Yields Outcome.read Representable := by
  refine (Yields.trivial _).bind ?_
  intro kind _
  dsimp only
  split
  · exact Yields.finish (Yields.pure trivial)
  split
  · exact Yields.finish yields_readRows
  split
  · exact Yields.finish ((yields_string _).map fun _ hkeyspace => hkeyspace)
  split
  · exact yields_readSchemaChange
  · exact Yields.fail _ _

end Outcome

namespace Response

/-- The lengths of options with several values each, and the numbers of both, are those that their
words can state. -/
def SupportedFit : List (String × List String) → Prop :=
  Counted fun entry => octetLength entry.1 ≤ 0xffff ∧
    Counted (fun value => octetLength value ≤ 0xffff) entry.2

/-- What a body can carry. -/
def Representable : Response → Prop
  | error _ message => octetLength message ≤ 0xffff
  | ready => True
  | authenticate authenticator => octetLength authenticator ≤ 0xffff
  | supported named => SupportedFit named.entries
  | result outcome => outcome.Representable
  | event => True

/-- Whether a response may be written as this body: its options may come in any order. -/
def HasBody (response : Response) (body : Bytes) : Prop :=
  match response with
  | supported named => ∃ entries, entries.Perm named.entries ∧ body = supportedBody entries
  | other => body = other.body

theorem hasBody_body (response : Response) : response.HasBody response.body := by
  cases response with
  | supported named => exact ⟨named.entries, .refl _, rfl⟩
  | error code message => rfl
  | ready => rfl
  | authenticate authenticator => rfl
  | result outcome => rfl
  | event => rfl

/-! ## Options -/

theorem takes_readSupported {entries : List (String × List String)} (h : SupportedFit entries) :
    Takes readSupported (supportedBody entries) (.ofList entries) := by
  refine takes_counted _ NameMap.ofList h ?_
  rintro ⟨key, values⟩ ⟨hkey, hvalues⟩
  show Takes _ (Field.ofString key ++ Bytes.ofNat 2 values.length ++
    values.flatMap Field.ofString) (key, values)
  rw [List.append_assoc]
  apply (takes_string _ hkey).bind
  exact takes_counted _ (Prod.mk key) hvalues fun value hvalue => takes_string _ hvalue

theorem yields_readSupported : Yields readSupported fun named => SupportedFit named.entries := by
  refine yields_counted _ NameMap.ofList ?_ fun entries => Counted.ofList
  refine (yields_string _).bind fun key hkey => ?_
  exact yields_counted _ (Prod.mk key) (yields_string _) fun values hvalues => ⟨hkey, hvalues⟩

/-! ## Responses -/

theorem decode_of_hasBody {response : Response} (h : response.Representable) {body : Bytes}
    (hbody : response.HasBody body) : decode response.opcode body = .ok response := by
  cases response with
  | supported named =>
      obtain ⟨entries, order, rfl⟩ := hbody
      have htakes := (takes_readSupported (Counted.of_perm h order)).map supported
      rw [NameMap.ofList_of_perm order] at htakes
      exact htakes.read_finish
  | error code message =>
      subst hbody
      have htakes : Takes readError _ (error code message) :=
        (takes_int32 _ code).bind ((takes_string _ h).bind_pure _)
      have hwhole := htakes []
      rw [List.append_nil] at hwhole
      exact read_eq_ok.mpr ⟨[], hwhole⟩
  | ready =>
      subst hbody
      exact (Takes.pure ready).read_finish
  | authenticate authenticator =>
      subst hbody
      exact ((takes_string _ h).map authenticate).read_finish
  | result outcome =>
      subst hbody
      refine read_eq_ok.mpr ⟨[], ?_⟩
      rw [map_apply, body, Outcome.read_body h, ok_bind]
  | event => rfl

theorem representable_of_decode {opcode : Opcode} {bytes : Bytes} {response : Response}
    (h : decode opcode bytes = .ok response) :
    response.opcode = opcode ∧ response.Representable := by
  have hread (step : Reader Response)
      (hyields : Yields step fun r => r.opcode = opcode ∧ r.Representable)
      (h : read step bytes = .ok response) :
      response.opcode = opcode ∧ response.Representable := by
    obtain ⟨rest, hstep⟩ := read_eq_ok.mp h
    exact hyields _ _ _ hstep
  cases opcode with
  | error =>
      refine hread readError ((Yields.trivial _).bind fun code _ => ?_) h
      exact (yields_string _).bind fun message hmessage => Yields.pure ⟨rfl, hmessage⟩
  | ready => exact hread _ (Yields.finish (Yields.pure (a := ready) ⟨rfl, trivial⟩)) h
  | authenticate =>
      exact hread _ (Yields.finish ((yields_string _).map (f := authenticate)
        fun _ htext => ⟨rfl, htext⟩)) h
  | supported =>
      exact hread _ (Yields.finish (yields_readSupported.map (f := supported)
        fun _ hfits => ⟨rfl, hfits⟩)) h
  | result =>
      exact hread _ (Outcome.yields_read.map (f := result) fun _ houtcome => ⟨rfl, houtcome⟩) h
  | event =>
      cases h
      exact ⟨rfl, trivial⟩
  | startup | options | query => cases h

/-- The responses that a body can carry are what the reader of responses reads: each is read back
from every body that it may be written as, and whatever is read, from any octets, is one of them. -/
theorem decode_hasBody_and_representable :
    (∀ response : Response, response.HasBody response.body ∧
      (response.Representable → ∀ body, response.HasBody body →
        decode response.opcode body = .ok response)) ∧
    ∀ opcode bytes response, decode opcode bytes = .ok response →
      response.opcode = opcode ∧ response.Representable ∧
        ∀ body, response.HasBody body → decode response.opcode body = .ok response := by
  constructor
  · intro response
    exact ⟨hasBody_body response, fun h _ => decode_of_hasBody h⟩
  · intro opcode bytes response h
    obtain ⟨hopcode, hresponse⟩ := representable_of_decode h
    exact ⟨hopcode, hresponse, fun body hbody => decode_of_hasBody hresponse hbody⟩

/-- A table of one null, as a node writes it that pages and that names keyspace and table once. -/
def pagedRows : Bytes :=
  Bytes.ofInt32 Outcome.rowsKind ++ Bytes.ofInt32 3 ++ Bytes.ofNat 4 1 ++
    Field.ofValue (some [9]) ++ Field.ofString "k" ++ Field.ofString "t" ++ Field.ofString "c" ++
    (WireType.list (.scalar .int)).descriptor ++ Bytes.ofNat 4 1 ++ Field.ofValue none

theorem decode_unordered_and_paged :
    let named := NameMap.ofList [("a", ["1"]), ("b", [])]
    let table := result (.rows [⟨"k", "t", "c", .list (.scalar .int)⟩] [[none]])
    (supported named).Representable ∧
      (supported named).HasBody (supportedBody [("b", []), ("a", ["1"])]) ∧
      decode .supported (supportedBody [("b", []), ("a", ["1"])]) = .ok (supported named) ∧
      decode .result pagedRows = .ok table ∧ table.Representable ∧
      decode .result table.body = .ok table := by
  intro named table
  obtain ⟨hwritten, hread⟩ := decode_hasBody_and_representable
  have hnamed : (supported named).Representable := by
    show Counted (fun entry => octetLength entry.1 ≤ 0xffff ∧
      Counted (fun value => octetLength value ≤ 0xffff) entry.2) named.entries
    decide
  have hbody : (supported named).HasBody (supportedBody [("b", []), ("a", ["1"])]) :=
    ⟨_, .swap .., rfl⟩
  have hpaged : decode .result pagedRows = .ok table := rfl
  obtain ⟨-, htable, hagain⟩ := hread _ _ _ hpaged
  exact ⟨hnamed, hbody, (hwritten _).2 hnamed _ hbody, hpaged, htable,
    hagain _ (hwritten table).1⟩

end Response

end CqlClient
