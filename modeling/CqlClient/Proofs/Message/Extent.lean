import CqlClient.Proofs.Message.Response
import Mathlib.Tactic.Ring

/-!
How much a table takes up. Counts in a body are only what its sender says, but every column and
every cell takes octets of its own. So a table that has been read is no larger than its body, and
one that cannot be in the octets that are left is refused before any of its cells is looked at.
-/

namespace CqlClient

namespace Field

variable {α β : Type}

/-- Whatever the step reads, it has taken at least as many octets for it. -/
def Uses (step : Reader α) (least : α → Nat) : Prop :=
  ∀ bytes a rest, step bytes = .ok (a, rest) → rest.length + least a ≤ bytes.length

/-! ## Steps in a row -/

namespace Uses

theorem mono {step : Reader α} {least fewer : α → Nat} (h : Uses step least)
    (hle : ∀ a, fewer a ≤ least a) : Uses step fewer := by
  intro bytes a rest hstep
  exact Nat.le_trans (Nat.add_le_add_left (hle a) _) (h bytes a rest hstep)

theorem pure {a : α} {least : α → Nat} (h : least a = 0) : Uses (Pure.pure a) least := by
  intro bytes b rest hstep
  cases hstep
  exact Nat.le_of_eq (by rw [h, Nat.add_zero])

theorem fail (err : ProtocolError) (least : α → Nat) : Uses (Field.fail err) least := by
  intro bytes a rest hstep
  cases hstep

/-- The later step has only what is still missing to take. -/
theorem bind {step : Reader α} {next : α → Reader β} {first : α → Nat} {least : β → Nat}
    (hstep : Uses step first) (hnext : ∀ a, Uses (next a) fun b => least b - first a) :
    Uses (step >>= next) least := by
  intro bytes b rest h
  rw [bind_apply] at h
  obtain ⟨⟨a, left⟩, ha, h⟩ := bind_eq_ok.mp h
  have hfirst := hstep bytes a left ha
  have hlater := hnext a left b rest h
  dsimp only at hlater
  omega

theorem map {step : Reader α} {f : α → β} {first : α → Nat} {least : β → Nat}
    (hstep : Uses step first) (hle : ∀ a, least (f a) ≤ first a) : Uses (f <$> step) least := by
  rw [← bind_pure_comp]
  exact hstep.bind fun a => Uses.pure (Nat.sub_eq_zero_of_le (hle a))

/-- A row takes what its items take. -/
theorem repeatFrom {step : Nat → Reader α} {least : α → Nat} (h : ∀ place, Uses (step place) least)
    (start count : Nat) :
    Uses (Field.repeatFrom step start count) fun items => (items.map least).sum := by
  induction count generalizing start with
  | zero => exact Uses.pure rfl
  | succ count ih =>
      refine (h start).bind fun item => (ih _).bind fun items => Uses.pure ?_
      rw [List.map_cons, List.sum_cons]
      omega

theorem times {step : Reader α} {least : α → Nat} (h : Uses step least) (count : Nat) :
    Uses (Field.times count step) fun items => (items.map least).sum :=
  repeatFrom (fun _ => h) 0 count

/-! ## Single fields -/

theorem take (count : Nat) (what : String) : Uses (Field.take count what) fun _ => count := by
  intro bytes head rest h
  rw [Field.take] at h
  split at h
  · next hsplit =>
    cases h
    obtain ⟨rfl, hcount⟩ := Bytes.split?_eq_some_iff.mp hsplit
    rw [List.length_append, hcount, Nat.add_comm]
  · cases h

theorem word16 (what : String) : Uses (Field.word16 what) fun _ => 2 :=
  (take 2 what).bind fun _ => Uses.pure rfl

theorem int32 (what : String) : Uses (Field.int32 what) fun _ => 4 :=
  (take 4 what).bind fun _ => Uses.pure rfl

theorem utf8 (count : Nat) (what : String) : Uses (Field.utf8 count what) fun _ => 0 := by
  refine (take count what).bind fun octets => ?_
  split
  · exact Uses.pure (Nat.zero_sub _)
  · exact Uses.fail _ _

theorem string (what : String) : Uses (Field.string what) fun _ => 2 :=
  (word16 what).bind fun _ => utf8 _ what

theorem value (what : String) : Uses (Field.value what) fun _ => 4 := by
  refine (int32 what).bind fun length => ?_
  split
  · exact Uses.pure rfl
  · exact (take _ what).bind fun _ => Uses.pure (Nat.zero_sub _)

theorem finish : Uses Field.finish fun _ => 0 := by
  intro bytes _ rest h
  rw [Field.finish] at h
  split at h
  · cases h
    exact Nat.le_refl _
  · cases h

theorem remaining : Uses Field.remaining fun _ => 0 := by
  intro bytes left rest h
  cases h
  exact Nat.le_refl _

end Uses

end Field

open CqlClient.Field

/-! ## Columns -/

namespace WireType

theorem uses_scalarOfId (id : UInt16) : Uses (scalarOfId id) fun _ => 0 := by
  rw [scalarOfId]
  split
  · exact Uses.pure rfl
  · exact Uses.fail _ _

theorem uses_readDescriptor (levels : Nat) : Uses (readDescriptor levels) fun _ => 2 := by
  induction levels with
  | zero =>
      refine (Uses.word16 _).bind fun id => ?_
      split
      · exact Uses.fail _ _
      · exact uses_scalarOfId id
  | succ levels ih =>
      have hlater {f : WireType → WireType} : Uses (f <$> readDescriptor levels) fun _ => 0 :=
        ih.map fun _ => Nat.zero_le _
      refine (Uses.word16 _).bind fun id => ?_
      split
      · exact hlater
      split
      · exact hlater
      split
      · exact ih.bind fun key => hlater
      · exact uses_scalarOfId id

end WireType

namespace Outcome

theorem uses_readCount (what : String) : Uses (readCount what) fun _ => 4 := by
  refine (Uses.int32 what).bind fun count => ?_
  split
  · exact Uses.fail _ _
  · exact Uses.pure rfl

theorem uses_readTable : Uses readTable fun _ => 0 := by
  refine (Uses.string _).bind fun keyspace => (Uses.string _).bind fun table => Uses.pure rfl

/-- A column takes the length of its name and the identifier of its type, if nothing else. -/
theorem uses_readColumn (table : Option (String × String)) :
    Uses (readColumn table) fun _ => 4 := by
  have hrest (known : String × String) : Uses (string "column name" >>= fun name =>
      WireType.readDescriptor WireType.maxDepth >>= fun type =>
        pure ⟨known.1, known.2, name, type⟩ : Reader Column) fun _ => 4 :=
    (Uses.string _).bind fun _ => (WireType.uses_readDescriptor _).bind fun _ => Uses.pure rfl
  cases table with
  | none => exact uses_readTable.bind hrest
  | some known => exact hrest known

theorem uses_readColumns : Uses readColumns fun columns => 8 + 4 * columns.length := by
  refine (Uses.int32 _).bind fun flags => (uses_readCount _).bind fun count => ?_
  have hcolumns (table : Option (String × String)) :
      Uses (times count (readColumn table)) fun columns => 8 + 4 * columns.length - 4 - 4 := by
    refine ((uses_readColumn table).times count).mono fun columns => ?_
    rw [List.map_const', List.sum_replicate_nat]
    omega
  have htables : Uses
      (if flags.toUInt32 &&& noMetadataFlag ≠ 0 then Field.fail .missingMetadata
      else if flags.toUInt32 &&& globalTableFlag ≠ 0 then
        some <$> readTable >>= fun table => times count (readColumn table)
      else pure none >>= fun table => times count (readColumn table))
      fun columns => 8 + 4 * columns.length - 4 - 4 := by
    have hshared : Uses (some <$> readTable) fun _ => 0 :=
      uses_readTable.map fun _ => Nat.le_refl 0
    split
    · exact Uses.fail _ _
    split
    · exact hshared.bind hcolumns
    · exact hcolumns none
  dsimp only
  split
  · exact (Uses.value _).bind fun _ => htables.mono fun _ => Nat.sub_le _ _
  · exact htables

/-! ## Rows -/

/-- The columns, and how many rows there are said to be. -/
def readHeader : Reader (List Column × Nat) := do
  let columns ← readColumns
  return (columns, ← readCount "row count")

/-- The product in words up to `top`, where it stays if it would be greater. -/
def saturatingMul (top a b : Nat) : Nat := min (a * b) top

/-- Reads columns and rows in words up to `top`, and cells by a step of any kind. -/
def readRowsIn (top : Nat) (cell : Reader (Option Bytes)) : Reader Outcome := do
  let columns ← readColumns
  let count ← readCount "row count"
  if columns.isEmpty ∧ count ≠ 0 then Field.fail (.rowsWithoutColumns count)
  else
    let left ← remaining
    if left < saturatingMul top (saturatingMul top count columns.length) 4 then
      Field.fail (.truncated "rows")
    else return rows columns (← times count (times columns.length cell))

/-- A number that words can count to is below a product that stays at their top exactly if it is
below the product itself. -/
theorem lt_saturatingMul_iff {top left : Nat} (h : left < top) (a b c : Nat) :
    left < saturatingMul top (saturatingMul top a b) c ↔ left < a * b * c := by
  rcases Nat.eq_zero_or_pos c with rfl | hc
  · simp [saturatingMul]
  have htop : left < top * c := Nat.lt_of_lt_of_le h (Nat.le_mul_of_pos_right top hc)
  rw [saturatingMul, saturatingMul, Nat.lt_min, and_iff_left h, ← Nat.mul_min_mul_right, Nat.lt_min,
    and_iff_left htop]

/-- The products that counts in signed words can lead to stay below the top of a word of 64 bits. -/
theorem counts_mul_lt {count width : Nat} (hcount : count ≤ 0x7fffffff)
    (hwidth : width ≤ 0x7fffffff) : count * width * 4 < UInt64.size := by
  have hproduct := Nat.mul_le_mul hcount hwidth
  change count * width * 4 < 18446744073709551616
  omega

/-- After the header a table is refused or read, which depends on what is left. -/
theorem readRowsIn_of_header {top : Nat} {cell : Reader (Option Bytes)} {bytes left : Bytes}
    {columns : List Column} {count : Nat} (h : readHeader bytes = .ok ((columns, count), left))
    (htop : left.length < top) :
    readRowsIn top cell bytes =
      if columns.isEmpty ∧ count ≠ 0 then .error (.rowsWithoutColumns count)
      else if left.length < count * columns.length * 4 then .error (.truncated "rows")
      else (times count (times columns.length cell) >>= fun cells =>
        pure (rows columns cells) : Reader Outcome) left := by
  rw [readHeader, bind_apply] at h
  obtain ⟨⟨columns', rest⟩, hcolumns, h⟩ := bind_eq_ok.mp h
  dsimp only at h
  rw [bind_apply] at h
  obtain ⟨⟨count', rest'⟩, hcount, h⟩ := bind_eq_ok.mp h
  cases h
  rw [readRowsIn, bind_apply, hcolumns, ok_bind]
  dsimp only
  rw [bind_apply, hcount, ok_bind]
  dsimp only
  split
  · rfl
  · rw [bind_apply, remaining, ok_bind]
    dsimp only
    by_cases hfew : left.length < count * columns.length * 4
    · rw [if_pos hfew, if_pos ((lt_saturatingMul_iff htop ..).mpr hfew)]
      rfl
    · rw [if_neg hfew, if_neg fun hlt => hfew ((lt_saturatingMul_iff htop ..).mp hlt)]

theorem takes_readHeader {columns : List Column} {count : Nat}
    (hcolumns : columns.length ≤ 0x7fffffff) (hfits : ∀ column ∈ columns, column.Fits)
    (hcount : count ≤ 0x7fffffff) :
    Takes readHeader (metadata columns ++ Bytes.ofNat 4 count) (columns, count) := by
  refine (takes_readColumns hcolumns hfits).bind ?_
  rw [← List.append_nil (Bytes.ofNat 4 count)]
  exact (takes_readCount _ hcount).bind (Takes.pure _)

theorem yields_readHeader : Yields readHeader fun header =>
    header.1.length ≤ 0x7fffffff ∧ header.2 ≤ 0x7fffffff :=
  yields_readColumns.bind fun _ hcolumns => (yields_readCount _).bind fun _ hcount =>
    Yields.pure ⟨hcolumns.1, hcount⟩

theorem uses_readHeader : Uses readHeader fun _ => 0 :=
  (uses_readColumns.mono fun _ => Nat.zero_le _).bind fun _ =>
    ((uses_readCount _).mono fun _ => Nat.zero_le _).bind fun _ => Uses.pure rfl

/-- A table takes what its columns, its cells and the counts of both take. -/
def least : Outcome → Nat
  | rows columns cells => 16 + 4 * columns.length + (cells.map fun row => row.length * 4).sum
  | _ => 0

theorem uses_readRows : Uses readRows fun outcome => outcome.least - 4 := by
  refine uses_readColumns.bind fun columns => (uses_readCount _).bind fun count => ?_
  split
  · exact Uses.fail _ _
  refine Uses.remaining.bind fun left => ?_
  split
  · exact Uses.fail _ _
  refine (((Uses.value "cell value").times columns.length).times count).bind fun cells => ?_
  apply Uses.pure
  have hcells : (cells.map fun row => (row.map fun _ => 4).sum) =
      cells.map fun row => row.length * 4 :=
    List.map_congr_left fun row _ => by rw [List.map_const', List.sum_replicate_nat]
  rw [least, hcells]
  omega

/-- Rows as wide as the columns take four octets for every column of every row. -/
theorem least_rows {columns : List Column} {cells : List (List (Option Bytes))}
    (h : ∀ row ∈ cells, row.length = columns.length) :
    (rows columns cells).least = 16 + 4 * columns.length + 4 * columns.length * cells.length := by
  have hcells : (cells.map fun row => row.length * 4) = cells.map fun _ => columns.length * 4 :=
    List.map_congr_left fun row hrow => by rw [h row hrow]
  rw [least, hcells, List.map_const', List.sum_replicate_nat]
  ring

theorem uses_readSchemaChange : Uses readSchemaChange fun outcome => outcome.least - 4 := by
  refine (Uses.string _).bind fun change => (Uses.string _).bind fun target =>
    (Uses.string _).bind fun keyspace => ?_
  split
  · exact Uses.pure rfl
  · exact (Uses.string _).bind fun name => Uses.pure rfl

theorem uses_read : Uses Outcome.read least := by
  have hwhole {step : Reader Outcome} (h : Uses step fun outcome => outcome.least - 4) :
      Uses (do let o ← step; finish; return o) fun outcome => outcome.least - 4 := by
    refine h.bind fun outcome => Uses.finish.bind fun _ => Uses.pure ?_
    exact Nat.sub_self _
  refine (Uses.int32 _).bind fun kind => ?_
  dsimp only
  split
  · exact hwhole (Uses.pure rfl)
  split
  · exact hwhole uses_readRows
  split
  · exact hwhole ((Uses.string _).map fun _ => Nat.zero_le _)
  split
  · exact uses_readSchemaChange
  · exact Uses.fail _ _

/-! ## Too many rows for what is left -/

theorem readRowsIn_value {top : Nat} {bytes : Bytes} (h : bytes.length < top) :
    readRowsIn top (Field.value "cell value") bytes = readRows bytes := by
  rw [readRowsIn, readRows, bind_apply, bind_apply]
  rcases hcolumns : readColumns bytes with err | ⟨columns, rest⟩
  · rfl
  rw [ok_bind, ok_bind]
  dsimp only
  rw [bind_apply, bind_apply]
  rcases hcount : readCount "row count" rest with err | ⟨count, left⟩
  · rfl
  rw [ok_bind, ok_bind]
  dsimp only
  have hrest := uses_readColumns _ _ _ hcolumns
  have hleft := uses_readCount _ _ _ _ hcount
  have hlt : left.length < top := by omega
  split
  · rfl
  · rw [bind_apply, bind_apply, remaining, ok_bind, ok_bind]
    simp only [lt_saturatingMul_iff hlt]

end Outcome

namespace Response

open CqlClient.Outcome

/-- A table that is read has rows as wide as its columns, which nest no deeper than is allowed, and
no rows without columns; and its body has four octets for every column and for every cell besides
its kind, its flags and both counts. Whatever counts a header declares, their product and four can
be multiplied in 64 bits, and in words of any size that can count the octets of the body the table
is read as in unbounded ones. If they come to more octets than are left the table is refused
whatever the step would do that reads its cells. -/
theorem rows_within_body (bytes : Bytes) :
    (∀ columns cells, decode .result bytes = .ok (result (.rows columns cells)) →
      (∀ row ∈ cells, row.length = columns.length) ∧ (columns = [] → cells = []) ∧
      (∀ column ∈ columns, column.type.depth ≤ WireType.maxDepth) ∧
      16 + 4 * columns.length + 4 * columns.length * cells.length ≤ bytes.length) ∧
    (∀ top, bytes.length < top →
      readRowsIn top (Field.value "cell value") bytes = readRows bytes) ∧
    ∀ after columns count left, bytes = Bytes.ofInt32 rowsKind ++ after →
      readHeader after = .ok ((columns, count), left) →
      count * columns.length * 4 < UInt64.size ∧
      (left.length < count * columns.length * 4 →
        decode .result bytes = .error (.truncated "rows") ∧
        ∀ top cell, left.length < top →
          readRowsIn top cell after = .error (.truncated "rows")) := by
  refine ⟨fun columns cells h => ?_, fun top => readRowsIn_value, ?_⟩
  · obtain ⟨-, htable : Tabular columns cells⟩ := representable_of_decode h
    obtain ⟨rest, hread⟩ := read_eq_ok.mp h
    rw [map_apply] at hread
    obtain ⟨⟨outcome, left⟩, houtcome, hrest⟩ := bind_eq_ok.mp hread
    cases hrest
    have hleast := uses_read _ _ _ houtcome
    rw [least_rows htable.row_length] at hleast
    exact ⟨htable.row_length, htable.rows_nil, fun column hcolumn =>
      (htable.column_fits column hcolumn).depth_le, Nat.le_trans (Nat.le_add_left _ _) hleast⟩
  · rintro after columns count left rfl hheader
    obtain ⟨hwidth, hcount⟩ := yields_readHeader _ _ _ hheader
    refine ⟨counts_mul_lt hcount hwidth, fun hfew => ?_⟩
    have hrefused (top : Nat) (cell : Reader (Option Bytes)) (htop : left.length < top) :
        readRowsIn top cell after = .error (.truncated "rows") := by
      rw [readRowsIn_of_header hheader htop, if_neg, if_pos hfew]
      rintro ⟨hempty, -⟩
      rw [List.isEmpty_iff.mp hempty, List.length_nil, Nat.mul_zero, Nat.zero_mul] at hfew
      exact Nat.not_lt_zero _ hfew
    refine ⟨?_, hrefused⟩
    -- In words that can count all octets the table is refused as it is in unbounded ones.
    have hleft := uses_readHeader _ _ _ hheader
    have hrows := hrefused (after.length + 1) (Field.value "cell value") (by omega)
    rw [readRowsIn_value (Nat.lt_succ_self _)] at hrows
    show Except.map Prod.fst ((result <$> Outcome.read) _) = _
    rw [map_apply, read_rowsKind, bind_apply, hrows]
    rfl

/-- A table of one column and two rows, and the same column with as many rows declared as a signed
word can state and three octets left for them. -/
theorem rows_within_body_of_great_count :
    let column : Column := ⟨"k", "t", "c", .list (.scalar .int)⟩
    let body := (rows [column] [[none], [some [7]]]).body
    let after := metadata [column] ++ (Bytes.ofNat 4 0x7fffffff ++ [0, 0, 0])
    decode .result body = .ok (result (.rows [column] [[none], [some [7]]])) ∧
      16 + 4 * 1 + 4 * 1 * 2 ≤ body.length ∧
      readHeader after = .ok (([column], 0x7fffffff), [0, 0, 0]) ∧
      0x7fffffff * 1 * 4 < UInt64.size ∧
      decode .result (Bytes.ofInt32 rowsKind ++ after) = .error (.truncated "rows") ∧
      readRowsIn 4 (fun _ => .error .invalidUtf8) after = .error (.truncated "rows") := by
  intro column body after
  have hfits : ∀ other ∈ [column], other.Fits :=
    List.forall_mem_singleton.mpr ⟨by decide, by decide, by decide, by decide⟩
  have hdescribed : Tabular [column] [[none], [some [7]]] := by
    refine ⟨by decide, by decide, by decide, hfits, by decide, ?_⟩
    simp
  have hread : decode .result body = .ok (result (.rows [column] [[none], [some [7]]])) :=
    @decode_of_hasBody (result (.rows _ _)) hdescribed _ rfl
  have hheader : readHeader after = .ok (([column], 0x7fffffff), [0, 0, 0]) := by
    have htakes := takes_readHeader (by decide) hfits (Nat.le_refl 0x7fffffff) [0, 0, 0]
    rwa [List.append_assoc] at htakes
  obtain ⟨htable, -, -⟩ := rows_within_body body
  obtain ⟨-, -, hrefused⟩ := rows_within_body (Bytes.ofInt32 rowsKind ++ after)
  obtain ⟨hproduct, hfew⟩ := hrefused _ _ _ _ rfl hheader
  obtain ⟨hdecode, hrows⟩ := hfew (by decide)
  exact ⟨hread, (htable _ _ hread).2.2.2, hheader, hproduct, hdecode, hrows 4 _ (by decide)⟩

end Response

end CqlClient
