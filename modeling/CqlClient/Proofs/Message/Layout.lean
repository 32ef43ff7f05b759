import CqlClient.Proofs.Message.Response

/-!
Tables as nodes write them. Flags in front of the columns say how these are laid out: keyspace and
table may stand once, in front of all columns, and the state of paging in front of those. A table
whose columns come from one table is read alike from either layout, whatever the other flags are.
-/

namespace CqlClient

open CqlClient.Field

namespace Bytes

/-- A count that its word can hold, but no signed one, is read as a negative number. -/
theorem toInt32_ofNat_lt {n : Nat} (h : 0x7fffffff < n) (hword : n < UInt32.size) :
    toInt32 (ofNat 4 n) < 0 := by
  have hsize : n < Nat.pow 256 4 := hword
  rw [Int32.lt_iff_toInt_lt, toInt32, toWord32, toNat_ofNat_of_lt hsize]
  show (BitVec.ofNat 32 n).toInt < 0
  rw [BitVec.toInt_ofNat', Int.bmod_def]
  change n < 4294967296 at hword
  omega

end Bytes

namespace Field

/-- The octets of a value: a length and as many octets, or a negative length and none. -/
def IsValue (bytes : Bytes) : Prop :=
  ∃ (length : Int32) (octets : Bytes), octets.length = length.toInt.toNat ∧
    bytes = Bytes.ofInt32 length ++ octets

theorem IsValue.takes {bytes : Bytes} (h : IsValue bytes) (what : String) :
    ∃ v, Takes (value what) bytes v := by
  obtain ⟨length, octets, hoctets, rfl⟩ := h
  by_cases hnull : length < 0
  · refine ⟨none, (takes_int32 what length).bind ?_⟩
    have hnone : octets = [] := by
      rw [Int32.lt_iff_toInt_lt, Int32.toInt_zero] at hnull
      exact List.length_eq_zero_iff.mp (by omega)
    rw [if_pos hnull, hnone]
    exact Takes.pure none
  · refine ⟨some octets, (takes_int32 what length).bind ?_⟩
    rw [if_neg hnull]
    exact (takes_take what hoctets).bind_pure some

end Field

namespace Outcome

/-- The octets of a column where keyspace and table stand in front of all columns. -/
def columnEntry (column : Column) : Bytes :=
  Field.ofString column.name ++ column.type.descriptor

/-- The octets in front of the rows, with keyspace and table once and in front of them, if the flags
say so, the state of paging. -/
def sharedMetadata (flags : Int32) (paging : Bytes) (keyspace table : String)
    (columns : List Column) : Bytes :=
  Bytes.ofInt32 flags ++ (Bytes.ofNat 4 columns.length ++
    ((if flags.toUInt32 &&& morePagesFlag ≠ 0 then paging else []) ++
      ((Field.ofString keyspace ++ Field.ofString table) ++ columns.flatMap columnEntry)))

/-- The octets of a table whose metadata names keyspace and table once. -/
def sharedBody (flags : Int32) (paging : Bytes) (keyspace table : String) (columns : List Column)
    (cells : List (List (Option Bytes))) : Bytes :=
  Bytes.ofInt32 rowsKind ++ (sharedMetadata flags paging keyspace table columns ++
    (Bytes.ofNat 4 cells.length ++ rowsBody cells))

/-- Under these flags keyspace and table stand once, and there is metadata. Nothing is said of the
other flags. -/
structure Shares (flags : Int32) : Prop where
  global : flags.toUInt32 &&& globalTableFlag ≠ 0
  present : flags.toUInt32 &&& noMetadataFlag = 0

/-- The columns come from this table, and their names and types are such as metadata can hold. -/
structure Belong (keyspace table : String) (columns : List Column) : Prop where
  keyspace_le : octetLength keyspace ≤ 0xffff
  table_le : octetLength table ≤ 0xffff
  same : ∀ column ∈ columns, column.keyspace = keyspace ∧ column.table = table
  name_le : ∀ column ∈ columns, octetLength column.name ≤ 0xffff
  depth_le : ∀ column ∈ columns, column.type.depth ≤ WireType.maxDepth

theorem Belong.fits {keyspace table : String} {columns : List Column}
    (h : Belong keyspace table columns) : ∀ column ∈ columns, column.Fits := by
  intro column hcolumn
  obtain ⟨hkeyspace, htable⟩ := h.same column hcolumn
  exact {
    keyspace_le := hkeyspace ▸ h.keyspace_le
    table_le := htable ▸ h.table_le
    name_le := h.name_le column hcolumn
    depth_le := h.depth_le column hcolumn }

section

variable {flags : Int32} {paging : Bytes} {keyspace table : String} {columns : List Column}

theorem takes_columnEntry {column : Column} (hkeyspace : column.keyspace = keyspace)
    (htable : column.table = table) (h : column.Fits) :
    Takes (readColumn (some (keyspace, table))) (columnEntry column) column := by
  subst hkeyspace htable
  have hrest : Takes (string "column name" >>= fun name =>
      WireType.readDescriptor WireType.maxDepth >>= fun type =>
        pure ⟨column.keyspace, column.table, name, type⟩) (columnEntry column) column :=
    (takes_string _ h.name_le).bind ((WireType.takes_readDescriptor h.depth_le).bind_pure _)
  exact hrest

theorem takes_sharedMetadata (hflags : Shares flags) (hpaging : IsValue paging)
    (h : Belong keyspace table columns) (hcount : columns.length ≤ 0x7fffffff) :
    Takes readColumns (sharedMetadata flags paging keyspace table columns) columns := by
  have hcolumns : Takes (times columns.length (readColumn (some (keyspace, table))))
      (columns.flatMap columnEntry) columns := by
    apply Takes.repeatFrom 0
    intro _ column hcolumn
    obtain ⟨hkeyspace, htable⟩ := h.same column hcolumn
    exact takes_columnEntry hkeyspace htable (h.fits column hcolumn)
  have htables : Takes
      (if flags.toUInt32 &&& noMetadataFlag ≠ 0 then Field.fail .missingMetadata
      else if flags.toUInt32 &&& globalTableFlag ≠ 0 then
        some <$> readTable >>= fun table => times columns.length (readColumn table)
      else pure none >>= fun table => times columns.length (readColumn table))
      ((Field.ofString keyspace ++ Field.ofString table) ++ columns.flatMap columnEntry)
      columns := by
    rw [if_neg (not_not_intro hflags.present), if_pos hflags.global]
    exact ((takes_readTable h.keyspace_le h.table_le).map some).bind hcolumns
  apply (takes_int32 _ flags).bind
  apply (takes_readCount _ hcount).bind
  dsimp only
  by_cases hmore : flags.toUInt32 &&& morePagesFlag ≠ 0
  · obtain ⟨state, hstate⟩ := hpaging.takes "paging state"
    rw [if_pos hmore, if_pos hmore]
    exact hstate.bind htables
  · rw [if_neg hmore, if_neg hmore]
    exact htables

/-- More columns than a signed word can count are refused as soon as they have been counted. -/
theorem readColumns_eq_error {n : Nat} (h : 0x7fffffff < n) (hword : n < UInt32.size)
    (rest : Bytes) :
    readColumns (Bytes.ofInt32 flags ++ (Bytes.ofNat 4 n ++ rest)) =
      .error (.truncated "column count") := by
  have hcount : readCount "column count" (Bytes.ofNat 4 n ++ rest) =
      .error (.truncated "column count") := by
    rw [readCount, bind_apply, takes_int32_ofNat, ok_bind]
    dsimp only
    rw [if_pos (Bytes.toInt32_ofNat_lt h hword)]
    rfl
  rw [readColumns, bind_apply, takes_int32, ok_bind]
  dsimp only
  rw [bind_apply, hcount, error_bind]

theorem readColumns_sharedMetadata (hflags : Shares flags) (hpaging : IsValue paging)
    (h : Belong keyspace table columns) (hcount : columns.length < UInt32.size) (rest : Bytes) :
    readColumns (sharedMetadata flags paging keyspace table columns ++ rest) =
      readColumns (metadata columns ++ rest) := by
  by_cases hsmall : columns.length ≤ 0x7fffffff
  · rw [takes_sharedMetadata hflags hpaging h hsmall, takes_readColumns hsmall h.fits]
  · have hgreat : 0x7fffffff < columns.length := Nat.lt_of_not_le hsmall
    simp only [sharedMetadata, metadata, List.append_assoc]
    rw [readColumns_eq_error hgreat hcount, readColumns_eq_error hgreat hcount]

/-- After the columns it makes no difference how they were laid out. -/
theorem decode_rows_congr {first second : Bytes} (h : readColumns first = readColumns second) :
    Response.decode .result (Bytes.ofInt32 rowsKind ++ first) =
      Response.decode .result (Bytes.ofInt32 rowsKind ++ second) := by
  have hrows : readRows first = readRows second := by
    rw [readRows, bind_apply, bind_apply, h]
  have hread : Outcome.read (Bytes.ofInt32 rowsKind ++ first) =
      Outcome.read (Bytes.ofInt32 rowsKind ++ second) := by
    rw [read_rowsKind, read_rowsKind, bind_apply, bind_apply, hrows]
  show Except.map Prod.fst ((Response.result <$> Outcome.read) _) =
    Except.map Prod.fst ((Response.result <$> Outcome.read) _)
  rw [map_apply, map_apply, hread]

end

end Outcome

namespace Response

open CqlClient.Outcome

/-- A table whose columns come from one table is read alike whether its metadata names keyspace and
table once or at every column, with a state of paging or without and under any other flags, as long
as its columns can be counted in the word that is there for it. It is the table itself that is read,
from either layout, exactly if the table is such as a body can carry. -/
theorem decode_sharedBody {flags : Int32} {paging : Bytes} {keyspace table : String}
    {columns : List Column} (hflags : Shares flags) (hpaging : IsValue paging)
    (h : Belong keyspace table columns) (cells : List (List (Option Bytes))) :
    let own := result (.rows columns cells)
    let shared := sharedBody flags paging keyspace table columns cells
    (columns.length < UInt32.size → decode .result shared = decode .result own.body) ∧
    (decode .result shared = .ok own ↔ Tabular columns cells) ∧
    (decode .result own.body = .ok own ↔ Tabular columns cells) := by
  intro own shared
  have halike (hcount : columns.length < UInt32.size) :
      decode .result shared = decode .result own.body := by
    show decode .result (sharedBody ..) = decode .result (rows columns cells).body
    rw [body_rows]
    exact decode_rows_congr (readColumns_sharedMetadata hflags hpaging h hcount _)
  have hown (htable : Tabular columns cells) : decode .result own.body = .ok own := by
    have hfits : own.Representable := htable
    exact decode_of_hasBody hfits own.hasBody_body
  refine ⟨halike, ⟨fun hread => (representable_of_decode hread).2, fun htable => ?_⟩,
    fun hread => (representable_of_decode hread).2, hown⟩
  have hcount : columns.length < UInt32.size :=
    Nat.lt_of_le_of_lt htable.columns_le (by decide)
  rw [halike hcount, hown htable]

/-- Two columns and two rows, with a state of paging in front and all flags set but the one that
says that there is no metadata. -/
theorem decode_sharedBody_of_all_flags :
    let paging := Bytes.ofInt32 2 ++ [8, 9]
    let columns : List Column :=
      [⟨"k", "t", "c", .list (.scalar .int)⟩, ⟨"k", "t", "d", .scalar .text⟩]
    let cells : List (List (Option Bytes)) := [[none, some [7]], [some [], none]]
    let table := result (.rows columns cells)
    let shared := sharedBody (-5) paging "k" "t" columns cells
    Shares (-5) ∧ IsValue paging ∧ Belong "k" "t" columns ∧ Tabular columns cells ∧
      shared ≠ table.body ∧ decode .result shared = decode .result table.body ∧
      decode .result shared = .ok table := by
  intro paging columns cells table shared
  have hflags : Shares (-5) := ⟨by decide, by decide⟩
  have hpaging : IsValue paging := ⟨2, [8, 9], by decide, rfl⟩
  have hcolumns : Belong "k" "t" columns :=
    ⟨by decide, by decide, by decide, by decide, by decide⟩
  have htable : Tabular columns cells := by
    refine ⟨by decide, by decide, by decide, hcolumns.fits, by decide, ?_⟩
    simp [cells]
  obtain ⟨halike, hshared, -⟩ := decode_sharedBody hflags hpaging hcolumns cells
  exact ⟨hflags, hpaging, hcolumns, htable, by decide, halike (by decide), hshared.mpr htable⟩

end Response

end CqlClient
