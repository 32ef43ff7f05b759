import CqlClient.Proofs.Message.Response
import CqlClient.Query.Result

/-!
The rows of a result. No row of the table that a node sends is lost, and no column: what is read
from a row holds every cell under the name of its column. The first cell that cannot be read, row by
row, is what the whole result fails with.
-/

namespace CqlClient.ResultSet

open CqlClient.Outcome

variable {columns : List Column} {cells : List (List Cell)}

/-- What the cell in a place of a table is read as by the type of its column. -/
def valueAt? (columns : List Column) (cells : List (List Cell)) (row column : Nat) :
    Option (Except DecodeError Value) := do
  let spec ← columns[column]?
  let items ← cells[row]?
  let cell ← items[column]?
  return spec.type.decode cell

/-- A row has the names of the columns and under each of them what the cell of the last column of
that name is read as, which is null if there is no cell. -/
structure Holds (columns : List Column) (items : List Cell) (row : Row) : Prop where
  names : ∀ name, name ∈ row.names ↔ ∃ column ∈ columns, column.name = name
  value : ∀ (place : Nat) (column : Column) (cell : Cell), columns[place]? = some column →
    items[place]? = some cell →
    (∀ (later : Nat) (other : Column), place < later → columns[later]? = some other →
      other.name ≠ column.name) →
    ∃ value, column.type.decode cell = .ok value ∧ row.get? column.name = some value ∧
      (cell = none → value = .null)

/-- The cell in this place is the first one, row by row, that cannot be read. -/
structure FailsFirst (columns : List Column) (cells : List (List Cell)) (row column : Nat)
    (err : DecodeError) : Prop where
  fails : valueAt? columns cells row column = some (.error err)
  rows_before : ∀ earlier < row, ∀ place e, valueAt? columns cells earlier place ≠ some (.error e)
  columns_before : ∀ earlier < column, ∀ e, valueAt? columns cells row earlier ≠ some (.error e)

theorem valueAt?_eq_some_iff {row column : Nat} {result : Except DecodeError Value} :
    valueAt? columns cells row column = some result ↔
      ∃ items, cells[row]? = some items ∧
        ∃ spec cell, (columns.zip items)[column]? = some (spec, cell) ∧
          spec.type.decode cell = result := by
  simp only [valueAt?, Option.bind_eq_bind, Option.bind_eq_some_iff, List.getElem?_zip_eq_some]
  constructor
  · rintro ⟨spec, hspec, items, hitems, cell, hcell, h⟩
    exact ⟨items, hitems, spec, cell, ⟨hspec, hcell⟩, Option.some.inj h⟩
  · rintro ⟨items, hitems, spec, cell, ⟨hspec, hcell⟩, rfl⟩
    exact ⟨spec, hspec, items, hitems, cell, hcell, rfl⟩

/-! ## A row -/

/-- A cell under the name of its column. -/
def readNamed (column : Column) (cell : Cell) : Except DecodeError (String × Value) := do
  return (column.name, ← column.type.decode cell)

theorem readNamed_eq_ok {column : Column} {cell : Cell} {entry : String × Value} :
    readNamed column cell = .ok entry ↔
      entry.1 = column.name ∧ column.type.decode cell = .ok entry.2 := by
  obtain ⟨name, value⟩ := entry
  rw [readNamed, bind_eq_ok]
  simp [pure_eq_ok, and_comm, eq_comm]

theorem readNamed_eq_error {column : Column} {cell : Cell} {err : DecodeError} :
    readNamed column cell = .error err ↔ column.type.decode cell = .error err := by
  rw [readNamed]
  cases column.type.decode cell <;> simp [ok_bind, error_bind, pure_eq_ok]

theorem readRow_eq (columns : List Column) (items : List Cell) :
    readRow columns items = ((columns.zip items).mapM fun x => readNamed x.1 x.2).map .ofList :=
  rfl

theorem exists_readRow_iff {items : List Cell} :
    (∃ row, readRow columns items = .ok row) ↔
      ∀ x ∈ columns.zip items, ∃ value, x.1.type.decode x.2 = .ok value := by
  have hentry (x : Column × Cell) : (∃ entry, readNamed x.1 x.2 = .ok entry) ↔
      ∃ value, x.1.type.decode x.2 = .ok value := by
    simp only [exists_eq_ok_iff, ne_eq, readNamed_eq_error]
  simp only [readRow_eq, map_eq_ok, ← hentry, ← exists_mapM_iff]
  exact ⟨fun ⟨_, entries, h, _⟩ => ⟨entries, h⟩, fun ⟨entries, h⟩ => ⟨_, entries, h, rfl⟩⟩

/-- A row fails with what its first cell fails with that does. -/
theorem readRow_eq_error_iff {items : List Cell} {err : DecodeError} :
    readRow columns items = .error err ↔
      ∃ (place : Nat) (x : Column × Cell), (columns.zip items)[place]? = some x ∧
        x.1.type.decode x.2 = .error err ∧
        ∀ (earlier : Nat) (y : Column × Cell), earlier < place →
          (columns.zip items)[earlier]? = some y → ∀ e, y.1.type.decode y.2 ≠ .error e := by
  rw [readRow_eq, map_eq_error, mapM_eq_error_iff_place]
  simp only [exists_eq_ok_iff, ne_eq, readNamed_eq_error]

theorem holds_of_readRow {items : List Cell} {row : Row} (hwidth : items.length = columns.length)
    (h : readRow columns items = .ok row) : Holds columns items row := by
  rw [readRow_eq] at h
  obtain ⟨entries, hentries, rfl⟩ := map_eq_ok.mp h
  have hread := mapM_eq_ok.mp hentries
  have hnames : entries.map Prod.fst = columns.map (·.name) := by
    have hzip : List.Forall₂ (fun (x : Column × Cell) name => x.1.name = name) (columns.zip items)
        (entries.map Prod.fst) :=
      List.forall₂_map_right_iff.mpr (hread.imp fun _ _ h => (readNamed_eq_ok.mp h).1.symm)
    calc
      entries.map Prod.fst = (columns.zip items).map fun x => x.1.name :=
        (map_eq_of_forall₂ hzip fun _ _ _ h => h).symm
      _ = ((columns.zip items).map Prod.fst).map (·.name) := (List.map_map ..).symm
      _ = columns.map (·.name) := by rw [List.map_fst_zip (Nat.le_of_eq hwidth.symm)]
  refine ⟨fun name => ?_, fun place column cell hcolumn hcell hlast => ?_⟩
  · rw [NameMap.mem_names_ofList, hnames, List.mem_map]
  · have hplace : (columns.zip items)[place]? = some (column, cell) :=
      List.getElem?_zip_eq_some.mpr ⟨hcolumn, hcell⟩
    obtain ⟨⟨name, value⟩, hget, hentry⟩ := getElem?_of_forall₂ hread hplace
    obtain ⟨rfl, hvalue⟩ := readNamed_eq_ok.mp hentry
    refine ⟨value, hvalue, NameMap.get?_ofList_of_last hget fun later entry hlt hlater => ?_, ?_⟩
    · have hname : (columns.map (·.name))[later]? = some entry.1 := by
        rw [← hnames, List.getElem?_map, hlater]
        rfl
      rw [List.getElem?_map] at hname
      obtain ⟨other, hother, hsame⟩ := Option.map_eq_some_iff.mp hname
      rw [← hsame]
      exact hlast later other hlt hother
    · rintro rfl
      cases hvalue
      rfl

/-! ## All rows -/

theorem ofOutcome_rows_eq_ok {result : ResultSet} :
    ofOutcome (.rows columns cells) = .ok result ↔
      result.columns = columns ∧ cells.mapM (readRow columns) = .ok result.rows := by
  obtain ⟨columns', rows⟩ := result
  rw [ofOutcome, bind_eq_ok]
  simp [pure_eq_ok, and_comm, eq_comm]

theorem ofOutcome_rows_eq_error {err : DecodeError} :
    ofOutcome (.rows columns cells) = .error err ↔
      cells.mapM (readRow columns) = .error err := by
  rw [ofOutcome]
  cases cells.mapM (readRow columns) <;> simp [ok_bind, error_bind, pure_eq_ok]

/-- What is read is the result of a table exactly if all its cells can be read. -/
theorem exists_ofOutcome_rows_iff (h : Tabular columns cells) :
    (∃ result, ofOutcome (.rows columns cells) = .ok result) ↔
      ∀ row < cells.length, ∀ column < columns.length,
        ∃ value, valueAt? columns cells row column = some (.ok value) := by
  have hrows : (∃ result, ofOutcome (.rows columns cells) = .ok result) ↔
      ∀ items ∈ cells, ∃ row, readRow columns items = .ok row := by
    rw [← exists_mapM_iff]
    simp only [ofOutcome_rows_eq_ok]
    exact ⟨fun ⟨result, _, hrows⟩ => ⟨_, hrows⟩, fun ⟨rows, hrows⟩ => ⟨⟨columns, rows⟩, rfl, hrows⟩⟩
  rw [hrows]
  simp only [exists_readRow_iff]
  constructor
  · intro hall row hrow column hcolumn
    have hitems := List.getElem_mem hrow
    have hplace : column < (columns.zip cells[row]).length := by
      rw [List.length_zip, h.row_length _ hitems, Nat.min_self]
      exact hcolumn
    obtain ⟨value, hvalue⟩ := hall _ hitems _ (List.getElem_mem hplace)
    exact ⟨value, valueAt?_eq_some_iff.mpr ⟨_, List.getElem?_eq_getElem hrow, _, _,
      List.getElem?_eq_getElem hplace, hvalue⟩⟩
  · intro hall items hitems x hx
    obtain ⟨row, hrow⟩ := List.mem_iff_getElem?.mp hitems
    obtain ⟨column, hcolumn⟩ := List.mem_iff_getElem?.mp hx
    have hplace : column < columns.length := by
      have hlt := (List.getElem?_eq_some_iff.mp hcolumn).1
      rw [List.length_zip] at hlt
      omega
    obtain ⟨value, hvalue⟩ := hall row (List.getElem?_eq_some_iff.mp hrow).1 column hplace
    obtain ⟨items', hrow', spec, cell, hcell, hread⟩ := valueAt?_eq_some_iff.mp hvalue
    cases hrow.symm.trans hrow'
    cases hcolumn.symm.trans hcell
    exact ⟨value, hread⟩

theorem ofOutcome_rows_eq_error_iff {err : DecodeError} :
    ofOutcome (.rows columns cells) = .error err ↔
      ∃ row column, FailsFirst columns cells row column err := by
  rw [ofOutcome_rows_eq_error, mapM_eq_error_iff_place]
  simp only [exists_readRow_iff]
  constructor
  · rintro ⟨row, items, hrow, hfails, hbefore⟩
    obtain ⟨column, x, hx, herr, hearlier⟩ := readRow_eq_error_iff.mp hfails
    refine ⟨row, column, valueAt?_eq_some_iff.mpr ⟨items, hrow, x.1, x.2, hx, herr⟩, ?_, ?_⟩
    · intro earlier hlt place e hfirst
      obtain ⟨others, hothers, spec, cell, hcell, hread⟩ := valueAt?_eq_some_iff.mp hfirst
      obtain ⟨value, hvalue⟩ := hbefore earlier others hlt hothers _ (List.mem_of_getElem? hcell)
      cases hread.symm.trans hvalue
    · intro earlier hlt e hfirst
      obtain ⟨others, hothers, spec, cell, hcell, hread⟩ := valueAt?_eq_some_iff.mp hfirst
      cases hrow.symm.trans hothers
      exact hearlier earlier _ hlt hcell e hread
  · rintro ⟨row, column, hfirst⟩
    obtain ⟨items, hrow, spec, cell, hcell, herr⟩ := valueAt?_eq_some_iff.mp hfirst.fails
    refine ⟨row, items, hrow, readRow_eq_error_iff.mpr ⟨column, _, hcell, herr, ?_⟩, ?_⟩
    · intro earlier x hlt hx e hread
      exact hfirst.columns_before earlier hlt e
        (valueAt?_eq_some_iff.mpr ⟨items, hrow, x.1, x.2, hx, hread⟩)
    · intro earlier others hlt hothers x hx
      obtain ⟨place, hplace⟩ := List.mem_iff_getElem?.mp hx
      refine exists_eq_ok_iff.mpr fun e hread => hfirst.rows_before earlier hlt place e ?_
      exact valueAt?_eq_some_iff.mpr ⟨others, hothers, x.1, x.2, hplace, hread⟩

/-- The result of a table that a response carries is read exactly if each of its cells can be read
by the type of its column. It has the columns of the table and a row for each of its rows, in their
order, with every name of a column; and if a cell cannot be read the result fails as the first such
cell, row by row, does. -/
theorem ofOutcome_keeps_table {bytes : Bytes}
    (h : Response.decode .result bytes = .ok (.result (.rows columns cells))) :
    ((∃ result, ofOutcome (.rows columns cells) = .ok result) ↔
      ∀ row < cells.length, ∀ column < columns.length,
        ∃ value, valueAt? columns cells row column = some (.ok value)) ∧
    (∀ result, ofOutcome (.rows columns cells) = .ok result →
      result.columns = columns ∧ result.rows.length = cells.length ∧
      ∀ (place : Nat) (row : Row), result.rows[place]? = some row →
        ∃ items, cells[place]? = some items ∧ Holds columns items row) ∧
    ∀ err, ofOutcome (.rows columns cells) = .error err ↔
      ∃ row column, FailsFirst columns cells row column err := by
  obtain ⟨-, htable : Tabular columns cells⟩ := Response.representable_of_decode h
  refine ⟨exists_ofOutcome_rows_iff htable, fun result hresult => ?_,
    fun err => ofOutcome_rows_eq_error_iff⟩
  obtain ⟨hcolumns, hrows⟩ := ofOutcome_rows_eq_ok.mp hresult
  have hread := mapM_eq_ok.mp hrows
  refine ⟨hcolumns, hread.length_eq.symm, fun place row hrow => ?_⟩
  obtain ⟨items, hitems, hitem⟩ := getElem?_of_forall₂ hread.flip hrow
  have hwidth := htable.row_length items (List.mem_of_getElem? hitems)
  exact ⟨items, hitems, holds_of_readRow hwidth hitem⟩

/-- Two columns of one name with a decimal between them, which can only be read where it is null.
The last of the two gives the value; and of three bad cells the decimal comes first. -/
theorem ofOutcome_keeps_table_of_same_names :
    let columns : List Column :=
      [⟨"k", "t", "a", .scalar .int⟩, ⟨"k", "t", "d", .scalar .decimal⟩,
        ⟨"k", "t", "a", .scalar .text⟩]
    let good : List (List Cell) := [[some [0, 0, 0, 5], none, some [120]]]
    let bad : List (List Cell) :=
      [[none, none, none], [some [0, 0, 0, 5], some [1], some [255]], [some [1], none, none]]
    Response.decode .result (Outcome.rows columns good).body = .ok (.result (.rows columns good)) ∧
      (∃ result row, ofOutcome (.rows columns good) = .ok result ∧ result.rows = [row] ∧
        row.get? "a" = some (.text "x") ∧ row.get? "d" = some .null) ∧
      Response.decode .result (Outcome.rows columns bad).body = .ok (.result (.rows columns bad)) ∧
      FailsFirst columns bad 1 1 (.unsupported (.scalar .decimal)) ∧
      ofOutcome (.rows columns bad) = .error (.unsupported (.scalar .decimal)) := by
  intro columns good bad
  have hfits : ∀ column ∈ columns, column.Fits := by
    simp only [columns, List.forall_mem_cons]
    refine ⟨?_, ?_, ?_, nofun⟩ <;> constructor <;> decide
  have hgood : Response.decode .result (Outcome.rows columns good).body =
      .ok (.result (.rows columns good)) := by
    refine @Response.decode_of_hasBody (.result (.rows _ _)) ?_ _ rfl
    refine ⟨by decide, by decide, by decide, hfits, by decide, ?_⟩
    simp [good]
  have hbad : Response.decode .result (Outcome.rows columns bad).body =
      .ok (.result (.rows columns bad)) := by
    refine @Response.decode_of_hasBody (.result (.rows _ _)) ?_ _ rfl
    refine ⟨by decide, by decide, by decide, hfits, by decide, ?_⟩
    simp [bad]
  have hfirst : FailsFirst columns bad 1 1 (.unsupported (.scalar .decimal)) := by
    refine ⟨rfl, fun earlier hlt place e h => ?_, fun earlier hlt e h => ?_⟩
    · obtain rfl := Nat.lt_one_iff.mp hlt
      rcases place with _ | _ | _ | place <;> cases h
    · obtain rfl := Nat.lt_one_iff.mp hlt
      cases h
  obtain ⟨hread, hholds, -⟩ := ofOutcome_keeps_table hgood
  obtain ⟨-, -, hfails⟩ := ofOutcome_keeps_table hbad
  have hvalues (column : Nat) (hcolumn : column < 3) :
      ∃ value, valueAt? columns good 0 column = some (.ok value) := by
    rcases column with _ | _ | _ | column
    · exact ⟨.int 5, rfl⟩
    · exact ⟨.null, rfl⟩
    · exact ⟨.text "x", rfl⟩
    · omega
  obtain ⟨result, hresult⟩ := hread.mpr fun row hrow column hcolumn => by
    obtain rfl := Nat.lt_one_iff.mp hrow
    exact hvalues column hcolumn
  obtain ⟨-, hlength, hrows⟩ := hholds result hresult
  obtain ⟨row, hrow⟩ := List.length_eq_one_iff.mp hlength
  obtain ⟨items, hitems, hrow'⟩ := hrows 0 row (by rw [hrow]; rfl)
  cases hitems
  have hbeyond {later : Nat} {other : Column} (hlt : 2 < later) : columns[later]? ≠ some other := by
    rw [List.getElem?_eq_none hlt]
    exact (Option.some_ne_none other).symm
  have htext : (WireType.scalar .text).decode (some [120]) = .ok (.text "x") := rfl
  obtain ⟨text, hdecode, hlast, -⟩ := hrow'.value 2 _ _ rfl rfl fun later other hlt hother =>
    absurd hother (hbeyond hlt)
  obtain ⟨absent, -, honly, hnull⟩ := hrow'.value 1 _ _ rfl rfl fun later other hlt hother => by
    rcases Nat.lt_or_eq_of_le hlt with hgreater | rfl
    · exact absurd hother (hbeyond hgreater)
    · cases hother
      decide
  cases htext.symm.trans hdecode
  rw [hnull rfl] at honly
  exact ⟨hgood, ⟨result, row, hresult, hrow, hlast, honly⟩, hbad, hfirst,
    (hfails _).mpr ⟨1, 1, hfirst⟩⟩

end CqlClient.ResultSet
