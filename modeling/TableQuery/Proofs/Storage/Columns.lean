import TableQuery.Proofs.Projection
import TableQuery.Proofs.Storage.RoundTrip

/-! The columns of a delimited table. Every record after the first gives a row of the same names,
whether it has too few fields or too many. A name that the header has twice belongs to its last
place, also where a short record does not reach so far. -/
namespace TableQuery

namespace Sample

/-- A record with too many fields and one with too few, under a name that stands twice. -/
def uneven : List UInt8 := "a, b ,a\n1,2,3,4\n5,6\n".toUTF8.toList

def unevenRows : Table := [
  .ofCells [("a", .text "3"), ("b", .text "2")],
  .ofCells [("a", .text ""), ("b", .text "6")]]

end Sample

section Results

variable {ε α β : Type} {x : Except ε α} {b : β}

theorem Except.map_eq_ok_iff {f : α → β} : x.map f = .ok b ↔ ∃ a, x = .ok a ∧ f a = b := by
  cases x <;> simp [Except.map]

theorem Except.mapError_eq_ok_iff {ε' : Type} {f : ε → ε'} {a : α} :
    x.mapError f = .ok a ↔ x = .ok a := by
  cases x <;> simp [Except.mapError]

theorem Except.bind_eq_ok_iff {f : α → Except ε β} :
    x.bind f = .ok b ↔ ∃ a, x = .ok a ∧ f a = .ok b := by
  cases x <;> simp [Except.bind]

end Results

namespace Row

variable {cells : List (String × Value)} {place : Nat} {name : String} {value : Value}

/-- A row holds no cell but those that it is made of. -/
theorem mem_of_mem_ofCells {cell : String × Value} (mem : cell ∈ (ofCells cells).cells) :
    cell ∈ cells := by
  have held := get?_of_mem_cells mem
  rw [get?_ofCells, List.lookup_eq_some_iff] at held
  obtain ⟨before, after, parts, -⟩ := held
  rw [← List.mem_reverse, parts]
  simp

/-- Of the cells that a row is made of, the last one under a name is what it holds there. -/
theorem get?_ofCells_last (here : cells[place]? = some (name, value))
    (last : ∀ later, place < later → (Cells.keys cells)[later]? ≠ some name) :
    (ofCells cells).get? name = some value := by
  obtain ⟨inside, same⟩ := List.getElem?_eq_some_iff.mp here
  have parts : cells = cells.take place ++ (name, value) :: cells.drop (place + 1) := by
    rw [← same, List.cons_getElem_drop_succ, List.take_append_drop]
  rw [get?_ofCells, List.lookup_eq_some_iff]
  refine ⟨(cells.drop (place + 1)).reverse, (cells.take place).reverse, ?_, ?_⟩
  · conv_lhs => rw [parts]
    simp
  · intro cell mem
    obtain ⟨n, found⟩ := List.mem_iff_getElem?.mp (List.mem_reverse.mp mem)
    rw [List.getElem?_drop] at found
    have named : (Cells.keys cells)[place + 1 + n]? = some cell.1 := by
      rw [Cells.keys, List.getElem?_map, found, Option.map_some]
    rw [bne_iff_ne]
    rintro rfl
    exact last (place + 1 + n) (by omega) named

theorem contains_iff_mem_keys {row : Row} : row.contains name ↔ name ∈ row.keys := by
  rw [contains, Option.isSome_iff_exists]
  constructor
  · rintro ⟨value, held⟩
    obtain ⟨before, after, parts, -⟩ := List.lookup_eq_some_iff.mp held
    rw [keys, Cells.keys, parts]
    simp
  · intro mem
    obtain ⟨cell, inside, rfl⟩ := List.mem_map.mp mem
    exact ⟨cell.2, get?_of_mem_cells inside⟩

end Row

namespace Csv

/-- The text of a name in the header: blanks around it are no part of it. -/
def columnName (text : String) : String := String.ofList (trim text.toList)

def RawRecord.Reads (record : RawRecord) (texts : List String) : Prop :=
  List.Forall₂ (fun bytes text => Utf8.decode bytes = .ok text) record.fields texts

/-- A row that holds the texts of a record under the names of a header. -/
structure IsRowOf (names texts : List String) (row : Row) : Prop where
  /-- Every name is there once, where it first comes. -/
  keys : row.keys = names.eraseDups
  text : ∀ cell ∈ row.cells, ∃ text, cell.2 = .text text
  /-- The last place of a name decides, and is empty where the record ends before it. -/
  last : ∀ place name, names[place]? = some name →
    (∀ later, place < later → names[later]? ≠ some name) →
    row.get? name = some (.text (texts.getD place ""))

section Rows

variable {names texts : List String}

theorem keys_nameFields (names texts : List String) :
    Cells.keys (nameFields names texts) = names := by
  induction names generalizing texts with
  | nil => rfl
  | cons name rest ih =>
    cases texts with
    | nil => exact congrArg (List.cons name) (ih [])
    | cons text texts => exact congrArg (List.cons name) (ih texts)

theorem getElem?_nameFields (names texts : List String) (place : Nat) :
    (nameFields names texts)[place]? =
      names[place]?.map fun name => (name, .text (texts.getD place "")) := by
  induction names generalizing texts place with
  | nil => rfl
  | cons name rest ih =>
    cases texts with
    | nil =>
      cases place with
      | zero => rfl
      | succ place => simpa [nameFields] using ih [] place
    | cons text texts =>
      cases place with
      | zero => rfl
      | succ place => simpa [nameFields] using ih texts place

theorem isRowOf_ofCells (names texts : List String) :
    IsRowOf names texts (Row.ofCells (nameFields names texts)) where
  keys := by rw [Row.keys_ofCells, keys_nameFields]
  text := by
    intro cell mem
    obtain ⟨place, found⟩ := List.mem_iff_getElem?.mp (Row.mem_of_mem_ofCells mem)
    rw [getElem?_nameFields, Option.map_eq_some_iff] at found
    obtain ⟨name, -, rfl⟩ := found
    exact ⟨texts.getD place "", rfl⟩
  last := by
    intro place name here last
    have cell : (nameFields names texts)[place]? = some (name, .text (texts.getD place "")) := by
      rw [getElem?_nameFields, here, Option.map_some]
    exact Row.get?_ofCells_last cell (by rwa [keys_nameFields])

end Rows

section Records

variable {names texts : List String} {record : RawRecord} {found : List RawRecord} {rows : Table}

theorem reads_of_decodeFields {number index : Nat} {fields : List (List UInt8)}
    (done : decodeFields number index record fields = .ok texts) :
    List.Forall₂ (fun bytes text => Utf8.decode bytes = .ok text) fields texts := by
  induction fields generalizing index texts with
  | nil =>
    cases done
    exact .nil
  | cons field rest ih =>
    unfold decodeFields at done
    cases first : Utf8.decode field with
    | error position =>
      rw [first] at done
      cases done
    | ok text =>
      rw [first] at done
      obtain ⟨more, others, rfl⟩ := Except.map_eq_ok_iff.mp done
      exact .cons first (ih others)

/-- Each record gives one row, in order. -/
theorem rows_of_rowsOf {number : Nat} (done : rowsOf names number found = .ok rows) :
    List.Forall₂ (fun record row => ∃ texts, record.Reads texts ∧ IsRowOf names texts row) found
      rows := by
  induction found generalizing number rows with
  | nil =>
    cases done
    exact .nil
  | cons record rest ih =>
    obtain ⟨texts, first, done⟩ := Except.bind_eq_ok_iff.mp done
    obtain ⟨more, others, done⟩ := Except.bind_eq_ok_iff.mp done
    cases done
    exact .cons ⟨texts, reads_of_decodeFields first, isRowOf_ofCells names texts⟩ (ih others)

/-- A name is in all rows of one header or in none. -/
theorem contains_or_of_isRowOf {data : List RawRecord}
    (each : List.Forall₂ (fun record row => ∃ texts, record.Reads texts ∧ IsRowOf names texts row)
      data rows) (name : String) :
    (∀ row ∈ rows, row.contains name) ∨ ∀ row ∈ rows, ¬ row.contains name := by
  have told : ∀ row ∈ rows, (row.contains name ↔ name ∈ names) := by
    intro row mem
    induction each with
    | nil => cases mem
    | cons first _ ih =>
      rcases List.mem_cons.mp mem with rfl | mem
      · obtain ⟨texts, -, made⟩ := first
        rw [Row.contains_iff_mem_keys, made.keys, List.mem_eraseDups]
      · exact ih mem
  by_cases named : name ∈ names
  · exact .inl fun row mem => (told row mem).mpr named
  · exact .inr fun row mem held => named ((told row mem).mp held)

end Records

/-- A content that is read gives one row for each record after the first, in order. All rows have
the names of the first record, each once and without the blanks around it, and hold the texts of
their own. So a field is in every row or in none. -/
theorem parseTable_columns {table : String} {delimiter : UInt8} {content : List UInt8}
    {rows : Table} (done : parseTable table delimiter content = .ok rows) :
    ∃ names : List String,
      (∀ header ∈ (records delimiter content).head?,
        ∃ texts, header.Reads texts ∧ names = texts.map columnName) ∧
      List.Forall₂ (fun record row => ∃ texts, record.Reads texts ∧ IsRowOf names texts row)
        (records delimiter content).tail rows ∧
      ∀ name, (∀ row ∈ rows, row.contains name) ∨ ∀ row ∈ rows, ¬ row.contains name := by
  have parsed : parse delimiter content = .ok rows := Except.mapError_eq_ok_iff.mp done
  unfold parse at parsed
  cases found : records delimiter content with
  | nil =>
    rw [found] at parsed
    cases parsed
    exact ⟨[], by simp, .nil, by simp⟩
  | cons header data =>
    rw [found] at parsed
    obtain ⟨texts, first, parsed⟩ := Except.bind_eq_ok_iff.mp parsed
    have each := rows_of_rowsOf parsed
    refine ⟨texts.map columnName, ?_, each, contains_or_of_isRowOf each⟩
    rintro _ ⟨⟩
    exact ⟨texts, reads_of_decodeFields first, rfl⟩

/-- The second of two columns takes the place of the first, in the short record too, where it is
empty, and the field that is too many is dropped. -/
theorem parseTable_uneven :
    parseTable "uneven" 0x2C Sample.uneven = .ok Sample.unevenRows ∧
      ∃ names, List.Forall₂
        (fun record row => ∃ texts, record.Reads texts ∧ IsRowOf names texts row)
        (records 0x2C Sample.uneven).tail Sample.unevenRows := by
  have done : parseTable "uneven" 0x2C Sample.uneven = .ok Sample.unevenRows := by decide +kernel
  obtain ⟨names, -, each, -⟩ := parseTable_columns done
  exact ⟨done, names, each⟩

end Csv
end TableQuery
