import TableQuery.Proofs.Writing
import TableQuery.Storage.CsvWriter
import TableQuery.Storage.Source

/-! Delimited text that is written is read back. The scan is followed from field to field through
what it holds: its state, the bytes of the field, and the fields and records that are complete. -/
namespace TableQuery

section Bytes

theorem ByteArray.toList_loop_eq (bytes : ByteArray) (start : Nat) (read : List UInt8) :
    ByteArray.toList.loop bytes start read = read.reverse ++ bytes.data.toList.drop start := by
  induction start, read using ByteArray.toList.loop.induct bytes with
  | case1 start read inside ih =>
    have here : start < bytes.data.toList.length := by simpa using inside
    have byte : bytes.get! start = bytes.data.toList[start] := by
      rw [Array.getElem_toList]
      exact getElem!_pos bytes.data start (by simpa using inside)
    rw [ByteArray.toList.loop, if_pos inside, ih, List.drop_eq_getElem_cons here, byte]
    simp
  | case2 start read past =>
    have past' : bytes.data.toList.length ≤ start := by simpa using past
    rw [ByteArray.toList.loop, if_neg past, List.drop_eq_nil_of_le past', List.append_nil]

theorem Utf8.decode_toUTF8 (text : String) : Utf8.decode text.toUTF8.toList = .ok text := by
  have packed : (⟨text.toUTF8.toList.toArray⟩ : ByteArray) = text.toUTF8 := by
    rw [ByteArray.toList, ByteArray.toList_loop_eq]
    rfl
  have whole : String.fromUTF8? text.toUTF8 = some text := dif_pos text.isValidUTF8
  unfold Utf8.decode
  dsimp only
  rw [packed, whole]

end Bytes

namespace Csv

def fieldBytes (text : String) : List UInt8 := text.toUTF8.toList

def State.Between (state : State) : Prop := state = .recordStart ∨ state = .afterReturn

def State.Begins (state : State) : Prop := state.Between ∨ state = .fieldStart

/-- A byte that can stand between fields. -/
structure Delimits (delimiter : UInt8) : Prop where
  notQuote : delimiter ≠ quoteMark
  notLineFeed : delimiter ≠ lineFeed
  notReturn : delimiter ≠ carriageReturn

theorem Delimits.notTerminator {delimiter : UInt8} (delimits : Delimits delimiter) :
    isTerminator delimiter = false := by
  simp [isTerminator, delimits.notLineFeed, delimits.notReturn]

namespace Scan

/-- What a scan holds, places in the content aside. -/
structure Holds (scan : Scan) (state : State) (field : List UInt8) (fields : List (List UInt8))
    (records : List (List (List UInt8))) : Prop where
  state : scan.state = state
  field : scan.field.toList = field
  fields : scan.fields.toList = fields
  records : scan.records.toList.map RawRecord.fields = records

def run (delimiter : UInt8) (scan : Scan) (bytes : List UInt8) : Scan :=
  bytes.foldl (step delimiter) scan

variable {delimiter b : UInt8} {scan : Scan} {state : State} {bytes field : List UInt8}
  {fields : List (List UInt8)} {records : List (List (List UInt8))}

theorem run_append (bytes more : List UInt8) :
    scan.run delimiter (bytes ++ more) = (scan.run delimiter bytes).run delimiter more :=
  List.foldl_append

theorem Holds.count (h : scan.Holds state field fields records) (b : UInt8) :
    (scan.count b).Holds state field fields records :=
  ⟨h.state, h.field, h.fields, h.records⟩

theorem Holds.inState (h : scan.Holds state field fields records) (next : State) :
    { scan with state := next }.Holds next field fields records :=
  ⟨rfl, h.field, h.fields, h.records⟩

theorem Holds.push (h : scan.Holds state field fields records) (b : UInt8) (next : State) :
    (scan.push b next).Holds next (field ++ [b]) fields records :=
  ⟨rfl, by simp [Scan.push, h.field], h.fields, h.records⟩

theorem Holds.endField (h : scan.Holds state field fields records) :
    scan.endField.Holds .fieldStart [] (fields ++ [field]) records :=
  ⟨rfl, rfl, by simp [Scan.endField, h.field, h.fields], h.records⟩

theorem Holds.endRecord (h : scan.Holds state field fields records) (next : State) :
    (scan.endRecord next).Holds next [] [] (records ++ [fields ++ [field]]) :=
  ⟨rfl, rfl, rfl, by simp [Scan.endRecord, h.field, h.fields, h.records]⟩

theorem step_open (begins : state.Begins) (h : scan.Holds state [] fields records) :
    (scan.step delimiter quoteMark).Holds .quoted [] fields records := by
  have counted := h.count quoteMark
  have opened : scan.step delimiter quoteMark = { scan.count quoteMark with state := .quoted } := by
    obtain (rfl | rfl) | rfl := begins
    all_goals
      simp only [step, counted.state]
      rfl
  rw [opened]
  exact counted.inState .quoted

theorem step_quoted (h : scan.Holds .quoted field fields records) (plain : b ≠ quoteMark) :
    (scan.step delimiter b).Holds .quoted (field ++ [b]) fields records := by
  have counted := h.count b
  simp only [step, counted.state, beq_iff_eq, plain, if_false]
  exact counted.push b .quoted

theorem step_quote (h : scan.Holds .quoted field fields records) :
    (scan.step delimiter quoteMark).Holds .quoteSeen field fields records := by
  have counted := h.count quoteMark
  simp only [step, counted.state, beq_self_eq_true, if_true]
  exact counted.inState .quoteSeen

theorem step_quoteAgain (h : scan.Holds .quoteSeen field fields records) :
    (scan.step delimiter quoteMark).Holds .quoted (field ++ [quoteMark]) fields records := by
  have counted := h.count quoteMark
  simp only [step, counted.state, beq_self_eq_true, if_true]
  exact counted.push quoteMark .quoted

/-- After the closing quote a byte that is no quote is read as after a bare field. -/
theorem step_closed (h : scan.Holds .quoteSeen field fields records) (plain : b ≠ quoteMark) :
    scan.step delimiter b = (scan.count b).afterBare delimiter b := by
  simp only [step, (h.count b).state, beq_iff_eq, plain, if_false]

theorem step_delimiter (delimits : Delimits delimiter)
    (h : scan.Holds .quoteSeen field fields records) :
    (scan.step delimiter delimiter).Holds .fieldStart [] (fields ++ [field]) records := by
  rw [step_closed h delimits.notQuote, afterBare, if_pos (beq_self_eq_true delimiter)]
  exact (h.count delimiter).endField

theorem step_terminator (delimits : Delimits delimiter)
    (h : scan.Holds .quoteSeen field fields records) (terminates : isTerminator b) :
    (scan.step delimiter b).Holds (if b == carriageReturn then .afterReturn else .recordStart) []
      [] (records ++ [fields ++ [field]]) := by
  have plain : b ≠ quoteMark := by
    rintro rfl
    exact absurd terminates (by decide)
  have other : ¬ (b == delimiter) := by
    intro same
    rw [eq_of_beq same, delimits.notTerminator] at terminates
    cases terminates
  rw [step_closed h plain, afterBare, if_neg other, if_pos terminates]
  exact (h.count b).endRecord _

/-- The line feed after a carriage return ends no further record. -/
theorem step_lineFeed (h : scan.Holds .afterReturn [] [] records) :
    (scan.step delimiter lineFeed).Holds .recordStart [] [] records := by
  have counted := h.count lineFeed
  simp only [step, counted.state, beq_self_eq_true, if_true]
  exact counted.inState .recordStart

/-- What a quote inside a field is written as is read as one quote. -/
theorem run_escapeByte (h : scan.Holds .quoted field fields records) (b : UInt8) :
    (scan.run delimiter (escapeByte b)).Holds .quoted (field ++ [b]) fields records := by
  unfold escapeByte
  split
  · rename_i quote
    subst quote
    exact step_quoteAgain (step_quote h)
  · rename_i plain
    exact step_quoted h plain

theorem run_escaped (h : scan.Holds .quoted field fields records) (bytes : List UInt8) :
    (scan.run delimiter (bytes.flatMap escapeByte)).Holds .quoted (field ++ bytes) fields
      records := by
  induction bytes generalizing scan field with
  | nil => simpa [run] using h
  | cons b rest ih =>
    rw [List.flatMap_cons, run_append, List.append_cons]
    exact ih (run_escapeByte h b)

theorem run_writeField (begins : state.Begins) (h : scan.Holds state [] fields records)
    (text : String) :
    (scan.run delimiter (writeField text)).Holds .quoteSeen (fieldBytes text) fields records := by
  have written : writeField text =
      quoteMark :: ((fieldBytes text).flatMap escapeByte ++ [quoteMark]) := rfl
  rw [written, run, List.foldl_cons, ← run, run_append]
  exact step_quote (run_escaped (step_open begins h) (fieldBytes text))

/-- The last field of a record is still open when its last byte is read. -/
def HoldsAll (scan : Scan) (fields : List (List UInt8)) (records : List (List (List UInt8))) :
    Prop :=
  ∃ before last, fields = before ++ [last] ∧ scan.Holds .quoteSeen last before records

theorem run_writeFields (delimits : Delimits delimiter) (begins : state.Begins)
    (h : scan.Holds state [] fields records) {texts : List String} (nonempty : texts ≠ []) :
    (scan.run delimiter (writeFields delimiter texts)).HoldsAll (fields ++ texts.map fieldBytes)
      records := by
  induction texts generalizing scan state fields with
  | nil => exact absurd rfl nonempty
  | cons text rest ih =>
    have first : (scan.run delimiter (writeField text)).Holds .quoteSeen (fieldBytes text) fields
        records := run_writeField begins h text
    cases rest with
    | nil => exact ⟨fields, fieldBytes text, rfl, first⟩
    | cons next rest =>
      have written : writeFields delimiter (text :: next :: rest) =
          writeField text ++ delimiter :: writeFields delimiter (next :: rest) := rfl
      rw [written, run_append, run, List.foldl_cons, ← run, List.map_cons, List.append_cons]
      exact ih (.inr rfl) (step_delimiter delimits first) (List.cons_ne_nil next rest)

theorem run_lineEnd (delimits : Delimits delimiter) (h : scan.HoldsAll fields records)
    (ending : LineEnd) :
    ∃ state : State, state.Between ∧
      (scan.run delimiter ending.bytes).Holds state [] [] (records ++ [fields]) := by
  obtain ⟨before, last, rfl, held⟩ := h
  cases ending with
  | lineFeed => exact ⟨.recordStart, .inl rfl, step_terminator delimits held (by decide)⟩
  | carriageReturn => exact ⟨.afterReturn, .inr rfl, step_terminator delimits held (by decide)⟩
  | both =>
    refine ⟨.recordStart, .inl rfl, step_lineFeed ?_⟩
    exact step_terminator delimits held (by decide)

/-- A record that is written is read, whatever ends it. -/
theorem run_record (delimits : Delimits delimiter) (between : state.Between)
    (h : scan.Holds state [] [] records) {texts : List String} (nonempty : texts ≠ [])
    (ending : LineEnd) :
    ∃ state : State, state.Between ∧
      (scan.run delimiter (writeFields delimiter texts ++ ending.bytes)).Holds state [] []
        (records ++ [texts.map fieldBytes]) := by
  rw [run_append]
  exact run_lineEnd delimits (run_writeFields delimits (.inl between) h nonempty) ending

theorem run_write (delimits : Delimits delimiter) (between : state.Between)
    (h : scan.Holds state [] [] records) {written : List (List String × LineEnd)}
    (nonempty : ∀ record ∈ written, record.1 ≠ []) :
    ∃ state : State, state.Between ∧
      (scan.run delimiter (write delimiter written)).Holds state [] []
        (records ++ written.map fun record => record.1.map fieldBytes) := by
  induction written generalizing scan state records with
  | nil => exact ⟨state, between, by simpa [run, write] using h⟩
  | cons record rest ih =>
    obtain ⟨next, between', h'⟩ :=
      run_record delimits between h (nonempty record List.mem_cons_self) record.2
    rw [write, List.flatMap_cons, ← write, run_append, List.map_cons, List.append_cons]
    exact ih between' h' fun other mem => nonempty other (List.mem_cons_of_mem _ mem)

theorem finish_between (between : state.Between) (h : scan.Holds state [] [] records) :
    scan.finish.map RawRecord.fields = records := by
  unfold finish
  obtain rfl | rfl := between <;> rw [h.state] <;> exact h.records

theorem finish_open (h : scan.HoldsAll fields records) :
    scan.finish.map RawRecord.fields = records ++ [fields] := by
  obtain ⟨before, last, rfl, held⟩ := h
  unfold finish
  rw [held.state]
  exact (held.endRecord .recordStart).records

end Scan

/-- Records one after another, the last of them with no end. -/
def writeOpen (delimiter : UInt8) : List (List String × LineEnd) → List UInt8
  | [] => []
  | [last] => writeFields delimiter last.1
  | record :: rest => writeFields delimiter record.1 ++ record.2.bytes ++ writeOpen delimiter rest

section Content

variable {delimiter : UInt8} {names : List String} {written : List (List String × LineEnd)}

theorem run_writeOpen (delimits : Delimits delimiter) {scan : Scan} {state : State}
    (between : state.Between) {records : List (List (List UInt8))}
    (h : scan.Holds state [] [] records) (given : written ≠ [])
    (nonempty : ∀ record ∈ written, record.1 ≠ []) :
    (scan.run delimiter (writeOpen delimiter written)).finish.map RawRecord.fields =
      records ++ written.map fun record => record.1.map fieldBytes := by
  induction written generalizing scan state records with
  | nil => exact absurd rfl given
  | cons record rest ih =>
    have filled := nonempty record List.mem_cons_self
    cases rest with
    | nil => exact Scan.finish_open (Scan.run_writeFields delimits (.inl between) h filled)
    | cons next rest =>
      obtain ⟨state', between', h'⟩ := Scan.run_record delimits between h filled record.2
      have content : writeOpen delimiter (record :: next :: rest) =
          writeFields delimiter record.1 ++ record.2.bytes ++ writeOpen delimiter (next :: rest) :=
        rfl
      rw [content, Scan.run_append, List.map_cons, List.append_cons]
      exact ih between' h' (List.cons_ne_nil next rest) fun other mem =>
        nonempty other (List.mem_cons_of_mem _ mem)

/-- A content that begins with a quoted field has no byte order mark in front. -/
theorem records_append (named : names ≠ []) (rest : List UInt8) :
    records delimiter (writeFields delimiter names ++ rest) =
      (Scan.run delimiter {} (writeFields delimiter names ++ rest)).finish := by
  obtain ⟨more, quoted⟩ : ∃ more, writeFields delimiter names ++ rest = quoteMark :: more := by
    match names with
    | [] => exact absurd rfl named
    | [text] => exact ⟨_, rfl⟩
    | text :: next :: others => exact ⟨_, rfl⟩
  rw [quoted]
  rfl

theorem exists_writeOpen_eq (delimiter : UInt8) (names : List String) (ending : LineEnd)
    (rows : List (List String × LineEnd)) :
    ∃ rest, writeOpen delimiter ((names, ending) :: rows) =
      writeFields delimiter names ++ rest := by
  cases rows with
  | nil => exact ⟨[], (List.append_nil _).symm⟩
  | cons next rest => exact ⟨_, List.append_assoc _ _ _⟩

theorem decodeFields_fieldBytes (texts : List String) (number index : Nat) (record : RawRecord) :
    decodeFields number index record (texts.map fieldBytes) = .ok texts := by
  induction texts generalizing index with
  | nil => rfl
  | cons text rest ih =>
    rw [List.map_cons, decodeFields, fieldBytes, Utf8.decode_toUTF8]
    dsimp only
    rw [ih]
    rfl

theorem decode_of_fields {record : RawRecord} {texts : List String}
    (same : record.fields = texts.map fieldBytes) (number : Nat) :
    record.decode number = .ok texts := by
  rw [RawRecord.decode, same]
  exact decodeFields_fieldBytes texts number 0 record

theorem rowsOf_of_fields {found : List RawRecord} (number : Nat)
    (same : found.map RawRecord.fields = written.map fun record => record.1.map fieldBytes) :
    rowsOf names number found =
      .ok (written.map fun record => Row.ofCells (nameFields names record.1)) := by
  induction written generalizing found number with
  | nil =>
    obtain rfl := List.map_eq_nil_iff.mp same
    rfl
  | cons texts rest ih =>
    obtain ⟨record, others, rfl, first, same⟩ := List.map_eq_cons_iff.mp same
    rw [rowsOf, decode_of_fields first, ih (number + 1) same]
    rfl

/-- Where every name has a field, a row is each name with its field. -/
theorem nameFields_eq_zip {texts : List String} (full : texts.length = names.length) :
    nameFields names texts = names.zip (texts.map Value.text) := by
  induction names generalizing texts with
  | nil => rfl
  | cons name rest ih =>
    cases texts with
    | nil => simp at full
    | cons text texts =>
      rw [nameFields, ih (Nat.succ.inj full)]
      rfl

theorem parse_of_fields {content : List UInt8} {ending : LineEnd}
    (trimmed : ∀ name ∈ names, trim name.toList = name.toList)
    (same : (records delimiter content).map RawRecord.fields =
      ((names, ending) :: written).map fun record => record.1.map fieldBytes) :
    parse delimiter content =
      .ok (written.map fun record => Row.ofCells (nameFields names record.1)) := by
  obtain ⟨header, rest, found, first, same⟩ := List.map_eq_cons_iff.mp same
  have kept : names.map (fun name => String.ofList (trim name.toList)) = names.map id :=
    List.map_congr_left fun name mem => by rw [trimmed name mem, String.ofList_toList, id]
  rw [List.map_id] at kept
  rw [parse, found]
  change (header.decode 0).bind _ = _
  rw [decode_of_fields first]
  change rowsOf (names.map fun name => String.ofList (trim name.toList)) 1 rest = _
  rw [kept, rowsOf_of_fields 1 same]

/-- The cells of a row that is read are its names with their texts. -/
theorem cells_named {texts : List String} (distinct : names.Nodup)
    (full : texts.length = names.length) :
    (Row.ofCells (nameFields names texts)).cells = names.zip (texts.map Value.text) := by
  have keys : Cells.keys (names.zip (texts.map Value.text)) = names := by
    rw [Cells.keys, List.map_fst_zip (by rw [List.length_map, full])]
  rw [nameFields_eq_zip full, Row.cells_ofCells_of_nodup (by rwa [keys])]

theorem parseTable_cells {rest : List UInt8} {ending : LineEnd} (table : String)
    (named : names ≠ []) (distinct : names.Nodup)
    (trimmed : ∀ name ∈ names, trim name.toList = name.toList)
    (full : ∀ record ∈ written, record.1.length = names.length)
    (scanned : (Scan.run delimiter {} (writeFields delimiter names ++ rest)).finish.map
        RawRecord.fields =
      ((names, ending) :: written).map fun record => record.1.map fieldBytes) :
    (parseTable table delimiter (writeFields delimiter names ++ rest)).map (List.map Row.cells) =
      .ok (written.map fun record => names.zip (record.1.map Value.text)) := by
  rw [← records_append named] at scanned
  rw [parseTable, parse_of_fields trimmed scanned]
  refine congrArg Except.ok ?_
  rw [List.map_map]
  exact List.map_congr_left fun record mem => cells_named distinct (full record mem)

/-- A table that is written is read back: one row for each record after the first, in order, with
the names of the first and the texts of its own, whatever ends the records and whether the last one
is ended at all. -/
theorem parseTable_write (table : String) (delimits : Delimits delimiter) (named : names ≠ [])
    (distinct : names.Nodup) (trimmed : ∀ name ∈ names, trim name.toList = name.toList)
    (ending : LineEnd) {rows : List (List String × LineEnd)}
    (full : ∀ row ∈ rows, row.1.length = names.length) :
    (parseTable table delimiter (write delimiter ((names, ending) :: rows))).map
          (List.map Row.cells) =
        .ok (rows.map fun row => names.zip (row.1.map Value.text)) ∧
      (parseTable table delimiter (writeOpen delimiter ((names, ending) :: rows))).map
          (List.map Row.cells) =
        .ok (rows.map fun row => names.zip (row.1.map Value.text)) := by
  have start : ({} : Scan).Holds .recordStart [] [] [] := ⟨rfl, rfl, rfl, rfl⟩
  have filled : ∀ record ∈ (names, ending) :: rows, record.1 ≠ [] := by
    intro record mem
    rcases List.mem_cons.mp mem with rfl | mem
    · exact named
    · rw [← List.length_pos_iff, full record mem]
      exact List.length_pos_iff.mpr named
  constructor
  · obtain ⟨state, between, held⟩ := Scan.run_write delimits (.inl rfl) start filled
    have scanned := Scan.finish_between between held
    rw [write, List.flatMap_cons, List.append_assoc] at scanned ⊢
    exact parseTable_cells table named distinct trimmed full scanned
  · have scanned := run_writeOpen delimits (.inl rfl) start (List.cons_ne_nil _ _) filled
    obtain ⟨rest, content⟩ := exists_writeOpen_eq delimiter names ending rows
    rw [content] at scanned ⊢
    exact parseTable_cells table named distinct trimmed full scanned

/-- The delimiter may be a byte inside a character, and a text may hold quotes, delimiters and line
ends, or nothing. -/
theorem parseTable_write_notes :
    (parseTable "notes" 0xA9 (writeOpen 0xA9 [(["id", "note é"], .both),
        (["1", "\"é\",\r\n"], .carriageReturn), ([" ", ""], .lineFeed)])).map
          (List.map Row.cells) =
      .ok [[("id", .text "1"), ("note é", .text "\"é\",\r\n")],
        [("id", .text " "), ("note é", .text "")]] := by
  have delimits : Delimits 0xA9 := ⟨by decide, by decide, by decide⟩
  have full : ∀ row ∈ [(["1", "\"é\",\r\n"], LineEnd.carriageReturn), ([" ", ""], .lineFeed)],
      row.1.length = ["id", "note é"].length := by decide
  exact (parseTable_write "notes" delimits (by decide) (by decide) (by decide) .both full).2

end Content

end Csv
end TableQuery
