import TableQuery.Row
import TableQuery.Storage.Error
import TableQuery.Storage.Utf8
import TableQuery.Text.Blank

/-! Delimited text. One pass over the bytes cuts the content into records of fields; the first
record names the fields of the others. -/
namespace TableQuery.Csv

inductive State where
  | recordStart
  /-- Right after a carriage return that ended a record. -/
  | afterReturn
  | fieldStart
  | bare
  | quoted
  /-- Right after a quote inside a quoted field. -/
  | quoteSeen
deriving DecidableEq, Repr

/-- A record as cut from the content, and where the reading of it began. -/
structure RawRecord where
  byte : Nat
  line : Nat
  fields : List (List UInt8)
deriving DecidableEq, Repr

/-- What has been read so far. Fields and records are gathered in order. -/
structure Scan where
  state : State := .recordStart
  byte : Nat := 0
  line : Nat := 1
  startByte : Nat := 0
  startLine : Nat := 1
  field : Array UInt8 := #[]
  fields : Array (List UInt8) := #[]
  records : Array RawRecord := #[]

def quoteMark : UInt8 := 0x22
def lineFeed : UInt8 := 0x0A
def carriageReturn : UInt8 := 0x0D

def isTerminator (b : UInt8) : Bool := b == lineFeed || b == carriageReturn

namespace Scan

/-- The byte counted, with the line that it may end. -/
def count (scan : Scan) (b : UInt8) : Scan :=
  { scan with
    byte := scan.byte + 1
    line := if b == lineFeed then scan.line + 1 else scan.line }

def push (scan : Scan) (b : UInt8) (state : State) : Scan :=
  { scan with field := scan.field.push b, state }

def endField (scan : Scan) : Scan :=
  { scan with fields := scan.fields.push scan.field.toList, field := #[], state := .fieldStart }

def endRecord (scan : Scan) (state : State) : Scan :=
  let fields := scan.fields.push scan.field.toList
  { scan with
    records := scan.records.push ⟨scan.startByte, scan.startLine, fields.toList⟩
    fields := #[]
    field := #[]
    startByte := scan.byte
    startLine := scan.line
    state }

/-- A byte that ends a field, ends the record or belongs to the field. -/
def afterBare (delimiter : UInt8) (scan : Scan) (b : UInt8) : Scan :=
  if b == delimiter then scan.endField
  else if isTerminator b then
    scan.endRecord (if b == carriageReturn then .afterReturn else .recordStart)
  else scan.push b .bare

/-- A byte at the start of a field, where a quote opens a quoted one. -/
def atFieldStart (delimiter : UInt8) (scan : Scan) (b : UInt8) : Scan :=
  if b == quoteMark then { scan with state := .quoted } else scan.afterBare delimiter b

/-- A byte between records: line ends are passed over. -/
def atRecordStart (delimiter : UInt8) (scan : Scan) (b : UInt8) : Scan :=
  if isTerminator b then { scan with state := .recordStart } else scan.atFieldStart delimiter b

def step (delimiter : UInt8) (before : Scan) (b : UInt8) : Scan :=
  let scan := before.count b
  match scan.state with
  | .recordStart => scan.atRecordStart delimiter b
  | .afterReturn =>
    if b == lineFeed then { scan with state := .recordStart } else scan.atRecordStart delimiter b
  | .fieldStart => scan.atFieldStart delimiter b
  | .bare => scan.afterBare delimiter b
  | .quoted => if b == quoteMark then { scan with state := .quoteSeen } else scan.push b .quoted
  | .quoteSeen => if b == quoteMark then scan.push b .quoted else scan.afterBare delimiter b

/-- The records, with the one that the end of the content cuts short. -/
def finish (scan : Scan) : List RawRecord :=
  match scan.state with
  | .recordStart | .afterReturn => scan.records.toList
  | _ => (scan.endRecord .recordStart).records.toList

end Scan

def byteOrderMark : List UInt8 := [0xEF, 0xBB, 0xBF]

/-- The records of a content; a byte order mark in front is passed over. -/
def records (delimiter : UInt8) (content : List UInt8) : List RawRecord :=
  let (start, body) :=
    if byteOrderMark.isPrefixOf content then ({ byte := 3 : Scan }, content.drop 3)
    else ({}, content)
  (body.foldl (Scan.step delimiter) start).finish

def decodeFields (number index : Nat) (record : RawRecord) :
    List (List UInt8) → Except CsvFault (List String)
  | [] => .ok []
  | field :: rest =>
    match Utf8.decode field with
    | .ok text => (decodeFields number (index + 1) record rest).map (text :: ·)
    | .error position =>
      .error {
        record := number, line := record.line, byte := record.byte, field := index,
        index := position }

def RawRecord.decode (record : RawRecord) (number : Nat) : Except CsvFault (List String) :=
  decodeFields number 0 record record.fields

/-- The fields of a record under their names; names without a field hold empty text. -/
def nameFields : List String → List String → List (String × Value)
  | [], _ => []
  | name :: names, [] => (name, .text "") :: nameFields names []
  | name :: names, field :: fields => (name, .text field) :: nameFields names fields

/-- The rows of some records, the first of them with a given number. -/
def rowsOf (names : List String) (number : Nat) : List RawRecord → Except CsvFault Table
  | [] => .ok []
  | record :: rest => do
    let fields ← record.decode number
    let rows ← rowsOf names (number + 1) rest
    return Row.ofCells (nameFields names fields) :: rows

/-- The table of a content. Names lose the blanks around them; every value is text. -/
def parse (delimiter : UInt8) (content : List UInt8) : Except CsvFault Table :=
  match records delimiter content with
  | [] => .ok []
  | header :: rest => do
    let names ← header.decode 0
    rowsOf (names.map fun name => String.ofList (trim name.toList)) 1 rest

end TableQuery.Csv
