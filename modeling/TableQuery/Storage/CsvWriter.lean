import TableQuery.Storage.Csv

/-! Delimited text written out: every field in quotes, a quote inside a field written twice. -/
namespace TableQuery.Csv

inductive LineEnd where
  | lineFeed
  | carriageReturn
  | both
deriving DecidableEq, Repr

def LineEnd.bytes : LineEnd → List UInt8
  | lineFeed => [Csv.lineFeed]
  | carriageReturn => [Csv.carriageReturn]
  | both => [Csv.carriageReturn, Csv.lineFeed]

def escapeByte (b : UInt8) : List UInt8 := if b = quoteMark then [b, b] else [b]

def writeField (text : String) : List UInt8 :=
  quoteMark :: text.toUTF8.toList.flatMap escapeByte ++ [quoteMark]

def writeFields (delimiter : UInt8) : List String → List UInt8
  | [] => []
  | [text] => writeField text
  | text :: rest => writeField text ++ delimiter :: writeFields delimiter rest

/-- Records one after another, each with its own end. -/
def write (delimiter : UInt8) (records : List (List String × LineEnd)) : List UInt8 :=
  records.flatMap fun record => writeFields delimiter record.1 ++ record.2.bytes

end TableQuery.Csv
