/-! Why a table cannot be had. -/
namespace TableQuery

/-- Where delimited text stops being text: the record and the field, counted from zero, where the
record begins in the whole content, and the position inside the field. -/
structure CsvFault where
  record : Nat
  line : Nat
  byte : Nat
  field : Nat
  index : Nat
deriving DecidableEq, Repr

def CsvFault.message (fault : CsvFault) : String :=
  "CSV parse error: record " ++ toString fault.record ++ " (line " ++ toString fault.line ++
    ", field: " ++ toString fault.field ++ ", byte: " ++ toString fault.byte ++
    "): invalid utf-8: invalid UTF-8 in field " ++ toString fault.field ++ " near byte index " ++
    toString fault.index

inductive FileFault where
  | isDirectory
  | notDirectory
deriving DecidableEq, Repr

def FileFault.message : FileFault → String
  | isDirectory => "Is a directory (os error 21)"
  | notDirectory => "Not a directory (os error 20)"

inductive StorageError where
  | notFound (what : String)
  | unreadable (table : String) (fault : FileFault)
  | malformed (table : String) (fault : CsvFault)
deriving DecidableEq, Repr

def StorageError.message : StorageError → String
  | notFound what => "Table not found: " ++ what
  | unreadable table fault => "Could not read table " ++ table ++ ": " ++ fault.message
  | malformed table fault => "Could not parse table " ++ table ++ ": " ++ fault.message

end TableQuery
