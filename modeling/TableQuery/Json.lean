import TableQuery.Row

/-! Compact JSON text of values, rows and tables, names in row order. -/
namespace TableQuery.Json

/-- A character inside a JSON string: quotes, backslashes and control characters are escaped. -/
def escape (c : Char) : List Char :=
  if c = '"' then ['\\', '"']
  else if c = '\\' then ['\\', '\\']
  else if c = '\n' then ['\\', 'n']
  else if c = '\r' then ['\\', 'r']
  else if c = '\t' then ['\\', 't']
  else if c.toNat = 0x08 then ['\\', 'b']
  else if c.toNat = 0x0C then ['\\', 'f']
  else if c.toNat < 0x20 then
    ['\\', 'u', '0', '0', Nat.digitChar (c.toNat / 16), Nat.digitChar (c.toNat % 16)]
  else [c]

def quote (s : String) : String := String.ofList ('"' :: s.toList.flatMap escape ++ ['"'])

end Json

def Value.json : Value → String
  | .null => "null"
  | .number x => x.json
  | .text s => Json.quote s

namespace Row

def json (row : Row) : String :=
  let members := row.cells.map fun cell => Json.quote cell.1 ++ ":" ++ cell.2.json
  "\x7b" ++ String.intercalate "," members ++ "\x7d"

end Row

namespace Table

def json (table : Table) : String :=
  "[" ++ String.intercalate "," (table.map Row.json) ++ "]"

end TableQuery.Table
