import TableQuery.Query.Basic
import TableQuery.Row

/-! Joins: which rows of two tables stand together, and the row made of each pair. Rows match on
raw equality, so text never equals other text, and an absent field matches nothing. -/
namespace TableQuery

inductive JoinKind where
  | inner
  | left
  | right
deriving DecidableEq, Repr

/-- The kind that a word names, whatever its case. -/
def JoinKind.ofName? (name : String) : Option JoinKind :=
  match upperAscii name with
  | "INNER" => some inner
  | "LEFT" => some left
  | "RIGHT" => some right
  | _ => none

def JoinKind.refusal (name : String) : String := "Unsupported JOIN type: " ++ upperAscii name

/-- Whether both fields are there and raw equal. -/
def sameField (a b : Option Value) : Bool :=
  match a, b with
  | some x, some y => x.equals y
  | _, _ => false

namespace Join

/-- Whether a main row and a joined row match, each read by the field's name without its table. -/
def matchesPair (join : Join) (main joined : Row) : Bool :=
  sameField (main.get? (splitName join.left).2) (joined.get? (splitName join.right).2)

/-- The field of a row by its whole name, or by its name without the table. -/
def lookup (row : Row) (name : String) : Option Value :=
  (row.get? name).or (row.get? (splitName name).2)

/-- Every matching pair, in the order of the main table. -/
def innerPairs (join : Join) (main joined : Table) : List (Row × Option Row) :=
  main.flatMap fun row => (joined.filter (join.matchesPair row)).map fun other => (row, some other)

/-- Every matching pair, and each main row that matches nothing once by itself. -/
def leftPairs (join : Join) (main joined : Table) : List (Row × Option Row) :=
  main.flatMap fun row =>
    match joined.filter (join.matchesPair row) with
    | [] => [(row, none)]
    | found => found.map fun other => (row, some other)

/-- What stands for the main row where none matches: its first row with every value null. -/
def placeholder (main : Table) : Row := (main.head?.map Row.nullShaped).getD Row.empty

/-- Each joined row once, with the first main row that matches it. -/
def rightPairs (join : Join) (main joined : Table) : List (Row × Option Row) :=
  joined.map fun other =>
    let found := main.find? fun row => sameField (lookup row join.left) (lookup other join.right)
    (found.getD (placeholder main), some other)

def pairs (join : Join) : JoinKind → Table → Table → List (Row × Option Row)
  | .inner => join.innerPairs
  | .left => join.leftPairs
  | .right => join.rightPairs

end Join

namespace JoinKind

/-- Whether rows of the join carry the whole main row beside the fields asked for. -/
def carriesMain : JoinKind → Bool
  | inner => false
  | left | right => true

end JoinKind

/-- The value of a field asked of a pair. A field under the main table's name is read from the main
row, and so is a bare one where the main row is carried; any other is read from the joined row,
null where there is none. -/
def pairField (table : String) (carryMain : Bool) (main : Row) (joined : Option Row)
    (field : String) : Option Value :=
  let (qualifier, name) := splitName field
  let fromMain :=
    match qualifier with
    | some word => word == table
    | none => carryMain
  if fromMain then main.get? name
  else match joined with
    | some row => row.get? name
    | none => some .null

/-- The row of a pair: the main row's fields under the table's name, where they are carried, then
each field asked for that its side holds. -/
def pairRow (table : String) (fields : List String) (carryMain : Bool) (main : Row)
    (joined : Option Row) : Row :=
  let carried :=
    if carryMain then main.cells.map fun cell => (table ++ "." ++ cell.1, cell.2) else []
  let asked := fields.filterMap fun field =>
    (pairField table carryMain main joined field).map fun value => (field, value)
  Row.ofCells (carried ++ asked)

def Join.rows (join : Join) (kind : JoinKind) (table : String) (fields : List String)
    (main joined : Table) : Table :=
  (join.pairs kind main joined).map fun pair => pairRow table fields kind.carriesMain pair.1 pair.2

end TableQuery
