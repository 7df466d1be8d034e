import TableQuery.Text.Letter
import TableQuery.Text.Split

/-! Aggregate items of a projection: `NAME(*)`, `NAME(field)` or `NAME(table.field)`. -/
namespace TableQuery

inductive AggregateFunction where
  | count
  | sum
  | average
  | minimum
  | maximum
deriving DecidableEq, Repr

/-- The function that a name stands for, whatever its case. -/
def AggregateFunction.ofName? (name : String) : Option AggregateFunction :=
  match upperAscii name with
  | "COUNT" => some .count
  | "SUM" => some .sum
  | "AVG" => some .average
  | "MIN" => some .minimum
  | "MAX" => some .maximum
  | _ => none

/-- A function over a field, or over whole rows when it names none. The expression is the item as
written and names the result. -/
structure Aggregate where
  function : AggregateFunction
  field : Option String
  expression : String
deriving DecidableEq, Repr

namespace Aggregate

def isWord (text : List Char) : Bool := !text.isEmpty && text.all isWordChar

/-- A word, or two words with a point between them. -/
def isFieldName (text : List Char) : Bool :=
  match splitFirst? '.' text with
  | some (table, field) => isWord table && isWord field
  | none => isWord text

/-- The argument between the parentheses: a star for no field, or a field name. -/
def argument? (text : List Char) : Option (Option String) :=
  if text = ['*'] then some none
  else if isFieldName text then some (some (String.ofList text))
  else none

def ofItem? (item : String) : Option Aggregate :=
  if item.toList.getLast? = some ')' then do
    let (name, inner) ← splitFirst? '(' item.toList.dropLast
    let function ← AggregateFunction.ofName? (String.ofList name)
    let field ← argument? inner
    return { function, field, expression := item }
  else none

end TableQuery.Aggregate
