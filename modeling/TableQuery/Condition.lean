import TableQuery.Coercion
import TableQuery.Comparison
import TableQuery.Query.Basic

/-! Conditions on rows, and the rows of a table that meet them all. -/
namespace TableQuery

inductive ExecutionError where
  | missingField (field : String)
  | unsupportedOperator (operator : String)
  | unsupportedJoin (kind : String)
deriving DecidableEq, Repr

def ExecutionError.message : ExecutionError → String
  | missingField field => "Invalid field: " ++ field
  | unsupportedOperator operator => Comparison.refusal operator
  | unsupportedJoin kind => "Unsupported JOIN type: " ++ kind

namespace Condition

/-- Whether a row meets a condition. A field that the row lacks comes before an operator that is
none. -/
def holdsOf (condition : Condition) (row : Row) : Except ExecutionError Bool :=
  match row.get? condition.field with
  | none => .error (.missingField condition.field)
  | some value =>
    match Comparison.ofSymbol? condition.operator with
    | none => .error (.unsupportedOperator condition.operator)
    | some op => .ok (op.holds value.coerce (.ofLiteral condition.literal))

/-- Whether a row meets every condition; the first that fails or cannot be told decides. -/
def allHoldOf : List Condition → Row → Except ExecutionError Bool
  | [], _ => .ok true
  | condition :: rest, row => do
    if ← condition.holdsOf row then allHoldOf rest row else return false

end Condition

/-- The rows that meet every condition, in order; the first row that cannot be told of ends it. -/
def Table.select (conditions : List Condition) : Table → Except ExecutionError Table
  | [] => .ok []
  | row :: rest => do
    let kept ← Condition.allHoldOf conditions row
    let others ← Table.select conditions rest
    return if kept then row :: others else others

end TableQuery
