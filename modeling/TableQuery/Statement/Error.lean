import TableQuery.Statement.Cursor

/-! What is wrong with a statement, and where. -/
namespace TableQuery

inductive SyntaxProblem where
  | expectedSelect
  | expectedField
  | expectedCommaOrFrom
  | expectedFrom
  | expectedTable
  | tokenAfterTable
  | invalidJoin
  | expectedJoinTable
  | expectedOn
  | joinCondition
  | expectedRightSide
  | tokenAfterJoin
  | invalidWhere
  | expectedOperator
  | expectedValue
  | expectedAnd
  | invalidGroupBy
  | expectedGroupField
  | invalidOrderBy
  | expectedOrderField
  | invalidLimit
  | tokenAfterLimit
  | unbalancedParentheses
  | unterminatedText
deriving DecidableEq, Repr

def SyntaxProblem.message : SyntaxProblem → String
  | expectedSelect => "Expected SELECT"
  | expectedField => "Expected field"
  | expectedCommaOrFrom => "Expected ',' or FROM"
  | expectedFrom => "Expected FROM"
  | expectedTable => "Expected table name"
  | tokenAfterTable => "Unexpected token after table name"
  | invalidJoin => "Invalid join"
  | expectedJoinTable => "Expected join table"
  | expectedOn => "Expected ON after join table"
  | joinCondition => "Join condition must be 'table.field = table.field'"
  | expectedRightSide => "Expected right side of join condition"
  | tokenAfterJoin => "Unexpected token after join"
  | invalidWhere => "Invalid where"
  | expectedOperator => "Expected operator"
  | expectedValue => "Expected value"
  | expectedAnd => "Expected AND"
  | invalidGroupBy => "Invalid group by"
  | expectedGroupField => "Expected group by field"
  | invalidOrderBy => "Invalid order by"
  | expectedOrderField => "Expected order by field"
  | invalidLimit => "Invalid limit"
  | tokenAfterLimit => "Unexpected token after limit"
  | unbalancedParentheses => "Unbalanced parentheses"
  | unterminatedText => "Unterminated string literal"

/-- A problem with the positions it was seen between and the text there. -/
structure SyntaxError where
  problem : SyntaxProblem
  text : String
  start : Nat
  stop : Nat
deriving DecidableEq, Repr

namespace SyntaxError

/-- A problem seen from an earlier position up to the cursor, whose own character is shown too. -/
def between (problem : SyntaxProblem) (start : Nat) (c : Cursor) : SyntaxError where
  problem
  text := c.slice start (c.position + 1)
  start
  stop := c.position

def message (e : SyntaxError) : String :=
  "SyntaxError: " ++ e.problem.message ++ "\n  at [" ++ toString e.start ++ ":" ++
    toString e.stop ++ "] -> '" ++ e.text ++ "'"

end TableQuery.SyntaxError
