import TableQuery.Query.Basic
import TableQuery.Statement.Sequence
import TableQuery.Statement.Token
import TableQuery.Text.Digit

/-! The clauses of a statement. Each reads on until the next clause or the end begins. -/
namespace TableQuery.Reader

variable {α : Type}

/-- Items for as long as the clause that is being read goes on; none if it is not that clause. -/
def listWithin (clause : Phase) (item : Reader α) (more : Reader Bool) (advances : more.Advances) :
    Reader (List α) := do
  if (← phase) = clause then list item more advances else return []

def nonempty (token : Reader String) (problem : SyntaxProblem) : Reader String := do
  skipBlanks
  let start ← position
  let text ← token
  if text.isEmpty then failFrom problem start else return text

def readFields : Reader (List String) :=
  listWithin .fields (nonempty readItem .expectedField) (commaOrNext .expectedCommaOrFrom)
    (commaOrNext_advances _)

def readTable : Reader String := do
  expect .fromTable .expectedFrom
  let table ← nonempty readWord .expectedTable
  endClause .tokenAfterTable
  return table

def readJoin : Reader Join := do
  let kind ← readJoinKeyword
  skipBlanks
  let table ← readWord
  if table.isEmpty then fail .expectedJoinTable
  skipBlanks
  expect .on .expectedOn
  skipBlanks
  let left ← readOperand
  skipBlanks
  let start ← position
  let operator ← readOperator
  if left.isEmpty || operator != "=" then failFrom .joinCondition start
  skipBlanks
  let right ← readOperand
  if right.isEmpty then fail .expectedRightSide
  endClause .tokenAfterJoin
  return { kind, table, left, right }

def readCondition : Reader Condition := do
  let field ← nonempty readOperand .expectedField
  let operator ← nonempty readOperator .expectedOperator
  let literal ← nonempty readLiteral .expectedValue
  return { field, operator, literal }

def readConditions : Reader (List Condition) := do
  expect .whereRows .invalidWhere
  listWithin .conditions readCondition nextOrAnd nextOrAnd_advances

def readGrouping : Reader (List String) := do
  expect .groupBy .invalidGroupBy
  listWithin .grouping (nonempty readWord .expectedGroupField) (commaOrNext .invalidGroupBy)
    (commaOrNext_advances _)

/-- The direction that follows a sort field, ascending where none is written. -/
def readDirection : Reader Direction := do
  if ← accept .ascending then return .ascending
  if ← accept .descending then return .descending
  return .ascending

def readSortKey : Reader SortKey := do
  let field ← readItem
  if field.isEmpty then fail .expectedOrderField
  skipBlanks
  return { field, direction := ← readDirection }

def readOrdering : Reader (List SortKey) := do
  expect .orderBy .invalidOrderBy
  listWithin .ordering (do skipBlanks; readSortKey) (commaOrNext .invalidOrderBy)
    (commaOrNext_advances _)

/-- A count in decimal digits after at most one plus sign, below 2^64. -/
def parseLimit? (s : String) : Option Nat :=
  let digits :=
    match s.toList with
    | '+' :: rest => rest
    | text => text
  if !digits.isEmpty && digits.all Char.isDigit && ofDigits 10 digits < Nat.pow 2 64 then
    some (ofDigits 10 digits)
  else none

def readLimit : Reader Nat := do
  expect .limit .invalidLimit
  skipBlanks
  let start ← position
  match parseLimit? (← readWord) with
  | some limit =>
    endClause .tokenAfterLimit
    return limit
  | none => failFrom .invalidLimit start

end TableQuery.Reader
