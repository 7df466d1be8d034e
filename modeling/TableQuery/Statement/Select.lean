import TableQuery.Statement.Clause

/-! Whole statements. -/
namespace TableQuery

namespace Reader

/-- Reads one clause into a query, if it is the clause that comes now. -/
def readClause (query : Query) (clause : Phase) : Reader Query := do
  if (← phase) ≠ clause then return query
  match clause with
  | .fields =>
    let fields ← readFields
    if (← phase) ≠ .table then fail .expectedFrom
    return { query with fields }
  | .table => return { query with table := ← readTable }
  | .join => return { query with join := some (← readJoin) }
  | .conditions => return { query with conditions := ← readConditions }
  | .grouping => return { query with groupBy := some (← readGrouping) }
  | .ordering => return { query with orderBy := some (← readOrdering) }
  | .limit => return { query with limit := some (← readLimit) }
  | .done => return query

/-- Reads a statement: `SELECT`, then each clause that is there, in order. -/
def readQuery : Reader Query := do
  skipBlanks
  expect .select .expectedSelect
  enter .fields
  let query ← Phase.clauses.foldlM readClause {}
  return query.withAggregates

end Reader

def Query.parse (statement : String) : Except SyntaxError Query := Reader.readQuery.read statement

end TableQuery
