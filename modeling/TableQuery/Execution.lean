import TableQuery.Aggregation
import TableQuery.Condition
import TableQuery.RowOrder
import TableQuery.Pairing
import TableQuery.Projection

/-! Queries carried out on tables: join, conditions, then aggregates or order, limit and fields. -/
namespace TableQuery.Query

/-- The fields a join has to carry, each once: those asked for, an aggregate's field in its place,
and the grouping fields. -/
def joinFields (query : Query) : List String :=
  let asked := query.fields.flatMap fun field =>
    match query.aggregates.find? (·.expression == field) with
    | some aggregate => aggregate.field.toList
    | none => [field]
  (asked ++ query.groupBy.getD []).eraseDups

/-- The rows that a query starts from: the join where the query has one and the joined table is
there, else the main table. -/
def sourceRows (query : Query) (main : Table) (joined : Option Table) :
    Except ExecutionError Table :=
  match query.join, joined with
  | some join, some other =>
    match JoinKind.ofName? join.kind with
    | some kind => .ok (join.rows kind query.table query.joinFields main other)
    | none => .error (.unsupportedJoin join.kind)
  | _, _ => .ok main

def orderAndLimit (query : Query) (table : Table) : Table :=
  let sorted :=
    match query.orderBy with
    | some keys => table.sortBy keys
    | none => table
  sorted.limitTo query.limit

/-- The result made of the rows that meet the conditions. Aggregates over all rows give one row,
which no order or limit touches. -/
def resultRows (query : Query) (table : Table) : Table :=
  if query.wholeTable then [table.aggregate query.aggregates]
  else match query.groupBy with
    | some fields => query.orderAndLimit (table.group fields query.aggregates)
    | none => (query.orderAndLimit table).project query.fields

def execute (query : Query) (main : Table) (joined : Option Table) :
    Except ExecutionError Table := do
  let source ← query.sourceRows main joined
  let kept ← Table.select query.conditions source
  return query.resultRows kept

end TableQuery.Query
