import TableQuery.Query.Aggregate

/-! What a statement asks for. -/
namespace TableQuery

/-- One condition on a row. The operator and the literal are kept as written. -/
structure Condition where
  field : String
  operator : String
  literal : String
deriving DecidableEq, Repr

/-- The table joined to the main one. The left field is read from the main row and the right one
from the joined row; the kind is kept as written. -/
structure Join where
  kind : String
  table : String
  left : String
  right : String
deriving DecidableEq, Repr

inductive Direction where
  | ascending
  | descending
deriving DecidableEq, Repr

structure SortKey where
  field : String
  direction : Direction
deriving DecidableEq, Repr

structure Query where
  fields : List String := []
  aggregates : List Aggregate := []
  table : String := ""
  join : Option Join := none
  conditions : List Condition := []
  groupBy : Option (List String) := none
  /-- Whether the aggregates run over all rows at once. -/
  wholeTable : Bool := false
  orderBy : Option (List SortKey) := none
  limit : Option Nat := none
deriving DecidableEq, Repr

def Query.withAggregates (query : Query) : Query :=
  let aggregates := query.fields.filterMap Aggregate.ofItem?
  { query with
    aggregates
    wholeTable := !aggregates.isEmpty && query.groupBy.isNone }

end TableQuery
