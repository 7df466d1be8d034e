import TableQuery.Coercion
import TableQuery.Number.Arithmetic
import TableQuery.Query.Basic

/-! Aggregates over rows: one pass keeps a running tally for each of them, for the whole table or
for each group of rows alike in the grouping fields. -/
namespace TableQuery

/-- What is known of the amounts seen so far. -/
structure Tally where
  rows : Nat := 0
  total : Number := .zero
  least : Number := .infinite false
  greatest : Number := .infinite true
deriving DecidableEq

namespace Tally

def add (tally : Tally) (amount : Number) : Tally where
  rows := tally.rows + 1
  total := tally.total.add amount
  least := tally.least.least amount
  greatest := tally.greatest.greatest amount

/-- The result of a function on what has been seen; the average of no rows is NaN. -/
def result (tally : Tally) : AggregateFunction → Number
  | .count => .ofNat tally.rows
  | .sum => tally.total
  | .average => tally.total.div (.ofNat tally.rows)
  | .minimum => tally.least
  | .maximum => tally.greatest

end Tally

namespace Aggregate

def tally (aggregate : Aggregate) (tally : Tally) (row : Row) : Tally :=
  tally.add (row.amount aggregate.field)

def result (aggregate : Aggregate) (tally : Tally) : Value :=
  .number (tally.result aggregate.function)

/-- The results after no row and after each row. -/
def running (aggregate : Aggregate) (tally : Tally) : Table → List Value
  | [] => [aggregate.result tally]
  | row :: rest => aggregate.result tally :: aggregate.running (aggregate.tally tally row) rest

end Aggregate

abbrev Tallies := List (Aggregate × Tally)

namespace Tallies

def start (aggregates : List Aggregate) : Tallies := aggregates.map fun aggregate => (aggregate, {})

def add (tallies : Tallies) (row : Row) : Tallies :=
  tallies.map fun (aggregate, tally) => (aggregate, aggregate.tally tally row)

/-- The results under the expressions of their aggregates. -/
def cells (tallies : Tallies) : List (String × Value) :=
  tallies.map fun (aggregate, tally) => (aggregate.expression, aggregate.result tally)

end Tallies

/-- A value as groups tell it apart: the zeros are one. -/
def Value.groupPart : Value → Value
  | .number x => .number (if x.equals .zero then .zero else x)
  | value => value

/-- Rows alike so far: what makes them alike, the grouping fields of the first, and the tallies. -/
structure Group where
  key : List (Option Value)
  head : Row
  tallies : Tallies

namespace Group

/-- What a row has under the grouping fields. Absent is not null here. -/
def keyOf (fields : List String) (row : Row) : List (Option Value) :=
  fields.map fun field => (row.get? field).map Value.groupPart

/-- A new group, with the grouping fields of its first row. -/
def start (fields : List String) (aggregates : List Aggregate) (row : Row) : Group where
  key := keyOf fields row
  head := Row.ofCells (fields.map fun field => (field, row.getOrNull field))
  tallies := Tallies.start aggregates

def add (group : Group) (row : Row) : Group :=
  { group with tallies := Tallies.add group.tallies row }

/-- Adds a row to its group, or to a new group at the end. -/
def place (fields : List String) (aggregates : List Aggregate) (row : Row) :
    List Group → List Group
  | [] => [(start fields aggregates row).add row]
  | group :: rest =>
    if group.key = keyOf fields row then group.add row :: rest
    else group :: place fields aggregates row rest

def row (group : Group) : Row := group.head.insertAll (Tallies.cells group.tallies)

end Group

namespace Table

/-- One row with the result of every aggregate over all rows. -/
def aggregate (aggregates : List Aggregate) (table : Table) : Row :=
  Row.ofCells (Tallies.cells (table.foldl Tallies.add (Tallies.start aggregates)))

/-- One row for each group, in the order in which the groups first come. -/
def group (fields : List String) (aggregates : List Aggregate) (table : Table) : Table :=
  let groups := table.foldl (fun groups row => Group.place fields aggregates row groups) []
  groups.map Group.row

end TableQuery.Table
