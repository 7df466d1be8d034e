import TableQuery.Proofs.Agreement

/-! What aggregates come to over rows. A tally keeps four things of the amounts of a field, each by
itself, and a row of results holds under an expression what its aggregate comes to over the rows of
a table or of a group. -/
namespace TableQuery

def Table.amounts (field : Option String) (table : Table) : List Number :=
  table.map (·.amount field)

/-- The tally of all of some amounts. -/
theorem Tally.foldl_add (amounts : List Number) :
    amounts.foldl Tally.add {} =
      { rows := amounts.length
        total := amounts.foldl Number.add .zero
        least := amounts.foldl Number.least (.infinite false)
        greatest := amounts.foldl Number.greatest (.infinite true) } := by
  induction amounts using List.reverseRecOn with
  | nil => rfl
  | append_singleton amounts amount ih =>
    simp only [List.foldl_append, List.foldl_cons, List.foldl_nil, ih, add, List.length_append,
      List.length_singleton]

namespace Aggregate

/-- What an aggregate comes to over some rows. -/
def outcome (aggregate : Aggregate) (table : Table) : Number :=
  (table.foldl aggregate.tally {}).result aggregate.function

variable (aggregate : Aggregate) (table : Table)

theorem outcome_eq : aggregate.outcome table =
    Tally.result
      { rows := table.length
        total := (table.amounts aggregate.field).foldl Number.add .zero
        least := (table.amounts aggregate.field).foldl Number.least (.infinite false)
        greatest := (table.amounts aggregate.field).foldl Number.greatest (.infinite true) }
      aggregate.function := by
  have tallied : table.foldl aggregate.tally {} =
      (table.amounts aggregate.field).foldl Tally.add {} := by
    rw [Table.amounts, List.foldl_map]
    rfl
  rw [outcome, tallied, Tally.foldl_add, Table.amounts, List.length_map]

/-- The results after no row and after each row are those over the rows so far. -/
theorem running_eq_inits (tally : Tally) : aggregate.running tally table =
    table.inits.map fun rows => aggregate.result (rows.foldl aggregate.tally tally) := by
  induction table generalizing tally with
  | nil => rfl
  | cons row rest ih =>
    rw [running, ih, List.inits_cons, List.map_cons, List.map_map]
    rfl

end Aggregate

section Results

variable {aggregates : List Aggregate} {rows : Table} {fields : List String}

/-- A row shows under its expression what each aggregate comes to over some rows, the last one under
an expression that several have. -/
def Row.Shows (row : Row) (aggregates : List Aggregate) (rows : Table) : Prop :=
  ∀ aggregate, aggregates.reverse.find? (·.expression == aggregate.expression) = some aggregate →
    row.get? aggregate.expression = some (.number (aggregate.outcome rows))

theorem Tallies.lookup_cells (key : String) :
    (cells (rows.foldl add (start aggregates))).reverse.lookup key =
      (aggregates.reverse.find? (·.expression == key)).map fun aggregate =>
        .number (aggregate.outcome rows) := by
  rw [foldl_add, cells, List.map_map, ← List.map_reverse]
  induction aggregates.reverse with
  | nil => rfl
  | cons aggregate rest ih =>
    rw [List.map_cons, Function.comp_apply, List.lookup_cons, List.find?_cons, ih, Bool.beq_comm]
    cases aggregate.expression == key <;> rfl

theorem Row.shows_insertAll (row : Row) (aggregates : List Aggregate) (rows : Table) :
    (row.insertAll (Tallies.cells (rows.foldl Tallies.add (Tallies.start aggregates)))).Shows
      aggregates rows := by
  intro aggregate last
  rw [get?_insertAll, Tallies.lookup_cells, last]
  rfl

theorem Table.shows_aggregate (aggregates : List Aggregate) (table : Table) :
    (table.aggregate aggregates).Shows aggregates table :=
  Row.empty.shows_insertAll aggregates table

theorem Table.shows_group (fields : List String) (aggregates : List Aggregate) (table : Table) :
    List.Forall₂ (fun key row => row.Shows aggregates (Group.rowsOf fields key table))
      (Group.keysOf fields table) (table.group fields aggregates) := by
  rw [group, Group.foldl_place, List.map_map, List.forall₂_map_right_iff, List.forall₂_same]
  intro key _
  exact Row.shows_insertAll _ aggregates _

end Results

end TableQuery
