import TableQuery.Proofs.Agreement
import TableQuery.Proofs.Pairing
import TableQuery.Proofs.RowOrder

/-! What conditions take away from a query: a further one leaves part of its rows, those on the main
table may be met before a left join, and one that no null meets makes a left join an inner one. -/
namespace TableQuery

namespace Query

def withCondition (query : Query) (condition : Condition) : Query :=
  { query with conditions := query.conditions ++ [condition] }

def joining (query : Query) (join : Join) : Query := { query with join := some join }

end Query

namespace Sample

def taken : Query where
  fields := ["student.name", "enrollment.course", "enrollment.grade"]
  table := "student"
  conditions := [⟨"enrollment.course", ">=", "'art'"⟩, ⟨"student.name", "!=", "''"⟩]
  orderBy := some [⟨"student.name", .descending⟩]

def takenRow (id name course grade : String) : Row :=
  .ofCells [("student.id", .text id), ("student.name", .text name),
    ("enrollment.course", .text course), ("enrollment.grade", .text grade)]

def graded : Query :=
  { taken.withCondition ⟨"enrollment.grade", ">", "'5'"⟩ with limit := some 1 }

end Sample

section FurtherCondition

variable {query : Query}

theorem Table.aggregate_nil (table : Table) : table.aggregate [] = Row.empty := by
  rw [aggregate, Tallies.foldl_add]
  rfl

/-- Without a limit, what a plain query makes of some rows is part of what it makes of all. -/
theorem Query.resultRows_filter_sublist (plain : query.Plain) (unlimited : query.limit = none)
    (p : Row → Bool) (table : Table) :
    List.Sublist (query.resultRows (table.filter p)) (query.resultRows table) := by
  rw [resultRows, resultRows, plain.noAggregates, plain.noGrouping]
  split
  · rw [Table.aggregate_nil, Table.aggregate_nil]
  · refine List.Sublist.map _ ?_
    unfold orderAndLimit
    rw [unlimited]
    cases query.orderBy with
    | none => exact List.filter_sublist
    | some keys =>
      change List.Sublist (Table.sortBy keys (table.filter p)) (Table.sortBy keys table)
      rw [Table.sortBy_filter]
      exact List.filter_sublist

/-- A further condition only takes rows away: where the query that has it comes to a result, so does
the query without it, and the rows of the one are among those of the other in the same order. -/
theorem Query.execute_withCondition_sublist (plain : query.Plain) (unlimited : query.limit = none)
    (condition : Condition) (main : Table) (joined : Option Table) {kept : Table}
    (done : (query.withCondition condition).execute main joined = .ok kept) :
    ∃ rows, query.execute main joined = .ok rows ∧ List.Sublist kept rows := by
  obtain ⟨source, chosen, started, both, rfl⟩ := execute_eq_ok_iff.mp done
  obtain ⟨middle, before, further⟩ := Table.select_append_eq_ok_iff.mp both
  obtain ⟨-, rfl⟩ := Table.select_eq_ok_iff.mp further
  refine ⟨query.resultRows middle, execute_eq_ok_iff.mpr ⟨source, middle, started, before, rfl⟩, ?_⟩
  exact resultRows_filter_sublist plain unlimited _ middle

/-- Of the courses taken, those graded above five. -/
theorem Query.graded_sublist_taken :
    ∃ rows, (Sample.taken.joining (Sample.enrolled "LEFT")).execute Sample.students
        (some Sample.enrollments) = .ok rows ∧
      List.Sublist [
        Row.ofCells [("student.name", .text "Cid"), ("enrollment.course", .text "art"),
          ("enrollment.grade", .text "10")],
        Row.ofCells [("student.name", .text "Ann"), ("enrollment.course", .text "math"),
          ("enrollment.grade", .text "7")]] rows := by
  refine execute_withCondition_sublist ⟨rfl, rfl⟩ rfl ⟨"enrollment.grade", ">", "'5'"⟩ _ _ ?_
  refine execute_eq_ok_iff.mpr
    ⟨(Sample.enrolled "LEFT").rows .left "student" Sample.taken.fields Sample.students
        Sample.enrollments,
      [Sample.takenRow "1" "Ann" "math" "7", Sample.takenRow "3" "Cid" "art" "10"], ?_, ?_, ?_⟩
  · decide +kernel
  · decide +kernel
  · cbv

end FurtherCondition

section MainConditions

variable {table : String} {row carrier : Row}

/-- The condition on the field of the same name under a table's name. -/
def Condition.under (table : String) (condition : Condition) : Condition :=
  { condition with field := table ++ "." ++ condition.field }

def ExecutionError.under (table : String) : ExecutionError → ExecutionError
  | missingField field => missingField (table ++ "." ++ field)
  | error => error

/-- Every field of a row is in another one under a table's name, and no other field is. -/
def Row.CarriedBy (row : Row) (table : String) (carrier : Row) : Prop :=
  ∀ key, carrier.get? (table ++ "." ++ key) = row.get? key

theorem Condition.holdsOf_under (carried : row.CarriedBy table carrier) (condition : Condition) :
    (condition.under table).holdsOf carrier = (condition.holdsOf row).mapError (·.under table) := by
  rw [holdsOf, holdsOf, under, carried]
  cases row.get? condition.field with
  | none => rfl
  | some value => cases Comparison.ofSymbol? condition.operator <;> rfl

theorem Condition.isMetBy_under (carried : row.CarriedBy table carrier) (condition : Condition) :
    (condition.under table).isMetBy carrier = condition.isMetBy row := by
  rw [isMetBy, isMetBy, holdsOf_under carried]
  cases condition.holdsOf row <;> rfl

theorem Condition.areMetBy_under (carried : row.CarriedBy table carrier)
    (conditions : List Condition) :
    areMetBy (conditions.map (under table)) carrier = areMetBy conditions row := by
  rw [areMetBy, areMetBy, List.all_map]
  congr 1
  funext condition
  exact isMetBy_under carried condition

theorem Condition.failure?_under (carried : row.CarriedBy table carrier)
    (conditions : List Condition) :
    failure? (conditions.map (under table)) carrier =
      (failure? conditions row).map fun (place, error) => (place, error.under table) := by
  induction conditions with
  | nil => rfl
  | cons condition rest ih =>
    rw [List.map_cons, failure?, failure?, holdsOf_under carried, ih]
    cases condition.holdsOf row with
    | error error => rfl
    | ok met =>
      cases met with
      | false => rfl
      | true => cases failure? rest row <;> rfl

theorem carriedBy_pairRow (pointless : '.' ∉ table.toList) (fields : List String) (main : Row)
    (joined : Option Row) : main.CarriedBy table (pairRow table fields true main joined) :=
  fun _ => get?_pairRow_main pointless

/-- Conditions on the main table may be met before a left join or, under the table's name, after it:
either way the same rows are left in the same order, or the same condition cannot be told of for the
same reason. -/
theorem Join.select_leftRows (join : Join) (pointless : '.' ∉ table.toList) (fields : List String)
    (conditions : List Condition) (main joined : Table) :
    (∃ kept, main.select conditions = .ok kept ∧
        (join.rows .left table fields main joined).select (conditions.map (·.under table)) =
          .ok (join.rows .left table fields kept joined)) ∨
      ∃ place error,
        main.failure? conditions = some (place, error) ∧ main.select conditions = .error error ∧
        (join.rows .left table fields main joined).failure? (conditions.map (·.under table)) =
          some (place, error.under table) ∧
        (join.rows .left table fields main joined).select (conditions.map (·.under table)) =
          .error (error.under table) := by
  have met (row : Row) (other : Option Row) :=
    Condition.areMetBy_under (carriedBy_pairRow pointless fields row other) conditions
  have failed (row : Row) (other : Option Row) :=
    Condition.failure?_under (carriedBy_pairRow pointless fields row other) conditions
  have failure : (join.rows .left table fields main joined).failure?
      (conditions.map (·.under table)) =
        (main.failure? conditions).map fun (place, error) => (place, error.under table) := by
    rw [Table.failure?, findSome?_leftRows failed, Table.failure?, List.map_findSome?]
    rfl
  rw [Table.select_eq, Table.select_eq, failure, filter_leftRows met]
  cases main.failure? conditions with
  | none => exact .inl ⟨_, rfl, rfl⟩
  | some found => exact .inr ⟨found.1, found.2, rfl, rfl, rfl, rfl⟩

/-- The second student is the first that the condition on names is asked of, and has none. -/
theorem Join.nameless_after_leftRows :
    ((Sample.enrolled "LEFT").rows .left "student" ["enrollment.course"] Sample.students
        Sample.enrollments).select [⟨"student.id", ">", "1"⟩, ⟨"student.name", "=", "Cid"⟩] =
      .error (.missingField "student.name") := by
  let conditions : List Condition := [⟨"id", ">", "1"⟩, ⟨"name", "=", "Cid"⟩]
  have pointless : '.' ∉ "student".toList := by decide
  have nameless : Sample.students.select conditions = .error (.missingField "name") := by
    decide +kernel
  obtain ⟨kept, before, -⟩ | ⟨place, error, -, before, -, after⟩ :=
    select_leftRows (Sample.enrolled "LEFT") pointless ["enrollment.course"] conditions
      Sample.students Sample.enrollments
  · cases nameless.symm.trans before
  · cases nameless.symm.trans before
    exact after

end MainConditions

section OuterJoin

variable {query : Query} {table : String} {fields : List String} {condition : Condition} {row : Row}

theorem Value.ofLiteral_ne_null (literal : String) : Value.ofLiteral literal ≠ .null := by
  unfold ofLiteral
  simp only
  split <;> simp

theorem Comparison.holds_null {value : Value} (op : Comparison) (present : value ≠ .null) :
    op.holds .null value = (op == .notEqual) := by
  cases value with
  | null => exact absurd rfl present
  | number _ => rfl
  | text _ => rfl

/-- Null meets no condition but one of inequality. -/
theorem Condition.holdsOf_null (null : row.get? condition.field = some .null)
    (known : condition.operator ∈ ["=", ">", "<", ">=", "<="]) :
    condition.holdsOf row = .ok false := by
  have compared : ∀ symbol ∈ ["=", ">", "<", ">=", "<="],
      (Comparison.ofSymbol? symbol).any (· != .notEqual) := by decide
  obtain ⟨op, symbol, unequal⟩ := Option.any_eq_true _ _ |>.mp (compared _ known)
  rw [holdsOf, null, symbol]
  simpa [Value.coerce, Comparison.holds_null op (Value.ofLiteral_ne_null _)] using unequal

theorem Query.mem_joinFields_of_plain (plain : query.Plain) {field : String} :
    field ∈ query.joinFields ↔ field ∈ query.fields := by
  simp [joinFields, plain.noAggregates, plain.noGrouping]

/-- Under a qualified field that is asked for, it tells nothing apart whether the main row is
carried. -/
theorem agreeOn_pairRow (pointless : '.' ∉ table.toList) {asked : List String}
    (sub : asked ⊆ fields) (qualified : ∀ field ∈ asked, '.' ∈ field.toList) (main : Row)
    (joined : Option Row) :
    Row.AgreeOn asked (pairRow table fields true main joined)
      (pairRow table fields false main joined) := by
  intro field mem
  rw [get?_pairRow_of_mem pointless (sub mem), get?_pairRow_of_mem pointless (sub mem)]
  exact pairField_congr (qualified field mem) true false

/-- A left join is an inner join where the first condition is on a field of the joined table and no
null meets it: it turns away every main row that stands alone before any other condition is looked
at. -/
theorem Query.execute_left_eq_inner (plain : query.Plain) (join : Join) {left inner : String}
    (isLeft : JoinKind.ofName? left = some .left) (isInner : JoinKind.ofName? inner = some .inner)
    (pointless : '.' ∉ query.table.toList) (qualified : ∀ field ∈ query.fields, '.' ∈ field.toList)
    {first : Condition} {rest : List Condition} (conditioned : query.conditions = first :: rest)
    {qualifier name : String} (split : splitName first.field = (some qualifier, name))
    (foreign : qualifier ≠ query.table) (known : first.operator ∈ ["=", ">", "<", ">=", "<="])
    (named : ∀ condition ∈ query.conditions, condition.field ∈ query.fields)
    (sorted : ∀ keys ∈ query.orderBy, ∀ key ∈ keys, key.field ∈ query.fields)
    (main joined : Table) :
    (query.joining { join with kind := left }).execute main (some joined) =
      (query.joining { join with kind := inner }).execute main (some joined) := by
  have starless : "*" ∉ query.fields := fun star => absurd (qualified _ star) (by decide)
  have carried : query.fields ⊆ query.joinFields :=
    fun field mem => (mem_joinFields_of_plain plain).mpr mem
  let leftRow (pair : Row × Option Row) := pairRow query.table query.joinFields true pair.1 pair.2
  let innerRow (pair : Row × Option Row) := pairRow query.table query.joinFields false pair.1 pair.2
  have unpaired : ∀ pair ∈ join.leftPairs main joined, ¬ pair.2.isSome →
      Condition.allHoldOf query.conditions (leftRow pair) = .ok false := by
    intro pair _ alone
    have none : pair.2 = none := by simpa using alone
    have asked : first.field ∈ query.joinFields := carried (named first (by simp [conditioned]))
    have null : (leftRow pair).get? first.field = some .null := by
      change (pairRow query.table query.joinFields true pair.1 pair.2).get? first.field = _
      rw [none, get?_pairRow_of_mem pointless asked, pairField_unpaired split foreign]
    rw [conditioned]
    exact Condition.allHoldOf_cons_of_false (Condition.holdsOf_null null known)
  have agree : Table.AgreeOn query.fields ((join.innerPairs main joined).map leftRow)
      ((join.innerPairs main joined).map innerRow) :=
    Table.agreeOn_map fun pair _ => agreeOn_pairRow pointless carried qualified pair.1 pair.2
  have turnedAway : Table.select query.conditions ((join.leftPairs main joined).map leftRow) =
      Table.select query.conditions ((join.innerPairs main joined).map leftRow) := by
    rw [← Join.filter_leftPairs, Table.select_map_filter unpaired]
  rw [execute_of_join { join with kind := left } rfl isLeft,
    execute_of_join { join with kind := inner } rfl isInner]
  calc (Table.select query.conditions ((join.leftPairs main joined).map leftRow)).map
        query.resultRows
    _ = (Table.select query.conditions ((join.innerPairs main joined).map leftRow)).map
        query.resultRows := by rw [turnedAway]
    _ = (Table.select query.conditions ((join.innerPairs main joined).map innerRow)).map
        query.resultRows :=
      select_resultRows_congr plain agree (List.Subset.refl _) starless named sorted

/-- A student without courses stands in the one join and not in the other. -/
theorem Query.graded_left_eq_inner :
    (Sample.enrolled "Left").leftPairs Sample.students Sample.enrollments ≠
        (Sample.enrolled "inner").innerPairs Sample.students Sample.enrollments ∧
      (Sample.graded.joining (Sample.enrolled "Left")).execute Sample.students
          (some Sample.enrollments) =
        (Sample.graded.joining (Sample.enrolled "inner")).execute Sample.students
          (some Sample.enrollments) := by
  refine ⟨by decide +kernel, ?_⟩
  exact execute_left_eq_inner ⟨rfl, rfl⟩ (Sample.enrolled "Left") rfl rfl (by decide) (by decide)
    rfl rfl (by decide) (by decide) (by decide) (by decide) _ _

end OuterJoin
end TableQuery
