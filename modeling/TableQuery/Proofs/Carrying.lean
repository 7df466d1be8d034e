import TableQuery.Proofs.Agreement
import TableQuery.Proofs.Pairing

/-! The fields that a join is asked to carry are enough for the aggregates, the groups and the order
made of its rows, and any others that it carries beside them change nothing. -/
namespace TableQuery

section Fields

variable {query : Query} {aggregate : Aggregate} {item field table : String}
  {needed fields : List String} {carryMain : Bool}

theorem Aggregate.expression_of_ofItem? (found : ofItem? item = some aggregate) :
    aggregate.expression = item := by
  unfold ofItem? at found
  split at found
  · simp only [Option.bind_eq_bind, Option.bind_eq_some_iff] at found
    obtain ⟨_, _, _, _, _, _, same⟩ := found
    cases same
    rfl
  · cases found

/-- An item finds the aggregate that it is by its expression. -/
theorem Aggregate.find?_expression {items : List String} (asked : item ∈ items)
    (found : ofItem? item = some aggregate) :
    (items.filterMap ofItem?).find? (·.expression == item) = some aggregate := by
  cases chosen : (items.filterMap ofItem?).find? (·.expression == item) with
  | none =>
    have mem : aggregate ∈ items.filterMap ofItem? := List.mem_filterMap.mpr ⟨item, asked, found⟩
    exact absurd (by simp [expression_of_ofItem? found]) (List.find?_eq_none.mp chosen aggregate mem)
  | some other =>
    obtain ⟨item', -, found'⟩ := List.mem_filterMap.mp (List.mem_of_find?_eq_some chosen)
    have named : other.expression = item := by simpa using List.find?_some chosen
    have same : item' = item := (expression_of_ofItem? found').symm.trans named
    rw [← found', same, found]

/-- The field of an aggregate is carried in place of the item that it was found as. -/
theorem Query.mem_joinFields_of_aggregate
    (derived : query.aggregates = query.fields.filterMap Aggregate.ofItem?)
    (mem : aggregate ∈ query.aggregates) (reads : field ∈ aggregate.field) :
    field ∈ query.joinFields := by
  rw [derived, List.mem_filterMap] at mem
  obtain ⟨item, asked, found⟩ := mem
  simp only [joinFields, List.mem_eraseDups, List.mem_append, List.mem_flatMap]
  refine .inl ⟨item, asked, ?_⟩
  rw [derived, Aggregate.find?_expression asked found]
  exact Option.mem_toList.mpr reads

theorem Query.subset_joinFields_of_groupBy (grouping : query.groupBy = some fields) :
    fields ⊆ query.joinFields := by
  intro field mem
  simp [joinFields, grouping, mem]

/-- Rows of a pair agree on what both are asked for. -/
theorem pairRow_agreeOn (sub : needed ⊆ fields) (main : Row) (joined : Option Row) :
    Row.AgreeOn needed (pairRow table needed carryMain main joined)
      (pairRow table fields carryMain main joined) := by
  intro field mem
  rw [get?_pairRow, get?_pairRow, if_pos mem, if_pos (sub mem)]

end Fields

def Sample.perCourse : Query :=
  Query.withAggregates {
    fields := ["enrollment.course", "COUNT(*)", "sum(enrollment.grade)"]
    table := "student"
    join := some (enrolled "Right")
    groupBy := some ["enrollment.course"]
    orderBy := some [⟨"COUNT(*)", .descending⟩] }

/-- A query with aggregates over a join comes to the same whatever the join carries beside the
fields that it has to carry. -/
theorem Query.execute_eq_of_joinFields_subset {query : Query} {join : Join} {kind : JoinKind}
    (joins : query.join = some join) (known : JoinKind.ofName? join.kind = some kind)
    (unconditional : query.conditions = [])
    (derived : query.aggregates = query.fields.filterMap Aggregate.ofItem?)
    (aggregated : query.wholeTable ∨ query.groupBy.isSome) {fields : List String}
    (wider : query.joinFields ⊆ fields) (main joined : Table) :
    query.execute main (some joined) =
      .ok (query.resultRows (join.rows kind query.table fields main joined)) := by
  have agree : Table.AgreeOn query.joinFields
      (join.rows kind query.table query.joinFields main joined)
      (join.rows kind query.table fields main joined) :=
    Table.agreeOn_map fun pair _ => pairRow_agreeOn wider pair.1 pair.2
  have results := resultRows_congr_of_aggregated aggregated agree
    (fun aggregate mem field reads => mem_joinFields_of_aggregate derived mem reads)
    (fun fields grouping => subset_joinFields_of_groupBy grouping)
  rw [execute_of_join join joins known, unconditional, Table.select_nil, ← results]
  rfl

/-- The names of the students may be carried too, and a field that no row has. -/
theorem Query.execute_perCourse :
    Sample.perCourse.execute Sample.students (some Sample.enrollments) =
      .ok (Sample.perCourse.resultRows ((Sample.enrolled "Right").rows .right "student"
        ["student.name", "enrollment.grade", "COUNT(*)", "enrollment.course"] Sample.students
        Sample.enrollments)) :=
  execute_eq_of_joinFields_subset rfl rfl rfl rfl (.inr rfl) (by decide +kernel) _ _

end TableQuery
