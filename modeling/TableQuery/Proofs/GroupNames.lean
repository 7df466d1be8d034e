import TableQuery.Proofs.Outcome
import TableQuery.Proofs.Pairing
import TableQuery.Proofs.Projection

/-! Groups by what their rows show. Grouping tells a field that is absent from one that holds null,
and a group shows both as null, so two groups may look the same. A left join makes such groups: it
leaves out what a joined row lacks, and fills in null where no row is joined. -/
namespace TableQuery

def Sample.perPlace (field : String) : Query :=
  Query.withAggregates {
    fields := [field, "COUNT(*)"]
    table := "student"
    join := some (enrolled "Left")
    groupBy := some [field] }

/-- One row has nothing under a field that is null in the other. -/
def Row.AbsentAgainstNull (a b : Row) (field : String) : Prop :=
  a.get? field = none ∧ b.get? field = some .null ∨ a.get? field = some .null ∧ b.get? field = none

theorem Value.groupPart_eq_null_iff {value : Value} : value.groupPart = .null ↔ value = .null := by
  cases value <;> simp [groupPart]

theorem Row.groupPart_getOrNull (row : Row) (field : String) :
    (row.getOrNull field).groupPart = ((row.get? field).map Value.groupPart).getD .null := by
  unfold getOrNull
  cases row.get? field <;> rfl

/-- Fields that are unlike but shown as alike are one absent and one null. -/
theorem Row.absentAgainstNull_of_shown {a b : Row} {field : String}
    (unlike : ¬ Alike (a.get? field) (b.get? field))
    (shown : (a.getOrNull field).groupPart = (b.getOrNull field).groupPart) :
    a.AbsentAgainstNull b field := by
  rw [alike_iff] at unlike
  rw [groupPart_getOrNull, groupPart_getOrNull] at shown
  unfold AbsentAgainstNull
  cases held : a.get? field with
  | none =>
    cases held' : b.get? field with
    | none => simp [held, held'] at unlike
    | some value =>
      rw [held, held'] at shown
      exact .inl ⟨rfl, congrArg some (Value.groupPart_eq_null_iff.mp shown.symm)⟩
  | some value =>
    cases held' : b.get? field with
    | none =>
      rw [held, held'] at shown
      exact .inr ⟨congrArg some (Value.groupPart_eq_null_iff.mp shown), rfl⟩
    | some other =>
      rw [held, held'] at unlike shown
      exact absurd (congrArg some shown) unlike

namespace Group

variable {fields : List String} {aggregates : List Aggregate} {table : Table} {row : Row}
  {field : String}

/-- The row made of the group that a row of a table is in. -/
def rowFor (fields : List String) (aggregates : List Aggregate) (table : Table) (row : Row) : Row :=
  record fields aggregates (rowsOf fields (keyOf fields row) table)

/-- What two rows are made of: rows of a table that are in different groups. -/
def FromDifferent (fields : List String) (aggregates : List Aggregate) (table : Table)
    (a b : Row) : Prop :=
  ∃ x ∈ table, ∃ y ∈ table, a = rowFor fields aggregates table x ∧
    b = rowFor fields aggregates table y ∧ keyOf fields x ≠ keyOf fields y

theorem FromDifferent.symm {a b : Row} (h : FromDifferent fields aggregates table a b) :
    FromDifferent fields aggregates table b a := by
  obtain ⟨x, memX, y, memY, madeA, madeB, other⟩ := h
  exact ⟨y, memY, x, memX, madeB, madeA, other.symm⟩

/-- Any two rows of a grouped table are those of different groups. -/
theorem pairwise_group (fields : List String) (aggregates : List Aggregate) (table : Table) :
    (table.group fields aggregates).Pairwise (FromDifferent fields aggregates table) := by
  have made : ∀ key ∈ keysOf fields table, ∃ row ∈ table, keyOf fields row = key ∧
      (ofRows fields aggregates key (rowsOf fields key table)).row =
        rowFor fields aggregates table row := by
    intro key mem
    obtain ⟨row, memRow, rfl⟩ := mem_keysOf.mp mem
    exact ⟨row, memRow, rfl, row_ofRows (rowsOf_ne_nil.mpr mem)⟩
  rw [Table.group, foldl_place, List.map_map, List.pairwise_map]
  refine (nodup_keysOf fields table).imp_of_mem fun memK memL other => ?_
  obtain ⟨x, memX, keyX, madeX⟩ := made _ memK
  obtain ⟨y, memY, keyY, madeY⟩ := made _ memL
  exact ⟨x, memX, y, memY, madeX, madeY, by rwa [keyX, keyY]⟩

/-- Under a grouping field that no aggregate is named for, the row of a group shows what its first
row holds, null if that is nothing. -/
theorem get?_record (asked : field ∈ fields)
    (fresh : ∀ aggregate ∈ aggregates, aggregate.expression ≠ field) (first : Row) (rest : Table) :
    (record fields aggregates (first :: rest)).get? field = some (first.getOrNull field) := by
  have unnamed : aggregates.reverse.find? (·.expression == field) = none := by
    rw [List.find?_eq_none]
    intro aggregate mem
    simpa using fresh aggregate (List.mem_reverse.mp mem)
  have made : (ofRows fields aggregates [] (first :: rest)).row =
      record fields aggregates (first :: rest) := row_ofRows (List.cons_ne_nil first rest)
  have head : (headOf fields first).get? field = some (first.getOrNull field) :=
    Row.get?_ofCells_cellsAt asked
  rw [← made, Group.row, ofRows, Row.get?_insertAll, Tallies.lookup_cells, unnamed]
  exact head

/-- Any row of the group would be shown alike. -/
theorem groupPart_rowFor (asked : field ∈ fields)
    (fresh : ∀ aggregate ∈ aggregates, aggregate.expression ≠ field) (mem : row ∈ table) :
    ((rowFor fields aggregates table row).get? field).map Value.groupPart =
      some (row.getOrNull field).groupPart := by
  have filled : rowsOf fields (keyOf fields row) table ≠ [] :=
    rowsOf_ne_nil.mpr (mem_keysOf.mpr ⟨row, mem, rfl⟩)
  obtain ⟨first, rest, rows⟩ := List.exists_cons_of_ne_nil filled
  have memFirst : first ∈ rowsOf fields (keyOf fields row) table := rows ▸ List.mem_cons_self
  have sameKey : keyOf fields first = keyOf fields row := by
    simpa [rowsOf] using (List.mem_filter.mp memFirst).2
  have alike := alike_iff.mp (keyOf_eq_iff.mp sameKey field asked)
  rw [rowFor, rows, get?_record asked fresh, Option.map_some, Row.groupPart_getOrNull,
    Row.groupPart_getOrNull, alike]

/-- Rows of two groups that show the same under every grouping field hold null against nothing under
one of them. -/
theorem absentAgainstNull_of_rowFor {x y : Row} (memX : x ∈ table) (memY : y ∈ table)
    (other : keyOf fields x ≠ keyOf fields y)
    (fresh : ∀ aggregate ∈ aggregates, aggregate.expression ∉ fields)
    (same : ∀ field ∈ fields, Alike ((rowFor fields aggregates table x).get? field)
      ((rowFor fields aggregates table y).get? field)) :
    ∃ field ∈ fields, x.AbsentAgainstNull y field := by
  obtain ⟨field, asked, unlike⟩ : ∃ field ∈ fields, ¬ Alike (x.get? field) (y.get? field) := by
    simpa [keyOf_eq_iff] using other
  have unnamed : ∀ aggregate ∈ aggregates, aggregate.expression ≠ field := by
    rintro aggregate mem rfl
    exact fresh aggregate mem asked
  have shown := alike_iff.mp (same field asked)
  rw [groupPart_rowFor asked unnamed memX, groupPart_rowFor asked unnamed memY] at shown
  exact ⟨field, asked, Row.absentAgainstNull_of_shown unlike (Option.some.inj shown)⟩

end Group

namespace Query

variable {query : Query} {join : Join} {fields : List String} {main joined rows : Table}

/-- What holds of any two rows either way round still does when they are sorted and cut. -/
theorem pairwise_orderAndLimit (query : Query) {R : Row → Row → Prop}
    (symm : ∀ {a b}, R a b → R b a) {table : Table} (told : table.Pairwise R) :
    (query.orderAndLimit table).Pairwise R := by
  have sorted (keys : List SortKey) : (table.sortBy keys).Pairwise R :=
    (List.mergeSort_perm table _).symm.pairwise told symm
  have cut (limit : Option Nat) {table : Table} (told : table.Pairwise R) :
      (table.limitTo limit).Pairwise R := by
    cases limit with
    | none => exact told
    | some n => exact told.sublist (List.take_sublist n table)
  unfold orderAndLimit
  cases query.orderBy with
  | none => exact cut query.limit told
  | some keys => exact cut query.limit (sorted keys)

/-- Any two rows of the result of a query that groups a left join are those of different groups of
the rows that meet its conditions. They agree under every grouping field only if the rows of one
group have nothing under such a field and those of the other null. -/
theorem execute_left_groups (joins : query.join = some join)
    (isLeft : JoinKind.ofName? join.kind = some .left) (grouping : query.groupBy = some fields)
    (fresh : ∀ aggregate ∈ query.aggregates, aggregate.expression ∉ fields)
    (done : query.execute main (some joined) = .ok rows) :
    ∃ kept, Table.select query.conditions
          (join.rows .left query.table query.joinFields main joined) = .ok kept ∧
      rows.Pairwise fun a b => ∃ x ∈ kept, ∃ y ∈ kept,
        a = Group.rowFor fields query.aggregates kept x ∧
        b = Group.rowFor fields query.aggregates kept y ∧
        Group.keyOf fields x ≠ Group.keyOf fields y ∧
        ((∀ field ∈ fields, Alike (a.get? field) (b.get? field)) →
          ∃ field ∈ fields, x.AbsentAgainstNull y field) := by
  obtain ⟨source, kept, started, chosen, rfl⟩ := execute_eq_ok_iff.mp done
  simp only [sourceRows, joins, isLeft] at started
  cases started
  refine ⟨kept, chosen, ?_⟩
  unfold resultRows
  split
  · exact List.pairwise_singleton _ _
  · rw [grouping]
    have apart := query.pairwise_orderAndLimit Group.FromDifferent.symm
      (Group.pairwise_group fields query.aggregates kept)
    refine apart.imp ?_
    rintro a b ⟨x, memX, y, memY, rfl, rfl, other⟩
    exact ⟨x, memX, y, memY, rfl, rfl, other,
      Group.absentAgainstNull_of_rowFor memX memY other fresh⟩

/-- Every enrollment has a course, so the student without one is a group apart from all courses. -/
theorem perCourse_apart :
    ∃ rows, (Sample.perPlace "enrollment.course").execute Sample.students
        (some Sample.enrollments) = .ok rows ∧ rows.length = 4 ∧
      rows.Pairwise fun a b =>
        ¬ Alike (a.get? "enrollment.course") (b.get? "enrollment.course") := by
  let query := Sample.perPlace "enrollment.course"
  obtain ⟨rows, done, four⟩ : ∃ rows, query.execute Sample.students (some Sample.enrollments) =
      .ok rows ∧ rows.length = 4 := by
    refine ⟨_, rfl, ?_⟩
    decide +kernel
  have held : ∀ row ∈ (Sample.enrolled "Left").rows .left "student" query.joinFields
      Sample.students Sample.enrollments, (row.get? "enrollment.course").isSome := by
    decide +kernel
  have grouping : query.groupBy = some ["enrollment.course"] := rfl
  obtain ⟨kept, chosen, apart⟩ := execute_left_groups rfl rfl grouping (by decide) done
  cases (Table.select_nil _).symm.trans chosen
  refine ⟨rows, done, four, apart.imp ?_⟩
  rintro a b ⟨x, memX, y, memY, -, -, -, same⟩ alike
  obtain ⟨field, asked, absent⟩ := same fun field asked => by
    rwa [List.mem_singleton.mp asked]
  rw [List.mem_singleton.mp asked] at absent
  have heldX := held x memX
  have heldY := held y memY
  rcases absent with ⟨none, -⟩ | ⟨-, none⟩
  · simp [none] at heldX
  · simp [none] at heldY

/-- No enrollment has a room. The rows of students with courses have nothing there and that of the
student without one null, and both groups are shown under null. -/
theorem perRoom_twice :
    (∀ aggregate ∈ (Sample.perPlace "enrollment.room").aggregates,
        aggregate.expression ∉ ["enrollment.room"]) ∧
      ∃ a b, (Sample.perPlace "enrollment.room").execute Sample.students
          (some Sample.enrollments) = .ok [a, b] ∧
        ∀ field ∈ ["enrollment.room"], Alike (a.get? field) (b.get? field) := by
  refine ⟨by decide, .ofCells [("enrollment.room", .null), ("COUNT(*)", .number (.ofNat 3))],
    .ofCells [("enrollment.room", .null), ("COUNT(*)", .number (.ofNat 1))], ?_, ?_⟩
  · decide +kernel
  · exact List.forall_mem_singleton.mpr .null

end Query
end TableQuery
