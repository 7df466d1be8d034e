import TableQuery.Proofs.JoinKinds
import TableQuery.Proofs.Narrowing

/-! The order of an inner join. Its rows hold the fields asked for and no others, so the pairs that
match are sorted by the keys among those fields, and any other key is lost. -/
namespace TableQuery

/-- The order of two pairs of rows, each key read from the row that its field belongs to. -/
def orderPairs (table : String) (keys : List SortKey) (a b : Row × Option Row) : Ordering :=
  keys.foldr (fun key rest =>
    (key.direction.orderFields (pairField table false a.1 a.2 key.field)
      (pairField table false b.1 b.2 key.field)).then rest) .eq

namespace Sample

def byStudent (fields : List String) : Query where
  fields
  table := "student"
  join := some (enrolled "Inner")
  orderBy := some [⟨"student.id", .descending⟩]

end Sample

section Pairs

variable {table : String}

theorem get?_pairRow_inner (fields : List String) (pair : Row × Option Row) (name : String) :
    (pairRow table fields false pair.1 pair.2).get? name =
      if name ∈ fields then pairField table false pair.1 pair.2 name else none := by
  rw [get?_pairRow]
  exact Option.or_none

/-- Keys that are not asked for tell no rows of an inner join apart. -/
theorem orderRows_pairRow (keys : List SortKey) (fields : List String) (a b : Row × Option Row) :
    orderRows keys (pairRow table fields false a.1 a.2) (pairRow table fields false b.1 b.2) =
      orderPairs table (keys.filter (·.field ∈ fields)) a b := by
  rw [orderRows, orderPairs, List.foldr_filter]
  refine List.foldr_ext _ _ _ fun key _ rest => ?_
  rw [SortKey.orderRows, get?_pairRow_inner, get?_pairRow_inner]
  by_cases asked : key.field ∈ fields
  · simp [asked]
  · simp only [asked, if_false, decide_false, Bool.false_eq_true]
    rfl

theorem Join.sortBy_innerRows (join : Join) (keys : List SortKey) (fields : List String)
    (main joined : Table) :
    (join.rows .inner table fields main joined).sortBy keys =
      ((join.innerPairs main joined).mergeSort fun a b =>
        (orderPairs table (keys.filter (·.field ∈ fields)) a b).isLE).map fun pair =>
          pairRow table fields false pair.1 pair.2 := by
  refine (List.map_mergeSort fun a _ b _ => ?_).symm
  simp only [JoinKind.carriesMain, orderRows_pairRow]

theorem orderPairs_main (pointless : '.' ∉ table.toList) (key : String) (direction : Direction)
    (a b : Row × Option Row) :
    orderPairs table [⟨table ++ "." ++ key, direction⟩] a b =
      direction.orderFields (a.1.get? key) (b.1.get? key) := by
  rw [orderPairs, List.foldr_cons, List.foldr_nil, pairField_main pointless,
    pairField_main pointless]
  cases direction.orderFields (a.1.get? key) (b.1.get? key) <;> rfl

end Pairs

section Execution

variable {query : Query} {join : Join}

theorem Table.limitTo_map {α : Type} (limit : Option Nat) (f : α → Row) (items : List α) :
    Table.limitTo limit (items.map f) =
      (limit.elim items fun n => items.take n).map f := by
  cases limit with
  | none => rfl
  | some n => exact List.map_take.symm

/-- A plain query on an inner join shows the pairs that match, sorted by the keys asked for. -/
theorem Query.execute_inner_ordered (plain : query.Plain) (perRow : query.wholeTable = false)
    (joins : query.join = some join) (isInner : JoinKind.ofName? join.kind = some .inner)
    (unconditional : query.conditions = []) (pointless : '.' ∉ query.table.toList)
    (qualified : ∀ field ∈ query.fields, '.' ∈ field.toList) {keys : List SortKey}
    (ordered : query.orderBy = some keys) (main joined : Table) :
    query.execute main (some joined) =
      .ok (Table.limitTo query.limit (((join.innerPairs main joined).mergeSort fun a b =>
        (orderPairs query.table (keys.filter (·.field ∈ query.fields)) a b).isLE).map fun pair =>
          shownRow query.table query.fields (some pair.1) pair.2)) := by
  have carried : query.fields ⊆ query.joinFields :=
    fun field mem => (mem_joinFields_of_plain plain).mpr mem
  have kept : keys.filter (·.field ∈ query.joinFields) = keys.filter (·.field ∈ query.fields) := by
    simp only [mem_joinFields_of_plain plain]
  rw [execute_of_join join joins isInner, unconditional, Table.select_nil]
  refine congrArg Except.ok ?_
  simp only [resultRows, perRow, plain.noGrouping, orderAndLimit, ordered, Join.sortBy_innerRows,
    kept, Table.limitTo_map, Table.project, List.map_map]
  exact List.map_congr_left fun pair _ => project_pairRow pointless qualified carried

/-- A plain query on an inner join in the order of a field of the main table shows the pairs that
match, in the order of the main table and then of the joined one, sorted by that field of the main
row if the field is asked for. If it is not, they stay as they are. -/
theorem Query.execute_inner_by_main_field (plain : query.Plain) (perRow : query.wholeTable = false)
    (joins : query.join = some join) (isInner : JoinKind.ofName? join.kind = some .inner)
    (unconditional : query.conditions = []) (pointless : '.' ∉ query.table.toList)
    (qualified : ∀ field ∈ query.fields, '.' ∈ field.toList) (key : String) {direction : Direction}
    (ordered : query.orderBy = some [⟨query.table ++ "." ++ key, direction⟩])
    (main joined : Table) :
    query.execute main (some joined) =
      .ok (Table.limitTo query.limit (
        (if query.table ++ "." ++ key ∈ query.fields then
          (join.innerPairs main joined).mergeSort fun a b =>
            (direction.orderFields (a.1.get? key) (b.1.get? key)).isLE
        else join.innerPairs main joined).map fun pair =>
          shownRow query.table query.fields (some pair.1) pair.2)) := by
  rw [execute_inner_ordered plain perRow joins isInner unconditional pointless qualified ordered]
  by_cases asked : query.table ++ "." ++ key ∈ query.fields
  · simp only [asked, if_true, List.filter_cons, List.filter_nil, decide_true,
      orderPairs_main pointless]
  · have same : ((join.innerPairs main joined).mergeSort fun a b =>
        (orderPairs query.table [] a b).isLE) = join.innerPairs main joined :=
      List.mergeSort_of_pairwise (List.pairwise_of_forall fun _ _ => rfl)
    simp only [asked, if_false, List.filter_cons, List.filter_nil, decide_false,
      Bool.false_eq_true, same]

/-- The course of the third student is before those of the first. -/
theorem Query.byStudent_first :
    ({ Sample.byStudent ["enrollment.course", "student.id"] with limit := some 2 } : Query).execute
        Sample.students (some Sample.enrollments) = .ok [
      Row.ofCells [("enrollment.course", .text "art"), ("student.id", .text "3")],
      Row.ofCells [("enrollment.course", .text "math"), ("student.id", .text "1")]] := by
  rw [execute_inner_by_main_field ⟨rfl, rfl⟩ rfl rfl rfl rfl (by decide) (by decide) "id" rfl]
  cbv

/-- Where the students are not asked for, the courses stay as the students come, though every
student has the field to sort by. -/
theorem Query.byStudent_unsorted :
    (∀ row ∈ Sample.students, row.contains "id") ∧
      (Sample.byStudent ["enrollment.course"]).execute Sample.students (some Sample.enrollments) ≠
        .ok ((((Sample.enrolled "Inner").innerPairs Sample.students Sample.enrollments).mergeSort
          fun a b => (Direction.descending.orderFields (a.1.get? "id") (b.1.get? "id")).isLE).map
            fun pair => shownRow "student" ["enrollment.course"] (some pair.1) pair.2) := by
  refine ⟨by decide, ?_⟩
  have sorted : (((Sample.enrolled "Inner").innerPairs Sample.students Sample.enrollments).mergeSort
      fun a b => (Direction.descending.orderFields (a.1.get? "id") (b.1.get? "id")).isLE).map
        (fun pair => shownRow "student" ["enrollment.course"] (some pair.1) pair.2) =
      ["art", "math", "bio"].map fun course => .ofCells [("enrollment.course", .text course)] := by
    cbv
  have kept : (Sample.byStudent ["enrollment.course"]).execute Sample.students
      (some Sample.enrollments) = .ok (["math", "bio", "art"].map fun course =>
        .ofCells [("enrollment.course", .text course)]) := by
    cbv
  rw [sorted, kept]
  decide

end Execution
end TableQuery
