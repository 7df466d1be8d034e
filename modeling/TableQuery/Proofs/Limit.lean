import TableQuery.Proofs.Agreement
import TableQuery.Proofs.Pairing

/-! A limit takes the first rows of the result that a query has without it, grouped or not. The one
row of aggregates over the whole table is the same whatever the limit and the order. -/
namespace TableQuery

def Query.limitedTo (query : Query) (limit : Option Nat) : Query := { query with limit }

def Query.orderedBy (query : Query) (orderBy : Option (List SortKey)) : Query :=
  { query with orderBy }

namespace Sample

def takers : Query where
  fields := ["enrollment.student"]
  table := "student"
  join := some (enrolled "Right")
  groupBy := some ["enrollment.student"]

def coursesTaken : Query where
  fields := ["COUNT(*)"]
  aggregates := [⟨.count, none, "COUNT(*)"⟩]
  table := "student"
  join := some (enrolled "Right")
  wholeTable := true

end Sample

theorem Table.project_limitTo (fields : List String) (limit : Option Nat) (table : Table) :
    (table.limitTo limit).project fields = (table.project fields).limitTo limit := by
  cases limit with
  | none => rfl
  | some n => exact List.map_take

namespace Query

variable {query : Query}

theorem orderAndLimit_limitedTo (query : Query) (limit : Option Nat) (table : Table) :
    (query.limitedTo limit).orderAndLimit table =
      ((query.limitedTo none).orderAndLimit table).limitTo limit := rfl

/-- The limit comes before the fields are chosen and after the groups are made; either way it takes
the first rows of the result. -/
theorem resultRows_limitedTo (perRow : query.wholeTable = false) (limit : Option Nat)
    (table : Table) :
    (query.limitedTo limit).resultRows table =
      ((query.limitedTo none).resultRows table).limitTo limit := by
  have perRow' (limit : Option Nat) : ¬ (query.limitedTo limit).wholeTable := by
    simp [limitedTo, perRow]
  have grouping (limit : Option Nat) : (query.limitedTo limit).groupBy = query.groupBy := rfl
  rw [resultRows, resultRows, if_neg (perRow' _), if_neg (perRow' _), grouping, grouping]
  cases query.groupBy with
  | some fields => exact orderAndLimit_limitedTo query limit _
  | none =>
    change Table.project query.fields _ = Table.limitTo limit (Table.project query.fields _)
    rw [orderAndLimit_limitedTo, Table.project_limitTo]

/-- The rows that a query keeps of its source: those that meet the conditions. -/
def keptRows (query : Query) (main : Table) (joined : Option Table) :
    Except ExecutionError Table :=
  (query.sourceRows main joined).bind (Table.select query.conditions)

theorem execute_eq_keptRows (query : Query) (main : Table) (joined : Option Table) :
    query.execute main joined = (query.keptRows main joined).map query.resultRows := by
  rw [execute_eq, keptRows]
  cases query.sourceRows main joined <;> rfl

/-- A limit takes the first rows of what a query comes to without it, and a query that fails does so
for the same reason. Aggregates over the whole table give one row, made of the rows that are kept
whatever the limit and the order. -/
theorem execute_limitedTo (query : Query) (main : Table) (joined : Option Table) :
    (query.wholeTable = false → ∀ n : Nat,
      (query.limitedTo (some n)).execute main joined =
        ((query.limitedTo none).execute main joined).map (List.take n)) ∧
    (query.wholeTable = true → ∀ (limit : Option Nat) (orderBy : Option (List SortKey)),
      ((query.limitedTo limit).orderedBy orderBy).execute main joined =
        (query.keptRows main joined).map fun kept => [kept.aggregate query.aggregates]) := by
  constructor
  · intro perRow n
    have rows : (query.limitedTo (some n)).resultRows =
        List.take n ∘ (query.limitedTo none).resultRows :=
      funext fun table => resultRows_limitedTo perRow (some n) table
    rw [execute_eq_keptRows, execute_eq_keptRows, rows]
    change (query.keptRows main joined).map _ = ((query.keptRows main joined).map _).map _
    cases query.keptRows main joined <;> rfl
  · intro whole limit orderBy
    have rows : ((query.limitedTo limit).orderedBy orderBy).resultRows =
        fun kept => [kept.aggregate query.aggregates] :=
      funext fun _ => if_pos whole
    rw [execute_eq_keptRows, rows]
    rfl

/-- One of the two students that take courses is cut off, and a limit of no rows does not take away
the one row that counts the courses. -/
theorem takers_limited :
    (Sample.takers.limitedTo (some 1)).execute Sample.students (some Sample.enrollments) =
        .ok [.ofCells [("enrollment.student", .text "3")]] ∧
      ((Sample.coursesTaken.limitedTo (some 0)).orderedBy (some [⟨"id", .ascending⟩])).execute
          Sample.students (some Sample.enrollments) =
        .ok [.ofCells [("COUNT(*)", .number (.ofNat 3))]] := by
  constructor
  · rw [(execute_limitedTo Sample.takers _ _).1 rfl 1]
    decide +kernel
  · rw [(execute_limitedTo Sample.coursesTaken _ _).2 rfl (some 0) (some [⟨"id", .ascending⟩])]
    decide +kernel

end Query
end TableQuery
