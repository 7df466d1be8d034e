import TableQuery.Proofs.Narrowing
import TableQuery.Proofs.Writing

/-! What a star shows of a join. The fields of a result take it for every field of a row, but the
join before them takes it for the name of one field, so the joined row is asked for nothing. -/
namespace TableQuery

def Row.Holds (row : Row) (value : Value) : Prop := ∃ name, row.get? name = some value

/-- The cell under the name of the star, if there is a value for it. -/
def starCell (value : Option Value) : List (String × Value) :=
  (value.map fun v => ("*", v)).toList

/-- What is left of a pair of rows of which the star alone is asked. -/
def JoinKind.starCells (kind : JoinKind) (table : String) (main : Row) (joined : Option Row) :
    List (String × Value) :=
  if kind.carriesMain then carriedCells table main ++ starCell (main.get? "*")
  else starCell (joined.bind (·.get? "*"))

def Sample.everything (kind : String) : Query where
  fields := ["*"]
  table := "student"
  join := some (enrolled kind)

section Cells

variable {kind : JoinKind} {table key : String} {main : Row} {joined : Option Row}

theorem keys_starCell (value : Option Value) :
    Cells.keys (starCell value) = (value.map fun _ => "*").toList := by
  cases value <;> rfl

theorem keys_carriedCells (table : String) (main : Row) :
    Cells.keys (carriedCells table main) = main.keys.map (table ++ "." ++ ·) := by
  simp [Cells.keys, carriedCells, Row.keys, Function.comp_def]

/-- The star is the name of no field that is carried. -/
theorem carried_ne_star : table ++ "." ++ key ≠ "*" := by
  intro same
  have pointed : '.' ∈ (table ++ "." ++ key).toList := by simp
  rw [same] at pointed
  exact absurd pointed (by decide)

theorem nodup_starCells (kind : JoinKind) (table : String) (main : Row) (joined : Option Row) :
    (Cells.keys (kind.starCells table main joined)).Nodup := by
  have single (value : Option Value) : (Cells.keys (starCell value)).Nodup := by
    cases value <;> simp [keys_starCell]
  have carried : (Cells.keys (carriedCells table main)).Nodup := by
    rw [keys_carriedCells]
    exact main.distinct.map fun a b same => by simpa using same
  unfold JoinKind.starCells
  split
  · rw [Cells.keys, List.map_append]
    refine carried.append (single _) fun name here there => ?_
    obtain ⟨key, -, rfl⟩ := List.mem_map.mp (keys_carriedCells table main ▸ here)
    cases value : main.get? "*" with
    | none => simp [value, starCell] at there
    | some v =>
      rw [value] at there
      exact carried_ne_star (List.mem_singleton.mp there)
  · exact single _

theorem pairField_star (paired : kind.carriesMain = false → joined.isSome) :
    pairField table kind.carriesMain main joined "*" =
      if kind.carriesMain then main.get? "*" else joined.bind (·.get? "*") := by
  have bare : splitName "*" = (none, "*") := by decide
  rw [pairField, bare]
  cases carry : kind.carriesMain with
  | true => rfl
  | false =>
    obtain ⟨row, rfl⟩ := Option.isSome_iff_exists.mp (paired carry)
    rfl

theorem cells_pairRow_star (paired : kind.carriesMain = false → joined.isSome) :
    (pairRow table ["*"] kind.carriesMain main joined).cells =
      kind.starCells table main joined := by
  have written : pairRow table ["*"] kind.carriesMain main joined =
      .ofCells (kind.starCells table main joined) := by
    rw [pairRow, List.filterMap_cons, pairField_star paired, JoinKind.starCells]
    cases kind.carriesMain with
    | true => cases main.get? "*" <;> rfl
    | false => cases joined.bind (·.get? "*") <;> rfl
  rw [written, Row.cells_ofCells_of_nodup (nodup_starCells kind table main joined)]

theorem holds_pairRow_star {value : Value} (held : main.Holds value) :
    (pairRow table ["*"] true main joined).Holds value := by
  obtain ⟨key, found⟩ := held
  have unasked : table ++ "." ++ key ∉ ["*"] :=
    fun asked => carried_ne_star (List.mem_singleton.mp asked)
  refine ⟨table ++ "." ++ key, ?_⟩
  rw [get?_pairRow_carried, if_neg unasked, Option.none_or, found]

theorem Row.project_star (row : Row) : row.project ["*"] = row := by
  have written : row.project ["*"] = ofCells row.cells := by simp [project]
  apply Row.ext
  rw [written, cells_ofCells_of_nodup row.distinct]

theorem Join.isSome_of_mem_pairs {join : Join} {a b : Table} {pair : Row × Option Row}
    (mem : pair ∈ join.pairs kind a b) (bare : kind.carriesMain = false) : pair.2.isSome := by
  cases kind with
  | inner =>
    obtain ⟨row, -, mem⟩ := List.mem_flatMap.mp mem
    obtain ⟨other, -, rfl⟩ := List.mem_map.mp mem
    rfl
  | left => cases bare
  | right => cases bare

end Cells

namespace Query

variable {query : Query} {join : Join} {kind : JoinKind}

theorem joinFields_star (plain : query.Plain) (starred : query.fields = ["*"]) :
    query.joinFields = ["*"] := by
  simp [joinFields, plain.noAggregates, plain.noGrouping, starred, List.eraseDups_cons]

/-- A star over a join shows one row for each pair, sorted and cut as the query asks. Of an outer
join it is the main row under the name of its table, and of an inner one it is nothing; beside that
there is only what the row, or the joined one, has under the name of the star itself. -/
theorem execute_star (plain : query.Plain) (perRow : query.wholeTable = false)
    (starred : query.fields = ["*"]) (joins : query.join = some join)
    (known : JoinKind.ofName? join.kind = some kind) (unconditional : query.conditions = [])
    (main joined : Table) :
    ∃ rows, query.execute main (some joined) = .ok (query.orderAndLimit rows) ∧
      List.Forall₂ (fun pair row => row.cells = kind.starCells query.table pair.1 pair.2 ∧
          (kind.carriesMain → ∀ value, pair.1.Holds value → row.Holds value))
        (join.pairs kind main joined) rows := by
  refine ⟨join.rows kind query.table ["*"] main joined, ?_, ?_⟩
  · have whole (table : Table) : Table.project ["*"] table = table := by
      rw [Table.project, funext Row.project_star, List.map_id']
    rw [execute_of_join join joins known, unconditional, Table.select_nil,
      joinFields_star plain starred]
    simp [Except.map, resultRows, perRow, plain.noGrouping, starred, whole]
  · rw [Join.rows, List.forall₂_map_right_iff, List.forall₂_same]
    intro pair mem
    refine ⟨cells_pairRow_star (Join.isSome_of_mem_pairs mem), fun outer value held => ?_⟩
    rw [outer]
    exact holds_pairRow_star held

/-- A left join shows the students whole, and none of the courses. -/
theorem everything_students :
    ∃ rows, (Sample.everything "LEFT").execute Sample.students (some Sample.enrollments) =
        .ok rows ∧
      rows.map Row.cells = [
        [("student.id", .text "1"), ("student.name", .text "Ann")],
        [("student.id", .text "1"), ("student.name", .text "Ann")],
        [("student.id", .text "2")],
        [("student.id", .text "3"), ("student.name", .text "Cid")]] := by
  have plain : (Sample.everything "LEFT").Plain := ⟨rfl, rfl⟩
  obtain ⟨rows, done, shown⟩ :=
    execute_star plain rfl rfl rfl rfl rfl Sample.students Sample.enrollments
  refine ⟨rows, done, ?_⟩
  have cells : ((Sample.enrolled "LEFT").pairs .left Sample.students Sample.enrollments).map
      (fun pair => JoinKind.left.starCells "student" pair.1 pair.2) = rows.map Row.cells := by
    rw [← List.forall₂_eq_eq_eq, List.forall₂_map_left_iff, List.forall₂_map_right_iff]
    exact shown.imp fun pair row held => held.1.symm
  rw [← cells]
  decide +kernel

/-- An inner join shows three rows with nothing in them. -/
theorem everything_lost :
    ¬ ∃ rows, (Sample.everything "INNER").execute Sample.students (some Sample.enrollments) =
        .ok rows ∧
      List.Forall₂ (fun pair row => (∀ value, pair.1.Holds value → row.Holds value) ∧
          ∀ other ∈ pair.2, ∀ value, other.Holds value → row.Holds value)
        ((Sample.enrolled "INNER").pairs .inner Sample.students Sample.enrollments) rows := by
  rintro ⟨rows, done, kept⟩
  have empty : (Sample.everything "INNER").execute Sample.students (some Sample.enrollments) =
      .ok [.empty, .empty, .empty] := by decide +kernel
  cases empty.symm.trans done
  have numbered : ∀ pair ∈ (Sample.enrolled "INNER").pairs .inner Sample.students
      Sample.enrollments, (pair.1.get? "id").isSome := by decide +kernel
  obtain ⟨pair, rest, ⟨keepsMain, -⟩, -, pairs⟩ := List.forall₂_cons_right_iff.mp kept
  obtain ⟨number, held⟩ :=
    Option.isSome_iff_exists.mp (numbered pair (pairs ▸ List.mem_cons_self))
  obtain ⟨name, shown⟩ := keepsMain number ⟨"id", held⟩
  cases shown

end Query
end TableQuery
