import TableQuery.Proofs.Agreement
import TableQuery.Proofs.Pairing

/-! The kinds of join compared, by what their rows show under qualified names. A left join is an
inner join with the main rows that match nothing. A right join is one with the joined rows that
match nothing, as long as none matches two main rows. An inner join may be read from either side. -/
namespace TableQuery

namespace Sample

def courseFields : List String := ["enrollment.course", "student.name"]

def courseRow (course name : Value) : Row :=
  .ofCells [("enrollment.course", course), ("student.name", name)]

end Sample

section Shown

/-- What two rows show under a qualified name: the field of the main row under the main table's
name, else that of the joined row; null where the row has none or is not there. -/
def shownValue (table : String) (main joined : Option Row) (field : String) : Value :=
  let (qualifier, name) := splitName field
  let side := if qualifier = some table then main else joined
  (side.bind (·.get? name)).getD .null

def shownRow (table : String) (fields : List String) (main joined : Option Row) : Row :=
  .ofCells (fields.map fun field => (field, shownValue table main joined field))

variable {table field : String} {fields asked : List String} {carryMain : Bool} {main : Row}
  {joined : Option Row}

theorem getD_pairField (pointed : '.' ∈ field.toList) :
    (pairField table carryMain main joined field).getD .null =
      shownValue table (some main) joined field := by
  obtain ⟨qualifier, name, split⟩ := exists_splitName pointed
  by_cases own : qualifier = table
  · simp [pairField, shownValue, split, own]
  · cases joined <;> simp [pairField, shownValue, split, own]

/-- Under qualified names the rows of a pair show the same whether or not the main row is carried,
and whatever else is asked for. -/
theorem project_pairRow (pointless : '.' ∉ table.toList)
    (qualified : ∀ field ∈ fields, '.' ∈ field.toList) (sub : fields ⊆ asked) :
    (pairRow table asked carryMain main joined).project fields =
      shownRow table fields (some main) joined := by
  have starless : "*" ∉ fields := fun star => absurd (qualified _ star) (by decide)
  rw [Row.project_of_starless _ starless, shownRow]
  congr 1
  refine List.map_congr_left fun field mem => ?_
  rw [Row.getOrNull, get?_pairRow_of_mem pointless (sub mem), getD_pairField (qualified field mem)]

theorem Join.project_rows (join : Join) (kind : JoinKind) (pointless : '.' ∉ table.toList)
    (qualified : ∀ field ∈ fields, '.' ∈ field.toList) (main joined : Table) :
    (join.rows kind table fields main joined).project fields =
      (join.pairs kind main joined).map fun pair =>
        shownRow table fields (some pair.1) pair.2 := by
  rw [Join.rows, Table.project, List.map_map]
  exact List.map_congr_left fun pair _ =>
    project_pairRow pointless qualified (List.Subset.refl fields)

end Shown

section Lists

variable {α β γ : Type}

theorem not_any_iff {p : α → Bool} {l : List α} : (!l.any p) = true ↔ l.filter p = [] := by
  simp [List.filter_eq_nil_iff]

theorem flatMap_ite (p : α → Bool) (f : α → β) (l : List α) :
    (l.flatMap fun a => if p a then [f a] else []) = (l.filter p).map f := by
  induction l with
  | nil => rfl
  | cons a l ih =>
    rw [List.flatMap_cons, ih]
    cases held : p a <;> simp [held]

/-- Pairs that belong together, gone through from either side. -/
theorem flatMap_filter_comm (p : α → β → Bool) (f : α → β → γ) (as : List α) (bs : List β) :
    (as.flatMap fun a => (bs.filter (p a)).map (f a)).Perm
      (bs.flatMap fun b => (as.filter (p · b)).map (f · b)) := by
  induction as with
  | nil => simp
  | cons a as ih =>
    have split : ∀ b, ((a :: as).filter (p · b)).map (f · b) =
        (if p a b then [f a b] else []) ++ (as.filter (p · b)).map (f · b) := by
      intro b
      cases held : p a b <;> simp [held]
    simp only [List.flatMap_cons, split, ← flatMap_ite (p a)]
    exact (ih.append_left _).trans (List.flatMap_append_perm bs _ _)

theorem filter_eq_find? {p : α → Bool} {l : List α} (single : l.countP p ≤ 1) :
    l.filter p = (l.find? p).toList := by
  rw [← List.head?_filter]
  rw [List.countP_eq_length_filter] at single
  cases found : l.filter p with
  | nil => rfl
  | cons first rest =>
    rw [found, List.length_cons] at single
    have none : rest = [] := List.eq_nil_of_length_eq_zero (by omega)
    rw [none]
    rfl

end Lists

section LeftJoin

namespace Join

variable {table : String} {fields : List String} {join : Join} {joined : Table} {row : Row}

/-- What a main row comes to in a left join: the rows that its inner join shows, marked true, or
where there are none the one that it shows by itself, marked false. -/
def extended (join : Join) (table : String) (fields : List String) (joined : Table) (row : Row) :
    List (Row × Bool) :=
  match (join.rows .inner table fields [row] joined).project fields with
  | [] => [(shownRow table fields (some row) none, false)]
  | found => found.map fun shown => (shown, true)

theorem project_innerRows_eq_flatMap (join : Join) (table : String) (fields : List String)
    (main joined : Table) :
    (join.rows .inner table fields main joined).project fields =
      main.flatMap fun row => (join.rows .inner table fields [row] joined).project fields := by
  simp [rows, pairs, innerPairs, Table.project, List.map_flatMap]

theorem project_innerRows_singleton (pointless : '.' ∉ table.toList)
    (qualified : ∀ field ∈ fields, '.' ∈ field.toList) :
    (join.rows .inner table fields [row] joined).project fields =
      (joined.filter (join.matchesPair row)).map fun other =>
        shownRow table fields (some row) (some other) := by
  rw [project_rows join .inner pointless qualified]
  simp [pairs, innerPairs]

/-- A main row beside its partners shows what its inner join does, or where that is nothing what it
shows by itself. -/
theorem map_partners_eq_extended (pointless : '.' ∉ table.toList)
    (qualified : ∀ field ∈ fields, '.' ∈ field.toList) :
    (join.partners joined row).map (shownRow table fields (some row)) =
      (join.extended table fields joined row).map Prod.fst := by
  rw [extended, project_innerRows_singleton pointless qualified, partners]
  cases joined.filter (join.matchesPair row) <;> simp

theorem filter_extended :
    ((join.extended table fields joined row).filter Prod.snd).map Prod.fst =
      (join.rows .inner table fields [row] joined).project fields := by
  unfold extended
  cases (join.rows .inner table fields [row] joined).project fields with
  | nil => rfl
  | cons first rest => simp [List.filter_map, Function.comp_def]

theorem length_partners (join : Join) (joined : Table) (row : Row) :
    (join.partners joined row).length = (joined.filter (join.matchesPair row)).length +
      if !joined.any (join.matchesPair row) then 1 else 0 := by
  simp only [not_any_iff, partners]
  cases joined.filter (join.matchesPair row) <;> simp

theorem length_leftPairs (join : Join) (main joined : Table) :
    (join.leftPairs main joined).length =
      (join.innerPairs main joined).length +
        main.countP fun row => !joined.any (join.matchesPair row) := by
  rw [leftPairs_eq, innerPairs]
  induction main with
  | nil => rfl
  | cons row rest ih =>
    simp only [List.flatMap_cons, List.length_append, List.length_map, ih, length_partners,
      List.countP_cons]
    omega

/-- Under qualified names a left join shows, one main row after another, what the inner join of that
row alone shows, or the row by itself where that is nothing. But for the rows that show a main row
by itself it is the inner join, and there is one of them for each main row that matches nothing. -/
theorem project_leftRows (join : Join) (pointless : '.' ∉ table.toList)
    (qualified : ∀ field ∈ fields, '.' ∈ field.toList) (main joined : Table) :
    (join.rows .left table fields main joined).project fields =
        (main.flatMap (join.extended table fields joined)).map Prod.fst ∧
      (join.rows .inner table fields main joined).project fields =
        ((main.flatMap (join.extended table fields joined)).filter Prod.snd).map Prod.fst ∧
      (join.rows .left table fields main joined).length =
        (join.rows .inner table fields main joined).length +
          main.countP fun row => !joined.any (join.matchesPair row) := by
  refine ⟨?_, ?_, ?_⟩
  · rw [project_rows join .left pointless qualified, pairs, leftPairs_eq, List.map_flatMap,
      List.map_flatMap]
    refine List.flatMap_congr fun row _ => ?_
    rw [← map_partners_eq_extended pointless qualified, List.map_map]
    rfl
  · rw [project_innerRows_eq_flatMap, List.filter_flatMap, List.map_flatMap]
    exact List.flatMap_congr fun row _ => filter_extended.symm
  · simp only [rows, pairs, List.length_map, length_leftPairs]

/-- The second student, of no name and no course, is shown by null alone. -/
theorem students_extended :
    ((Sample.enrolled "LEFT").rows .left "student" Sample.courseFields Sample.students
        Sample.enrollments).project Sample.courseFields = [
      Sample.courseRow (.text "math") (.text "Ann"), Sample.courseRow (.text "bio") (.text "Ann"),
      Sample.courseRow .null .null, Sample.courseRow (.text "art") (.text "Cid")] := by
  have pointless : '.' ∉ "student".toList := by decide
  rw [(project_leftRows (Sample.enrolled "LEFT") pointless (by decide) _ _).1]
  decide +kernel

end Join
end LeftJoin

section RightJoin

variable {table name : String} {fields : List String} {joined : Option Row}

theorem splitName_of_pointless (pointless : '.' ∉ name.toList) : splitName name = (none, name) := by
  rw [splitName]
  cases cut : splitFirst? '.' name.toList with
  | none => rfl
  | some parts =>
    obtain ⟨text, -⟩ := splitFirst?_eq_some cut
    exact absurd (text ▸ List.mem_append_right _ List.mem_cons_self) pointless

theorem Join.lookup_of_absent {row : Row} (absent : '.' ∈ name.toList → row.get? name = none) :
    lookup row name = row.get? (splitName name).2 := by
  rw [lookup]
  by_cases pointed : '.' ∈ name.toList
  · rw [absent pointed, Option.none_or]
  · rw [splitName_of_pointless pointed, Option.or_self]

theorem Row.get?_nullShaped (row : Row) (key : String) :
    row.nullShaped.get? key = (row.get? key).map fun _ => Value.null := by
  have each (cells : List (String × Value)) :
      (cells.map fun cell => (cell.1, Value.null)).lookup key =
        (cells.lookup key).map fun _ => Value.null := by
    induction cells with
    | nil => rfl
    | cons cell rest ih =>
      rw [List.map_cons, List.lookup_cons, List.lookup_cons, ih]
      cases key == cell.1 <;> rfl
  exact each row.cells

/-- What stands for a main row shows no more than no row does. -/
theorem shownRow_placeholder (main : Table) :
    shownRow table fields (some (Join.placeholder main)) joined =
      shownRow table fields none joined := by
  have null (name : String) : ((Join.placeholder main).get? name).getD .null = .null := by
    cases main with
    | nil => rfl
    | cons row rest =>
      change (row.nullShaped.get? name).getD .null = .null
      rw [Row.get?_nullShaped]
      cases row.get? name <;> rfl
  rw [shownRow, shownRow]
  congr 1
  refine List.map_congr_left fun field _ => ?_
  simp only [shownValue]
  split <;> simp [null]

namespace Join
open scoped List

variable {join : Join} {main joined : Table}

/-- No row has a field under the name, table and all, of its side of the condition. -/
structure Bare (join : Join) (main joined : Table) : Prop where
  left : '.' ∈ join.left.toList → ∀ row ∈ main, row.get? join.left = none
  right : '.' ∈ join.right.toList → ∀ other ∈ joined, other.get? join.right = none

/-- A joined row takes the first of the main rows that an inner join pairs with it. -/
theorem rightPairs_eq (bare : join.Bare main joined) :
    join.rightPairs main joined = joined.map fun other =>
      ((main.find? (join.matchesPair · other)).getD (placeholder main), some other) := by
  refine List.map_congr_left fun other memOther => ?_
  have right := lookup_of_absent fun pointed => bare.right pointed other memOther
  have same : ∀ row ∈ main, sameField (lookup row join.left) (lookup other join.right) =
      join.matchesPair row other := by
    intro row mem
    rw [lookup_of_absent fun pointed => bare.left pointed row mem, right, matchesPair]
  simp only [← List.head?_filter, List.filter_congr same]

theorem project_rightRows (bare : join.Bare main joined) (pointless : '.' ∉ table.toList)
    (qualified : ∀ field ∈ fields, '.' ∈ field.toList) :
    (join.rows .right table fields main joined).project fields = joined.map fun other =>
      shownRow table fields (main.find? (join.matchesPair · other)) (some other) := by
  rw [project_rows join .right pointless qualified, pairs, rightPairs_eq bare, List.map_map]
  refine List.map_congr_left fun other _ => ?_
  cases found : main.find? (join.matchesPair · other) with
  | none => simp [found, shownRow_placeholder]
  | some row => simp [found]

theorem project_innerRows_perm (join : Join) (pointless : '.' ∉ table.toList)
    (qualified : ∀ field ∈ fields, '.' ∈ field.toList) (main joined : Table) :
    ((join.rows .inner table fields main joined).project fields).Perm
      (joined.flatMap fun other => (main.filter (join.matchesPair · other)).map fun row =>
        shownRow table fields (some row) (some other)) := by
  rw [project_rows join .inner pointless qualified, pairs, innerPairs, List.map_flatMap]
  simp only [List.map_map]
  exact flatMap_filter_comm _ (fun row other => shownRow table fields (some row) (some other)) _ _

/-- A right join has one row for each joined row. Where none of them matches two main rows, it shows
under qualified names the rows of the inner join and each joined row that matches nothing by itself,
in some order. -/
theorem project_rightRows_perm (join : Join) (table : String) (fields : List String)
    (main joined : Table) :
    (join.rows .right table fields main joined).length = joined.length ∧
      ('.' ∉ table.toList → (∀ field ∈ fields, '.' ∈ field.toList) →
        join.Bare main joined → (∀ other ∈ joined, main.countP (join.matchesPair · other) ≤ 1) →
        ((join.rows .right table fields main joined).project fields).Perm
          ((join.rows .inner table fields main joined).project fields ++
            (joined.filter fun other => !main.any (join.matchesPair · other)).map fun other =>
              shownRow table fields none (some other))) := by
  refine ⟨by simp [rows, pairs, rightPairs], ?_⟩
  intro pointless qualified bare single
  let paired (other : Row) : Table := (main.filter (join.matchesPair · other)).map fun row =>
    shownRow table fields (some row) (some other)
  let alone (other : Row) : Table :=
    if !main.any (join.matchesPair · other) then [shownRow table fields none (some other)] else []
  have each : ∀ other ∈ joined,
      [shownRow table fields (main.find? (join.matchesPair · other)) (some other)] =
        paired other ++ alone other := by
    intro other mem
    simp only [paired, alone, not_any_iff, filter_eq_find? (single other mem)]
    cases main.find? (join.matchesPair · other) <;> rfl
  have inner := project_innerRows_perm join pointless qualified main joined
  rw [project_rightRows bare pointless qualified]
  calc joined.map _
    _ = joined.flatMap fun other => paired other ++ alone other := by
      rw [List.map_eq_flatMap]
      exact List.flatMap_congr each
    _ ~ joined.flatMap paired ++ joined.flatMap alone :=
      (List.flatMap_append_perm joined paired alone).symm
    _ ~ (join.rows .inner table fields main joined).project fields ++ joined.flatMap alone :=
      inner.symm.append_right _
    _ = _ := by rw [flatMap_ite]

/-- Without the first student two of the courses are nobody's. -/
theorem courses_without_students :
    (((Sample.enrolled "RIGHT").rows .right "student" Sample.courseFields Sample.students.tail
        Sample.enrollments).project Sample.courseFields).Perm [
      Sample.courseRow (.text "art") (.text "Cid"), Sample.courseRow (.text "math") .null,
      Sample.courseRow (.text "bio") .null] :=
  (project_rightRows_perm (Sample.enrolled "RIGHT") "student" Sample.courseFields
    Sample.students.tail Sample.enrollments).2 (by decide) (by decide) ⟨by decide, by decide⟩
    (by decide +kernel)

end Join
end RightJoin

section Turned

theorem Number.equals_comm (x y : Number) : x.equals y = y.equals x := by
  unfold Number.equals
  cases x.point? with
  | none => cases y.point? <;> rfl
  | some p =>
    cases y.point? with
    | none => rfl
    | some q => exact BEq.comm

theorem Value.equals_comm (a b : Value) : a.equals b = b.equals a := by
  cases a with
  | null => cases b <;> rfl
  | number x =>
    cases b with
    | number y => exact Number.equals_comm x y
    | _ => rfl
  | text s =>
    cases b with
    | text t => exact BEq.comm
    | _ => rfl

theorem sameField_comm (a b : Option Value) : sameField a b = sameField b a := by
  cases a with
  | none => cases b <;> rfl
  | some x =>
    cases b with
    | none => rfl
    | some y => exact Value.equals_comm x y

/-- The join with its condition read from the other side. -/
def Join.turned (join : Join) : Join := { join with left := join.right, right := join.left }

namespace Join

variable {join : Join} {a b : Row} {first second : String} {fields : List String}

theorem matchesPair_turned (join : Join) (b : Row) :
    join.turned.matchesPair b = (join.matchesPair · b) := by
  funext a
  exact sameField_comm _ _

/-- A field of either table is the same read from a pair or from the pair turned round. -/
theorem pairField_turned (pointless : '.' ∉ first.toList) (pointless' : '.' ∉ second.toList)
    (distinct : first ≠ second) {field name : String}
    (own : field = first ++ "." ++ name ∨ field = second ++ "." ++ name) :
    pairField second false b (some a) field = pairField first false a (some b) field := by
  rcases own with rfl | rfl
  · simp [pairField, splitName_append pointless, distinct]
  · simp [pairField, splitName_append pointless', distinct.symm]

theorem pairRow_turned (pointless : '.' ∉ first.toList) (pointless' : '.' ∉ second.toList)
    (distinct : first ≠ second)
    (own : ∀ field ∈ fields, ∃ name, field = first ++ "." ++ name ∨ field = second ++ "." ++ name) :
    pairRow second fields false b (some a) = pairRow first fields false a (some b) := by
  rw [pairRow, pairRow]
  congr 2
  refine List.filterMap_congr fun field mem => ?_
  obtain ⟨name, named⟩ := own field mem
  rw [pairField_turned pointless pointless' distinct named]

/-- An inner join may be taken from either side: with the tables and the two sides of the condition
turned round it has the same rows, in some order. -/
theorem innerRows_turned_perm (join : Join) (pointless : '.' ∉ first.toList)
    (pointless' : '.' ∉ second.toList) (distinct : first ≠ second)
    (own : ∀ field ∈ fields, ∃ name, field = first ++ "." ++ name ∨ field = second ++ "." ++ name)
    (as bs : Table) :
    (join.rows .inner first fields as bs).Perm (join.turned.rows .inner second fields bs as) := by
  simp only [rows, pairs, innerPairs, List.map_flatMap, List.map_map, JoinKind.carriesMain,
    Function.comp_def, matchesPair_turned, pairRow_turned pointless pointless' distinct own]
  exact flatMap_filter_comm join.matchesPair
    (fun a b => pairRow first fields false a (some b)) as bs

/-- From the side of the courses art comes first, from the side of the students math. -/
theorem students_turned_perm :
    (Sample.enrolled "INNER").rows .inner "student" Sample.courseFields Sample.students
        Sample.enrollments ≠
      (Sample.enrolled "INNER").turned.rows .inner "enrollment" Sample.courseFields
        Sample.enrollments Sample.students ∧
    ((Sample.enrolled "INNER").rows .inner "student" Sample.courseFields Sample.students
        Sample.enrollments).Perm
      ((Sample.enrolled "INNER").turned.rows .inner "enrollment" Sample.courseFields
        Sample.enrollments Sample.students) := by
  refine ⟨by decide +kernel, ?_⟩
  have own : ∀ field ∈ Sample.courseFields,
      ∃ name, field = "student" ++ "." ++ name ∨ field = "enrollment" ++ "." ++ name := by
    intro field mem
    rcases List.mem_pair.mp mem with rfl | rfl
    · exact ⟨"course", .inr rfl⟩
    · exact ⟨"name", .inl rfl⟩
  exact innerRows_turned_perm (Sample.enrolled "INNER") (by decide) (by decide) (by decide) own _ _

end Join
end Turned
end TableQuery
