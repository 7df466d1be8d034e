import TableQuery.Proofs.Pairing

/-! The main row in the rows of an outer join. It is carried under the name of its table, put
together with a point, while the fields asked for are taken apart at their first point. The two
agree as long as the table's name holds no point itself. -/
namespace TableQuery

section Dotted

variable {table before after key : String} {carryMain : Bool} {main : Row} {joined : Option Row}

theorem of_splitName {name : String} (split : splitName name = (some before, after)) :
    name = before ++ "." ++ after ∧ '.' ∉ before.toList := by
  unfold splitName at split
  cases cut : splitFirst? '.' name.toList with
  | none =>
    rw [cut] at split
    cases split
  | some parts =>
    rw [cut] at split
    cases split
    obtain ⟨text, fresh⟩ := splitFirst?_eq_some cut
    refine ⟨String.toList_inj.mp ?_, by rwa [String.toList_ofList]⟩
    simp [text]

/-- A field of a table with a point in its name is read from the joined row, under what follows the
first point. -/
theorem pairField_dotted (split : splitName table = (some before, after)) :
    pairField table carryMain main joined (table ++ "." ++ key) =
      joined.elim (some .null) (·.get? (after ++ "." ++ key)) := by
  obtain ⟨parts, pointless⟩ := of_splitName split
  have foreign : before ≠ table := by
    rintro rfl
    exact pointless (by rw [parts]; simp)
  have inner : splitName (table ++ "." ++ key) = (some before, after ++ "." ++ key) := by
    have regrouped : table ++ "." ++ key = before ++ "." ++ (after ++ "." ++ key) := by
      rw [parts]
      simp only [String.append_assoc]
    rw [regrouped, splitName_append pointless]
  cases joined <;> simp [pairField, inner, foreign]

end Dotted

namespace Join

/-- Every row of an outer join holds the fields of its main row under the name of the table, unless
that name has a point and the field is asked for by it. Then what the joined row has under the rest
of the name is there instead, or null where no row is joined. -/
theorem outerRows_hold_main (join : Join) {kind : JoinKind} (outer : kind.carriesMain)
    (table : String) (fields : List String) (main joined : Table) :
    List.Forall₂ (fun pair row =>
        (∀ key, ('.' ∈ table.toList → table ++ "." ++ key ∉ fields) →
          row.get? (table ++ "." ++ key) = pair.1.get? key) ∧
        ∀ before after key, splitName table = (some before, after) →
          table ++ "." ++ key ∈ fields → row.get? (table ++ "." ++ key) =
            (pair.2.elim (some .null) (·.get? (after ++ "." ++ key))).or (pair.1.get? key))
      (join.pairs kind main joined) (join.rows kind table fields main joined) := by
  rw [rows, List.forall₂_map_right_iff, List.forall₂_same, outer]
  rintro ⟨row, other⟩ -
  constructor
  · intro key unasked
    by_cases pointed : '.' ∈ table.toList
    · rw [get?_pairRow_carried, if_neg (unasked pointed), Option.none_or]
    · exact get?_pairRow_main pointed
  · intro before after key split asked
    rw [get?_pairRow_carried, if_pos asked, pairField_dotted split]

/-- The names of the students of a school are carried, whether or not there is a course. The numbers
are asked for, so they are looked for among the fields of the courses first. -/
theorem schoolStudents_named :
    List.Forall₂ (fun pair row =>
        row.get? "school.student.name" = pair.1.get? "name" ∧
        row.get? "school.student.id" =
          (pair.2.elim (some .null) (·.get? "student.id")).or (pair.1.get? "id"))
      ((Sample.enrolled "LEFT").pairs .left Sample.students Sample.enrollments)
      ((Sample.enrolled "LEFT").rows .left "school.student" ["school.student.id"] Sample.students
        Sample.enrollments) := by
  have split : splitName "school.student" = (some "school", "student") := by decide
  refine (outerRows_hold_main (Sample.enrolled "LEFT") rfl "school.student" ["school.student.id"]
    Sample.students Sample.enrollments).imp fun pair row held => ?_
  exact ⟨held.1 "name" fun _ => by decide, held.2 _ _ "id" split (by decide)⟩

/-- The second student takes no course, and her number is lost when it is asked for. -/
theorem schoolStudents_lost :
    ¬ List.Forall₂ (fun pair row =>
        ∀ key ∈ pair.1.keys, row.get? ("school.student" ++ "." ++ key) = pair.1.get? key)
      ((Sample.enrolled "LEFT").pairs .left Sample.students Sample.enrollments)
      ((Sample.enrolled "LEFT").rows .left "school.student" ["school.student.id"] Sample.students
        Sample.enrollments) := by
  decide +kernel

end Join
end TableQuery
