/-! Cutting text at the first place where a mark stands. -/
namespace TableQuery

def splitFirst? (mark : Char) : List Char → Option (List Char × List Char)
  | [] => none
  | c :: rest =>
    if c = mark then some ([], rest)
    else (splitFirst? mark rest).map fun (before, after) => (c :: before, after)

theorem splitFirst?_eq_some {mark : Char} {text before after : List Char}
    (cut : splitFirst? mark text = some (before, after)) :
    text = before ++ mark :: after ∧ mark ∉ before := by
  induction text generalizing before with
  | nil => simp [splitFirst?] at cut
  | cons c rest ih =>
    unfold splitFirst? at cut
    split at cut
    · simp_all
    · rename_i other
      obtain ⟨⟨front, back⟩, found, same⟩ := Option.map_eq_some_iff.1 cut
      simp only [Prod.mk.injEq] at same
      obtain ⟨rfl, rfl⟩ := same
      obtain ⟨rfl, fresh⟩ := ih found
      exact ⟨rfl, by simp [fresh, Ne.symm other]⟩

theorem splitFirst?_append {mark : Char} {before after : List Char} (fresh : mark ∉ before) :
    splitFirst? mark (before ++ mark :: after) = some (before, after) := by
  induction before with
  | nil => simp [splitFirst?]
  | cons c rest ih =>
    simp only [List.mem_cons, not_or] at fresh
    simp [splitFirst?, ih fresh.2, Ne.symm fresh.1]

def splitAll (mark : Char) : List Char → List (List Char)
  | [] => [[]]
  | c :: rest =>
    match splitAll mark rest with
    | [] => [[c]]
    | part :: parts => if c = mark then [] :: part :: parts else (c :: part) :: parts

/-- A name of the form `table.field` in its two parts; a bare name has no table. -/
def splitName (name : String) : Option String × String :=
  match splitFirst? '.' name.toList with
  | some (table, field) => (some (String.ofList table), String.ofList field)
  | none => (none, name)

def upperAscii (s : String) : String := String.ofList (s.toList.map Char.toUpper)

end TableQuery
