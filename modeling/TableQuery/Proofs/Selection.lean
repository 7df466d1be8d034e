import Mathlib
import TableQuery.Condition

/-! Selecting rows by conditions is a filter, unless some row cannot be told of. The first such row
ends the selection, at the first condition that it neither fails nor can be told to meet. -/
namespace TableQuery

namespace Condition

variable {condition : Condition} {conditions first second : List Condition} {row : Row} {met : Bool}

/-- The place of the condition that a row cannot be told of, with the reason. -/
def failure? : List Condition → Row → Option (Nat × ExecutionError)
  | [], _ => none
  | condition :: rest, row =>
    match condition.holdsOf row with
    | .ok true => (failure? rest row).map fun (place, error) => (place + 1, error)
    | .ok false => none
    | .error error => some (0, error)

/-- Whether a row can be told to meet a condition. -/
def isMetBy (condition : Condition) (row : Row) : Bool :=
  match condition.holdsOf row with
  | .ok met => met
  | .error _ => false

def areMetBy (conditions : List Condition) (row : Row) : Bool := conditions.all (·.isMetBy row)

theorem isMetBy_of_eq (told : condition.holdsOf row = .ok met) : condition.isMetBy row = met := by
  rw [isMetBy, told]

theorem areMetBy_cons :
    areMetBy (condition :: conditions) row = (condition.isMetBy row && areMetBy conditions row) :=
  List.all_cons

theorem areMetBy_append :
    areMetBy (first ++ second) row = (areMetBy first row && areMetBy second row) :=
  List.all_append

theorem allHoldOf_eq (conditions : List Condition) (row : Row) :
    allHoldOf conditions row =
      match failure? conditions row with
      | some (_, error) => .error error
      | none => .ok (areMetBy conditions row) := by
  induction conditions with
  | nil => rfl
  | cons condition rest ih =>
    rw [allHoldOf, failure?, areMetBy_cons]
    cases told : condition.holdsOf row with
    | error error => rfl
    | ok met =>
      rw [isMetBy_of_eq told]
      cases met with
      | false => rfl
      | true =>
        rw [Bool.true_and]
        change allHoldOf rest row = _
        rw [ih]
        cases failure? rest row <;> rfl

theorem allHoldOf_cons_of_false (failed : condition.holdsOf row = .ok false) :
    allHoldOf (condition :: conditions) row = .ok false := by
  rw [allHoldOf, failed]
  rfl

/-- Whether conditions are met does not hang on the order in which they stand. -/
theorem areMetBy_perm (reordered : first.Perm second) : areMetBy first = areMetBy second := by
  funext row
  exact reordered.all_eq

theorem failure?_append_eq_none_iff :
    failure? (first ++ second) row = none ↔
      failure? first row = none ∧ (areMetBy first row → failure? second row = none) := by
  induction first with
  | nil => simp [failure?, areMetBy]
  | cons condition rest ih =>
    rw [List.cons_append, failure?, failure?, areMetBy_cons]
    cases told : condition.holdsOf row with
    | error error => simp
    | ok met =>
      rw [isMetBy_of_eq told]
      cases met with
      | false => simp
      | true => simpa using ih

end Condition

namespace Sample

/-- Scores of three players: the second is null and the third is not there. -/
def scores : Table := [
  .ofCells [("player", .text "1"), ("score", .text "7")],
  .ofCells [("player", .text "2"), ("score", .null)],
  .ofCells [("player", .text "3")]]

def early : Condition := ⟨"player", "<", "3"⟩

def high : Condition := ⟨"score", ">", "'5'"⟩

end Sample

namespace Table

variable {conditions first second : List Condition} {table kept : Table}

def failure? (conditions : List Condition) (table : Table) : Option (Nat × ExecutionError) :=
  table.findSome? (Condition.failure? conditions)

theorem select_eq (conditions : List Condition) (table : Table) :
    table.select conditions =
      match table.failure? conditions with
      | some (_, error) => .error error
      | none => .ok (table.filter (Condition.areMetBy conditions)) := by
  induction table with
  | nil => rfl
  | cons row rest ih =>
    unfold failure? at ih ⊢
    rw [select, Condition.allHoldOf_eq, ih, List.findSome?_cons, List.filter_cons]
    cases Condition.failure? conditions row with
    | some failure => rfl
    | none => cases List.findSome? (Condition.failure? conditions) rest <;> rfl

theorem select_nil (table : Table) : table.select [] = .ok table := by
  induction table with
  | nil => rfl
  | cons row rest ih =>
    rw [select, ih]
    rfl

/-- What rows that are told to fail are made of may be left out before they are made. -/
theorem select_map_filter {α : Type} {row : α → Row} {p : α → Bool} {items : List α}
    (failed : ∀ item ∈ items, ¬ p item → Condition.allHoldOf conditions (row item) = .ok false) :
    Table.select conditions ((items.filter p).map row) =
      Table.select conditions (items.map row) := by
  induction items with
  | nil => rfl
  | cons item rest ih =>
    have others := ih fun item mem => failed item (List.mem_cons_of_mem _ mem)
    rw [List.map_cons, select, ← others, List.filter_cons]
    by_cases kept : p item
    · rw [if_pos kept, List.map_cons, select]
    · rw [if_neg kept, failed item List.mem_cons_self kept]
      cases Table.select conditions ((rest.filter p).map row) <;> rfl

theorem select_eq_ok_iff :
    table.select conditions = .ok kept ↔
      (∀ row ∈ table, Condition.failure? conditions row = none) ∧
        kept = table.filter (Condition.areMetBy conditions) := by
  rw [select_eq, ← List.findSome?_eq_none_iff, ← failure?]
  cases table.failure? conditions <;> simp [eq_comm]

/-- Selecting by conditions and by more conditions is selecting by the one and then by the other,
as far as both come to an end. -/
theorem select_append_eq_ok_iff :
    table.select (first ++ second) = .ok kept ↔
      ∃ middle, table.select first = .ok middle ∧ Table.select second middle = .ok kept := by
  simp only [select_eq_ok_iff, Condition.failure?_append_eq_none_iff]
  constructor
  · rintro ⟨told, rfl⟩
    refine ⟨_, ⟨fun row mem => (told row mem).1, rfl⟩, ?_, ?_⟩
    · intro row mem
      obtain ⟨mem, met⟩ := List.mem_filter.mp mem
      exact (told row mem).2 met
    · rw [List.filter_filter]
      exact List.filter_congr fun row _ => Condition.areMetBy_append.trans (Bool.and_comm _ _)
  · rintro ⟨middle, ⟨told, rfl⟩, told', rfl⟩
    refine ⟨fun row mem => ⟨told row mem, fun met => ?_⟩, ?_⟩
    · exact told' row (List.mem_filter.mpr ⟨mem, met⟩)
    · rw [List.filter_filter]
      exact List.filter_congr fun row _ => (Bool.and_comm _ _).trans Condition.areMetBy_append.symm

/-- Conditions in another order may meet a row that cannot be told of, but they select no other
rows. -/
theorem select_perm (reordered : first.Perm second) {kept' : Table}
    (done : table.select first = .ok kept) (done' : table.select second = .ok kept') :
    kept = kept' := by
  obtain ⟨-, rfl⟩ := select_eq_ok_iff.mp done
  obtain ⟨-, rfl⟩ := select_eq_ok_iff.mp done'
  rw [Condition.areMetBy_perm reordered]

/-- Selecting by two lists of conditions at once comes to an end just when selecting by the first
and then by the second does, and with the same rows. Where the same conditions come to an end in two
orders, the rows are the same too. -/
theorem select_in_parts (table : Table) (first second : List Condition) :
    (∀ kept, table.select (first ++ second) = .ok kept ↔
        ∃ middle, table.select first = .ok middle ∧ Table.select second middle = .ok kept) ∧
      ∀ conditions reordered kept kept', conditions.Perm reordered →
        table.select conditions = .ok kept → table.select reordered = .ok kept' → kept = kept' := by
  constructor
  · intro kept
    exact select_append_eq_ok_iff
  · intro conditions reordered kept kept' perm done done'
    exact select_perm perm done done'

/-- Both orders come to an end for the two players that have a score. -/
theorem select_scores_reordered :
    [Sample.early, Sample.high].Perm [Sample.high, Sample.early] ∧
      Table.select [Sample.early, Sample.high] (Sample.scores.take 2) =
        .ok (Sample.scores.take 1) ∧
      Table.select [Sample.high, Sample.early] (Sample.scores.take 2) =
        .ok (Sample.scores.take 1) := by
  have done : Table.select [Sample.early, Sample.high] (Sample.scores.take 2) =
      .ok (Sample.scores.take 1) := by decide +kernel
  obtain ⟨kept, done'⟩ : ∃ kept,
      Table.select [Sample.high, Sample.early] (Sample.scores.take 2) = .ok kept :=
    ⟨Sample.scores.take 1, by decide +kernel⟩
  have same := (select_in_parts _ [] []).2 _ _ _ _ (.swap Sample.high Sample.early []) done done'
  exact ⟨.swap Sample.high Sample.early [], done, same ▸ done'⟩

/-- The third player ends the selection in one of the orders only. -/
example : Table.select [Sample.early, Sample.high] Sample.scores = .ok (Sample.scores.take 1) ∧
    Table.select [Sample.high, Sample.early] Sample.scores = .error (.missingField "score") := by
  decide +kernel

end Table
end TableQuery
