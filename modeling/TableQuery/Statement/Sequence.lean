import TableQuery.Statement.Reader

/-! Reading several items one after another. What stands between two items leaves less to read, so
the reading ends. -/
namespace TableQuery.Reader

variable {α : Type}

/-- A step that leaves less to read whenever it answers yes. -/
structure Advances (more : Reader Bool) : Prop where
  remaining_lt : ∀ {c after : Cursor}, more.run c = .done true after → after.remaining < c.remaining

/-- Items for as long as more follow. -/
def runList (item : Reader α) (more : Reader Bool) (advances : more.Advances) (c : Cursor) :
    Outcome (List α) :=
  match read : item.run c with
  | .failed error c => .failed error c
  | .done value afterItem =>
    match asked : more.run afterItem with
    | .failed error c => .failed error c
    | .done false c => .done [value] c
    | .done true afterMore =>
      have : afterMore.remaining < c.remaining :=
        Nat.lt_of_lt_of_le (advances.remaining_lt asked) (ahead_of_done read).remaining_le
      match runList item more advances afterMore with
      | .failed error c => .failed error c
      | .done values c => .done (value :: values) c
termination_by c.remaining

theorem runList_eq (item : Reader α) (more : Reader Bool) (advances : more.Advances) (c : Cursor) :
    runList item more advances c =
      match item.run c with
      | .failed error c => .failed error c
      | .done value c =>
        match more.run c with
        | .failed error c => .failed error c
        | .done false c => .done [value] c
        | .done true c =>
          match runList item more advances c with
          | .failed error c => .failed error c
          | .done values c => .done (value :: values) c := by
  conv => lhs; unfold runList
  split
  · rename_i read
    simp [read]
  · rename_i read
    split <;> rename_i asked <;> simp [read, asked]

theorem ahead_runList (item : Reader α) (more : Reader Bool) (advances : more.Advances)
    (c : Cursor) : c.Ahead (runList item more advances c).cursor := by
  fun_induction runList item more advances c with
  | case1 c error stop read => exact ahead_of_failed read
  | case2 c value mid read error stop asked =>
    exact (ahead_of_done read).trans (ahead_of_failed asked)
  | case3 c value mid read stop asked => exact (ahead_of_done read).trans (ahead_of_done asked)
  | case4 c value mid read again asked _ error stop rest ih =>
    rw [rest] at ih
    exact ((ahead_of_done read).trans (ahead_of_done asked)).trans ih
  | case5 c value mid read again asked _ values stop rest ih =>
    rw [rest] at ih
    exact ((ahead_of_done read).trans (ahead_of_done asked)).trans ih

def list (item : Reader α) (more : Reader Bool) (advances : more.Advances) : Reader (List α) :=
  ⟨runList item more advances, ahead_runList item more advances⟩

/-- After an item: a comma, or the next clause. -/
def commaOrNext (problem : SyntaxProblem) : Reader Bool := do
  skipBlanks
  if ← acceptChar ',' then return true
  endClause problem
  return false

/-- After a condition: the next clause, or a word that joins another one to it. -/
def nextOrAnd : Reader Bool := do
  if ← nextClause then return false
  expect .and .expectedAnd
  return true

theorem commaOrNext_advances (problem : SyntaxProblem) : (commaOrNext problem).Advances := by
  refine ⟨fun {c after} asked => ?_⟩
  have skipped : (c.skipBlanks).remaining ≤ c.remaining := (c.ahead_forward _).remaining_le
  simp only [commaOrNext, run_bind, skipBlanks, run_acceptChar] at asked
  split at asked
  · rename_i accepted mid eq
    split at eq
    · rename_i comma
      simp only [Outcome.done.injEq] at eq
      obtain ⟨rfl, rfl⟩ := eq
      simp only [if_true, run_pure, Outcome.done.injEq, true_and] at asked
      subst asked
      have : 0 < c.skipBlanks.remaining := by
        rw [← Cursor.length_rest]
        cases read : c.skipBlanks.rest with
        | nil => simp [read] at comma
        | cons => simp
      rw [Cursor.remaining_forward]
      omega
    · simp only [Outcome.done.injEq] at eq
      obtain ⟨rfl, rfl⟩ := eq
      simp only [Bool.false_eq_true, if_false, run_bind] at asked
      split at asked <;> simp [run_pure] at asked
  · simp at asked

theorem nextOrAnd_advances : nextOrAnd.Advances := by
  refine ⟨fun {c after} asked => ?_⟩
  have skipped : c.nextClause.2.remaining ≤ c.remaining := c.ahead_nextClause.remaining_le
  simp only [nextOrAnd, run_bind, nextClause] at asked
  split at asked
  · simp [run_pure] at asked
  · simp only [run_bind, expect, run_accept] at asked
    split at asked
    · rename_i eq
      split at eq
      · rename_i matched
        split at matched
        · rename_i front
          simp only [Outcome.done.injEq] at matched
          obtain ⟨rfl, rfl⟩ := matched
          obtain ⟨-, rfl⟩ := (Outcome.done.injEq ..).mp eq
          simp only [run_pure, Outcome.done.injEq, true_and] at asked
          subst asked
          have long := Keyword.length_le_of_isFront front
          rw [Cursor.length_rest] at long
          have : 0 < Keyword.and.word.length := by decide
          rw [Cursor.remaining_forward]
          omega
        · simp only [Outcome.done.injEq] at matched
          obtain ⟨rfl, rfl⟩ := matched
          simp [fail] at eq
      · simp at eq
    · simp at asked

end TableQuery.Reader
