import TableQuery.Statement.Error
import TableQuery.Statement.Keyword

/-! Reading steps. A step ends with a value or an error at some place of the same text, and never
before the place where it began. -/
namespace TableQuery

inductive Outcome (α : Type) where
  | done (value : α) (cursor : Cursor)
  | failed (error : SyntaxError) (cursor : Cursor)

def Outcome.cursor {α : Type} : Outcome α → Cursor
  | done _ cursor => cursor
  | failed _ cursor => cursor

/-- A reading step, which never moves back. -/
structure Reader (α : Type) where
  run : Cursor → Outcome α
  ahead : ∀ c : Cursor, c.Ahead (run c).cursor

namespace Reader

variable {α β : Type}

protected def pure (value : α) : Reader α := ⟨fun c => .done value c, Cursor.Ahead.refl⟩

protected def bind (first : Reader α) (next : α → Reader β) : Reader β where
  run c :=
    match first.run c with
    | .done value c => (next value).run c
    | .failed error c => .failed error c
  ahead c := by
    have begun := first.ahead c
    split
    · rename_i value mid eq
      rw [eq] at begun
      exact begun.trans ((next value).ahead mid)
    · rename_i eq
      rw [eq] at begun
      exact begun

instance : Monad Reader where
  pure := Reader.pure
  bind := Reader.bind

theorem run_pure (value : α) (c : Cursor) : (pure value : Reader α).run c = .done value c := rfl

theorem run_bind (first : Reader α) (next : α → Reader β) (c : Cursor) :
    (first >>= next).run c =
      match first.run c with
      | .done value c => (next value).run c
      | .failed error c => .failed error c := rfl

theorem ahead_of_done {reader : Reader α} {value : α} {c after : Cursor}
    (ran : reader.run c = .done value after) : c.Ahead after := by
  have ahead := reader.ahead c
  rwa [ran] at ahead

theorem ahead_of_failed {reader : Reader α} {error : SyntaxError} {c after : Cursor}
    (ran : reader.run c = .failed error after) : c.Ahead after := by
  have ahead := reader.ahead c
  rwa [ran] at ahead

def read (reader : Reader α) (s : String) : Except SyntaxError α :=
  match reader.run (Cursor.ofString s) with
  | .done value _ => .ok value
  | .failed error _ => .error error

def position : Reader Nat := ⟨fun c => .done c.position c, Cursor.Ahead.refl⟩

def phase : Reader Phase := ⟨fun c => .done c.phase c, Cursor.Ahead.refl⟩

def enter (phase : Phase) : Reader Unit := ⟨fun c => .done () { c with phase }, Cursor.Ahead.refl⟩

def failFrom (problem : SyntaxProblem) (start : Nat) : Reader α :=
  ⟨fun c => .failed (.between problem start c) c, Cursor.Ahead.refl⟩

def fail (problem : SyntaxProblem) : Reader α :=
  ⟨fun c => .failed (.between problem c.position c) c, Cursor.Ahead.refl⟩

def skipBlanks : Reader Unit := ⟨fun c => .done () c.skipBlanks, fun c => c.ahead_forward _⟩

def readWhile (kept : Char → Bool) : Reader String where
  run c :=
    let run := c.rest.takeWhile kept
    .done (String.ofList run) (c.forward run.length)
  ahead c := c.ahead_forward _

def acceptChar (ch : Char) : Reader Bool where
  run c := if c.rest.head? = some ch then .done true (c.forward 1) else .done false c
  ahead c := by
    split
    · exact c.ahead_forward 1
    · exact .refl c

/-- Whether a keyword stands here; if so it is read. -/
def accept (keyword : Keyword) : Reader Bool where
  run c :=
    if keyword.isFront c.rest then .done true (c.forward keyword.word.length) else .done false c
  ahead c := by
    split
    · exact c.ahead_forward _
    · exact .refl c

theorem run_acceptChar (ch : Char) (c : Cursor) :
    (acceptChar ch).run c =
      if c.rest.head? = some ch then .done true (c.forward 1) else .done false c := rfl

theorem run_accept (keyword : Keyword) (c : Cursor) :
    (accept keyword).run c =
      if keyword.isFront c.rest then .done true (c.forward keyword.word.length)
      else .done false c := rfl

def expect (keyword : Keyword) (problem : SyntaxProblem) : Reader Unit := do
  unless ← accept keyword do fail problem

/-- Whether another clause, or the end, comes next; if so it is entered. -/
def nextClause : Reader Bool :=
  ⟨fun c => .done c.nextClause.1 c.nextClause.2, fun c => c.ahead_nextClause⟩

def endClause (problem : SyntaxProblem) : Reader Unit := do
  unless ← nextClause do fail problem

end Reader
end TableQuery
