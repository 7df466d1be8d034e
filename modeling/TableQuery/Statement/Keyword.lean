import TableQuery.Statement.Cursor
import TableQuery.Text.Letter
import TableQuery.Text.Upper

/-! Keywords: words matched at a place without regard to ASCII case, with a rule for what may
follow them. -/
namespace TableQuery

/-- A word in upper case and what may follow it: a blank, the end, or certain marks. With no rule
for a blank or a mark any character may follow. -/
structure Keyword where
  word : List Char
  blankAfter : Bool := false
  endAfter : Bool := false
  marksAfter : List Char := []

namespace Keyword

def ofWord (word : String) : Keyword := { word := upper word.toList }

def after? : List Char → List Char → Option (List Char)
  | [], text => some text
  | _ :: _, [] => none
  | expected :: word, c :: text => if c.toUpper = expected then after? word text else none

def isFront (keyword : Keyword) (text : List Char) : Bool :=
  match after? keyword.word text with
  | none => false
  | some [] => keyword.endAfter
  | some (next :: _) =>
    (!keyword.blankAfter && keyword.marksAfter.isEmpty) || (keyword.blankAfter && isBlank next) ||
      keyword.marksAfter.contains next

def select : Keyword := { word := "SELECT".toList, blankAfter := true }
def fromTable : Keyword := { word := "FROM".toList, blankAfter := true }
def join : Keyword := { word := "JOIN".toList, blankAfter := true }
def on : Keyword := { word := "ON".toList, blankAfter := true }
def whereRows : Keyword := { word := "WHERE".toList, blankAfter := true }
def and : Keyword := { word := "AND".toList, blankAfter := true }
def groupBy : Keyword := { word := "GROUP BY".toList, blankAfter := true }
def orderBy : Keyword := { word := "ORDER BY".toList, blankAfter := true }
def limit : Keyword := { word := "LIMIT".toList, blankAfter := true }

def ascending : Keyword :=
  { word := "ASC".toList, blankAfter := true, endAfter := true, marksAfter := [',', ';'] }

def descending : Keyword :=
  { word := "DESC".toList, blankAfter := true, endAfter := true, marksAfter := [',', ';'] }

theorem length_of_after? {word text rest : List Char} (found : after? word text = some rest) :
    text.length = word.length + rest.length := by
  induction word generalizing text with
  | nil => simp_all [after?]
  | cons expected word ih =>
    cases text with
    | nil => simp [after?] at found
    | cons c text =>
      unfold after? at found
      split at found
      · have := ih found
        simp only [List.length_cons]
        omega
      · simp at found

theorem length_le_of_isFront {keyword : Keyword} {text : List Char}
    (front : keyword.isFront text) : keyword.word.length ≤ text.length := by
  unfold isFront at front
  split at front
  · simp at front
  all_goals
    rename_i found
    have := length_of_after? found
    omega

end Keyword

/-- The keyword that begins a join: the kind it names and its length. A bare `JOIN` is an inner
one; otherwise a word and blanks stand before it. -/
def joinKeyword? (text : List Char) : Option (String × Nat) :=
  if Keyword.join.isFront text then some ("INNER", Keyword.join.word.length)
  else
    let kind := text.takeWhile isWordChar
    let gap := ((text.drop kind.length).takeWhile isBlank).length
    if !kind.isEmpty && Keyword.join.isFront (text.drop (kind.length + gap)) then
      some (String.ofList kind, kind.length + gap + Keyword.join.word.length)
    else none

/-- The clause that begins at the front of a text and may follow a clause. -/
def Phase.following? (phase : Phase) (text : List Char) : Option Phase :=
  if phase < .limit ∧ Keyword.limit.isFront text then some .limit
  else if phase < .ordering ∧ Keyword.orderBy.isFront text then some .ordering
  else if phase < .grouping ∧ Keyword.groupBy.isFront text then some .grouping
  else if phase < .conditions ∧ Keyword.whereRows.isFront text then some .conditions
  else if phase = .table ∧ (joinKeyword? text).isSome then some .join
  else if phase < .table ∧ Keyword.fromTable.isFront text then some .table
  else none

namespace Cursor

/-- Skips blanks and moves to the clause that begins there, or to the end of the statement, which
may be marked by a semicolon. False, with the blanks skipped, if neither is there. -/
def nextClause (c : Cursor) : Bool × Cursor :=
  let here := c.skipBlanks
  match here.rest with
  | [] => (true, { here with phase := .done })
  | ';' :: after =>
    if after.all isBlank then (true, { here.forward (after.length + 1) with phase := .done })
    else (false, here)
  | text =>
    match here.phase.following? text with
    | some phase => (true, { here with phase })
    | none => (false, here)

theorem ahead_nextClause (c : Cursor) : c.Ahead c.nextClause.2 := by
  have skip := c.ahead_forward (c.rest.takeWhile isBlank).length
  unfold nextClause skipBlanks
  dsimp only
  split
  · exact skip.inPhase _
  · split
    · exact (skip.trans (ahead_forward _ _)).inPhase _
    · exact skip
  · split
    · exact skip.inPhase _
    · exact skip

end Cursor
end TableQuery
