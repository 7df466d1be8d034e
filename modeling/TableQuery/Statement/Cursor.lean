import TableQuery.Text.Blank

/-! A place in the text of a statement, and the clause that is being read there. -/
namespace TableQuery

/-- The clauses of a statement in the order in which they stand, and its end. -/
inductive Phase where
  | fields
  | table
  | join
  | conditions
  | grouping
  | ordering
  | limit
  | done
deriving DecidableEq, Repr

namespace Phase

def rank : Phase → Nat
  | fields => 0
  | table => 1
  | join => 2
  | conditions => 3
  | grouping => 4
  | ordering => 5
  | limit => 6
  | done => 7

instance : LT Phase := ⟨fun a b => a.rank < b.rank⟩

instance (a b : Phase) : Decidable (a < b) := inferInstanceAs (Decidable (a.rank < b.rank))

def clauses : List Phase := [fields, table, join, conditions, grouping, ordering, limit]

end Phase

/-- A place in a text. It may lie past the end, where nothing is left to read. -/
structure Cursor where
  text : List Char
  position : Nat := 0
  phase : Phase := .fields

namespace Cursor

def ofString (s : String) : Cursor := { text := s.toList }

def rest (c : Cursor) : List Char := c.text.drop c.position

def remaining (c : Cursor) : Nat := c.text.length - c.position

def atEnd (c : Cursor) : Bool := c.rest.isEmpty

def charAt? (c : Cursor) (position : Nat) : Option Char := c.text[position]?

def slice (c : Cursor) (start stop : Nat) : String := String.ofList ((c.text.take stop).drop start)

def forward (c : Cursor) (count : Nat) : Cursor := { c with position := c.position + count }

def next (c : Cursor) : Cursor := if c.atEnd then c else c.forward 1

def jump (c : Cursor) (count : Nat) : Cursor :=
  { c with position := min (c.position + count) c.text.length }

def skipBlanks (c : Cursor) : Cursor := c.forward (c.rest.takeWhile isBlank).length

/-- Whether a place comes from another by reading on in the same text. -/
def Ahead (a b : Cursor) : Prop := b.text = a.text ∧ a.position ≤ b.position

theorem Ahead.refl (c : Cursor) : c.Ahead c := ⟨rfl, Nat.le_refl _⟩

theorem Ahead.trans {a b c : Cursor} (first : a.Ahead b) (second : b.Ahead c) : a.Ahead c :=
  ⟨second.1.trans first.1, Nat.le_trans first.2 second.2⟩

theorem Ahead.inPhase {a b : Cursor} (ahead : a.Ahead b) (phase : Phase) :
    a.Ahead { b with phase } := ahead

theorem Ahead.remaining_le {a b : Cursor} (ahead : a.Ahead b) : b.remaining ≤ a.remaining := by
  obtain ⟨text, position⟩ := ahead
  unfold remaining
  rw [text]
  omega

theorem ahead_forward (c : Cursor) (count : Nat) : c.Ahead (c.forward count) :=
  ⟨rfl, Nat.le_add_right _ _⟩

@[simp] theorem length_rest (c : Cursor) : c.rest.length = c.remaining := by
  simp [rest, remaining]

@[simp] theorem rest_forward (c : Cursor) (count : Nat) :
    (c.forward count).rest = c.rest.drop count := by
  simp [rest, forward]

theorem remaining_forward (c : Cursor) (count : Nat) :
    (c.forward count).remaining = c.remaining - count := by
  simp [remaining, forward, Nat.sub_sub]

end Cursor
end TableQuery
