import TableQuery.Number.Numeral
import TableQuery.Text.Blank
import TableQuery.Row

/-! Reading text as values. A condition reads text that is wholly numeric as a number, quoted or
not; an aggregate reads the numeral in front of it. -/
namespace TableQuery

def isQuotedBy (quote : Char) (text : List Char) : Bool :=
  text.head? == some quote && text.getLast? == some quote

/-- Text without one layer of matching quotes; a lone quote gives nothing. -/
def unquoteChars (text : List Char) : List Char :=
  if isQuotedBy '\'' text || isQuotedBy '"' text then text.tail.dropLast else text

def unquote (s : String) : String := String.ofList (unquoteChars s.toList)

/-- The number of text that is wholly numeric, blanks around it aside. -/
def parseNumeric? (s : String) : Option Number := Numeral.read? (trim s.toList)

namespace Value

/-- The value of a literal: a number when what the quotes enclose is wholly numeric. -/
def ofLiteral (literal : String) : Value :=
  let bare := unquote literal
  match parseNumeric? bare with
  | some x => .number x
  | none => .text bare

/-- A value as conditions compare it. -/
def coerce : Value → Value
  | text s => ofLiteral s
  | value => value

/-- A value as aggregates add it up: text by the numeral in front of it, NaN for anything else
that is no number. -/
def amount : Value → Number
  | number x => x
  | text s => Numeral.readFront (trimStart s.toList)
  | null => .nan

end Value

/-- A field as aggregates add it up; an absent one is NaN. -/
def Row.amount (row : Row) (field : Option String) : Number :=
  match field.bind row.get? with
  | some value => value.amount
  | none => .nan

end TableQuery
