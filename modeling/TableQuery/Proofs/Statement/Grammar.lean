import Mathlib
import TableQuery.Statement.Select

/-! What a well-formed query is made of, and every text that it may be written as. Keywords come in
any case, blanks of any number and kind stand wherever they do no harm, and the direction of a sort
key, the kind of an inner join and the final semicolon may be left out. -/
namespace TableQuery
open Token

def IsRun (kept : Char → Bool) (s : String) : Prop := s ≠ "" ∧ ∀ c ∈ s.toList, kept c

instance {kept : Char → Bool} {s : String} : Decidable (IsRun kept s) :=
  decidable_of_iff (s ≠ "" ∧ s.toList.all kept) (and_congr_right fun _ => List.all_eq_true)

abbrev IsWord : String → Prop := IsRun (!endsWord ·)

abbrev IsOperand : String → Prop := IsRun inOperand

abbrev IsOperator : String → Prop := IsRun isOperatorChar

/-- Parentheses that close as often as they open, and never before. -/
structure Balanced (text : List Char) : Prop where
  closes : text.count '(' = text.count ')'
  opens : ∀ before after, text = before ++ after → before.count ')' ≤ before.count '('

/-- Characters of a kind stand only where a parenthesis is open. -/
def Enclosed (kind : Char → Bool) (text : List Char) : Prop :=
  ∀ before c after, text = before ++ c :: after → kind c → before.count ')' < before.count '('

structure IsItem (s : String) : Prop where
  nonempty : s ≠ ""
  unblank : ∀ c ∈ s.toList, isBlank c = false
  balanced : Balanced s.toList
  enclosed : Enclosed (fun c => c == ',' || c == ';') s.toList

/-- A text between two quotes of one sort, with no such quote inside. -/
def IsQuoted (text : List Char) : Prop :=
  ∃ quote body, isQuote quote ∧ quote ∉ body ∧ text = quote :: (body ++ [quote])

def beginsQuoted (s : String) : Bool := s.toList.head?.any isQuote

def IsLiteral (s : String) : Prop :=
  IsQuoted s.toList ∨ IsRun inBareLiteral s ∧ beginsQuoted s = false

/-- Words that cannot name the kind of a join: the second `JOIN` of two is a table, and the others
begin a later clause. -/
def reservedKinds : List String := ["JOIN", "LIMIT", "WHERE"]

structure Join.WellFormed (join : Join) : Prop where
  kind : IsRun isWordChar join.kind
  unreserved : upperAscii join.kind ∉ reservedKinds
  table : IsWord join.table
  left : IsOperand join.left
  right : IsOperand join.right

structure Condition.WellFormed (condition : Condition) : Prop where
  field : IsOperand condition.field
  operator : IsOperator condition.operator
  literal : IsLiteral condition.literal

structure Query.WellFormed (query : Query) : Prop where
  someField : query.fields ≠ []
  fields : ∀ field ∈ query.fields, IsItem field
  table : IsWord query.table
  join : ∀ join ∈ query.join, join.WellFormed
  conditions : ∀ condition ∈ query.conditions, condition.WellFormed
  someGrouping : query.groupBy ≠ some []
  grouping : ∀ fields ∈ query.groupBy, ∀ field ∈ fields, IsWord field
  someOrdering : query.orderBy ≠ some []
  ordering : ∀ keys ∈ query.orderBy, ∀ key ∈ keys, IsItem key.field
  limit : ∀ n ∈ query.limit, n < 2 ^ 64
  aggregates : query.aggregates = query.fields.filterMap Aggregate.ofItem?
  wholeTable : query.wholeTable = (!query.aggregates.isEmpty && query.groupBy.isNone)

section Texts

def blanks : Language Char := {text | ∀ c ∈ text, isBlank c}

/-- Blanks, one at least. -/
def gap : Language Char := {text | text ≠ [] ∧ ∀ c ∈ text, isBlank c}

/-- What parts two tokens. It may be nothing where neither can run into the other. -/
def space (loose : Bool) : Language Char := if loose then blanks else gap

def verbatim (s : String) : Language Char := {text | text = s.toList}

def mark (c : Char) : Language Char := {text | text = [c]}

/-- A keyword in upper, lower or mixed case. -/
def Keyword.spellings (keyword : Keyword) : Language Char :=
  {text | text.map Char.toUpper = keyword.word}

/-- After the last token: blanks, with at most one semicolon among them. -/
def ending : Language Char := blanks + blanks * (mark ';' * blanks)

/-- An item with blanks inside its parentheses. -/
def itemTexts (item : String) : Language Char :=
  {text | text.filter (!isBlank ·) = item.toList ∧ Enclosed isBlank text}

def commaList : List (Language Char) → Language Char
  | [] => 1
  | [texts] => texts
  | texts :: rest => texts * (blanks * (mark ',' * (blanks * commaList rest)))

/-- A number in decimal digits, with any zeros in front and at most one plus sign. -/
def numerals (n : Nat) : Language Char :=
  {text | ∃ digits, (text = digits ∨ text = '+' :: digits) ∧ digits ≠ [] ∧
    digits.all Char.isDigit ∧ ofDigits 10 digits = n}

def Direction.texts : Direction → Language Char
  | .ascending => 1 + gap * Keyword.ascending.spellings
  | .descending => gap * Keyword.descending.spellings

def SortKey.texts (key : SortKey) : Language Char := itemTexts key.field * key.direction.texts

/-- A bare literal that looks like an operator must stand apart from the operator before it. -/
def beginsOperator (s : String) : Bool := s.toList.head?.any isOperatorChar

def Condition.texts (condition : Condition) : Language Char :=
  verbatim condition.field * (blanks * (verbatim condition.operator *
    (space (!beginsOperator condition.literal) * verbatim condition.literal)))

/-- Conditions with `AND` between any two. A quoted literal needs no blank after it. -/
def conditionList : List Condition → Language Char
  | [] => 1
  | [condition] => condition.texts
  | condition :: rest => condition.texts * (space (beginsQuoted condition.literal) *
      (Keyword.and.spellings * (gap * conditionList rest)))

def endsQuoted (conditions : List Condition) : Bool :=
  conditions.getLast?.any (beginsQuoted ·.literal)

/-- The words that begin a join of some kind; an inner join may leave its kind out. -/
def joinTexts (kind : String) : Language Char :=
  {text | kind = "INNER" ∧ text ∈ Keyword.join.spellings ∨
    text ∈ verbatim kind * (gap * Keyword.join.spellings)}

end Texts

/-- A clause with the texts that may be left to read where it begins. -/
structure Place where
  phase : Phase
  texts : Language Char

namespace Place

def finish : Place := ⟨.done, 1⟩

/-- The texts left to read after the last token before a place. -/
def lead (place : Place) (loose : Bool) : Language Char :=
  if place.phase = .done then ending else space loose * place.texts

def ofLimit : Option Nat → Place
  | none => finish
  | some n => ⟨.limit, Keyword.limit.spellings * (gap * (numerals n * finish.lead false))⟩

def ofOrdering (next : Place) : Option (List SortKey) → Place
  | none => next
  | some keys => ⟨.ordering,
      Keyword.orderBy.spellings * (gap * (commaList (keys.map SortKey.texts) * next.lead false))⟩

def ofGrouping (next : Place) : Option (List String) → Place
  | none => next
  | some fields => ⟨.grouping,
      Keyword.groupBy.spellings * (gap * (commaList (fields.map verbatim) * next.lead false))⟩

def ofConditions (next : Place) (conditions : List Condition) : Place :=
  if conditions = [] then next
  else ⟨.conditions, Keyword.whereRows.spellings *
    (gap * (conditionList conditions * next.lead (endsQuoted conditions)))⟩

def ofJoin (next : Place) : Option Join → Place
  | none => next
  | some join => ⟨.join, joinTexts join.kind * (gap * (verbatim join.table *
      (gap * (Keyword.on.spellings * (gap * (verbatim join.left * (blanks * (mark '=' *
        (blanks * (verbatim join.right * next.lead false))))))))))⟩

def ofTable (next : Place) (table : String) : Place :=
  ⟨.table, Keyword.fromTable.spellings * (gap * (verbatim table * next.lead false))⟩

end Place

namespace Query

def limitPlace (query : Query) : Place := .ofLimit query.limit

def orderingPlace (query : Query) : Place := .ofOrdering query.limitPlace query.orderBy

def groupingPlace (query : Query) : Place := .ofGrouping query.orderingPlace query.groupBy

def conditionsPlace (query : Query) : Place := .ofConditions query.groupingPlace query.conditions

def joinPlace (query : Query) : Place := .ofJoin query.conditionsPlace query.join

def tablePlace (query : Query) : Place := .ofTable query.joinPlace query.table

def fieldsPlace (query : Query) : Place :=
  ⟨.fields, gap * (commaList (query.fields.map itemTexts) * query.tablePlace.lead false)⟩

def texts (query : Query) : Language Char :=
  blanks * (Keyword.select.spellings * query.fieldsPlace.texts)

end Query
end TableQuery
