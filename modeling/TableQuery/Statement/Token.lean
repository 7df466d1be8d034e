import TableQuery.Statement.Reader

/-! The tokens of a statement: words, items with parentheses, operands, operators and literals. -/
namespace TableQuery

namespace Token

def endsWord (c : Char) : Bool := isBlank c || c == ',' || c == ';'

def isOperatorChar (c : Char) : Bool := c == '=' || c == '!' || c == '<' || c == '>'

def inOperand (c : Char) : Bool := !(isBlank c || isOperatorChar c || c == ';')

def inBareLiteral (c : Char) : Bool := !(isBlank c || c == ';')

def isQuote (c : Char) : Bool := c == '\'' || c == '"'

/-- An item as far as it goes: its characters without blanks, the length of text it takes, and
whether its parentheses balance. -/
structure ItemScan where
  item : List Char
  length : Nat
  balanced : Bool
deriving DecidableEq, Repr

/-- Scans an item inside some number of parentheses. Only there may it hold blanks, commas and
semicolons; a parenthesis too many stops it. -/
def scanItem (depth : Nat) : List Char → ItemScan
  | [] => ⟨[], 0, depth == 0⟩
  | c :: rest =>
    if depth = 0 ∧ endsWord c then ⟨[], 0, true⟩
    else if depth = 0 ∧ c = ')' then ⟨[], 0, false⟩
    else
      let inner := if c = '(' then depth + 1 else if c = ')' then depth - 1 else depth
      let scan := scanItem inner rest
      ⟨if isBlank c then scan.item else c :: scan.item, scan.length + 1, scan.balanced⟩

end Token

namespace Reader

open Token

def readWord : Reader String := readWhile (!endsWord ·)

def readOperand : Reader String := readWhile inOperand

def readOperator : Reader String := readWhile isOperatorChar

/-- Reads an item of the field list; what parentheses enclose belongs to it, blanks removed. -/
def readItem : Reader String where
  run c :=
    let scan := scanItem 0 c.rest
    let stop := c.forward scan.length
    if scan.balanced then .done (String.ofList scan.item) stop
    else .failed (.between .unbalancedParentheses c.position stop) stop
  ahead c := by
    dsimp only
    split <;> exact c.ahead_forward _

/-- Reads a literal: between two quotes, which it keeps, or up to a blank or a semicolon. -/
def readLiteral : Reader String where
  run c :=
    match c.rest with
    | quote :: inner =>
      if isQuote quote then
        let body := inner.takeWhile (· != quote)
        if body.length < inner.length then
          .done (String.ofList (quote :: body ++ [quote])) (c.forward (body.length + 2))
        else
          let stop := c.forward (body.length + 1)
          .failed (.between .unterminatedText c.position stop) stop
      else
        let bare := c.rest.takeWhile inBareLiteral
        .done (String.ofList bare) (c.forward bare.length)
    | [] => .done "" c
  ahead c := by
    split
    · split
      · dsimp only
        split <;> exact c.ahead_forward _
      · exact c.ahead_forward _
    · exact .refl c

def readJoinKeyword : Reader String where
  run c :=
    match joinKeyword? c.rest with
    | some (kind, length) => .done kind (c.forward length)
    | none => .failed (.between .invalidJoin c.position c) c
  ahead c := by
    split
    · exact c.ahead_forward _
    · exact .refl c

end Reader
end TableQuery
