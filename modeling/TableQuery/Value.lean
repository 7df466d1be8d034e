import TableQuery.Number.Layout

/-! Values of table cells. -/
namespace TableQuery

/-- What a cell holds. Stored tables hold text only; numbers come out of aggregation. -/
inductive Value where
  | null
  | number (x : Number)
  | text (s : String)
deriving DecidableEq, Inhabited

namespace Value

def isNull : Value → Bool
  | null => true
  | _ => false

def number? : Value → Option Number
  | number x => some x
  | _ => none

def render : Value → String
  | null => "null"
  | number x => x.plain
  | text s => s

/-- Equality without any reading of text as numbers; numbers compare numerically. -/
def equals : Value → Value → Bool
  | null, null => true
  | number x, number y => x.equals y
  | text s, text t => s == t
  | _, _ => false

end Value
end TableQuery
