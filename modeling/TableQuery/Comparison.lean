import TableQuery.Value

/-! The six comparisons and what they say of two values. -/
namespace TableQuery

inductive Comparison where
  | equal
  | notEqual
  | greater
  | less
  | greaterOrEqual
  | lessOrEqual
deriving DecidableEq, Repr

namespace Comparison

def ofSymbol? : String → Option Comparison
  | "=" => some equal
  | "!=" => some notEqual
  | ">" => some greater
  | "<" => some less
  | ">=" => some greaterOrEqual
  | "<=" => some lessOrEqual
  | _ => none

def symbol : Comparison → String
  | equal => "="
  | notEqual => "!="
  | greater => ">"
  | less => "<"
  | greaterOrEqual => ">="
  | lessOrEqual => "<="

def refusal (symbol : String) : String := "Unsupported operator: " ++ symbol

/-- Whether two things in this order satisfy the comparison. -/
def accepts : Comparison → Ordering → Bool
  | equal, order => order.isEq
  | notEqual, order => order.isNe
  | greater, order => order.isGT
  | less, order => order.isLT
  | greaterOrEqual, order => order.isGE
  | lessOrEqual, order => order.isLE

/-- Comparison of numbers; only inequality holds of NaN. -/
def ofNumbers : Comparison → Number → Number → Bool
  | equal, x, y => x.equals y
  | notEqual, x, y => !x.equals y
  | greater, x, y => y.below x
  | less, x, y => x.below y
  | greaterOrEqual, x, y => y.atMost x
  | lessOrEqual, x, y => x.atMost y

/-- Whether a comparison holds of two values. Null equals null alone and has no order; a number
and a text are never equal and are ordered by how they are written. -/
def holds (op : Comparison) : Value → Value → Bool
  | .number x, .number y => op.ofNumbers x y
  | .text s, .text t => op.accepts (compare s t)
  | .null, .null => op == equal
  | .null, _ | _, .null => op == notEqual
  | a, b =>
    match op with
    | equal => false
    | notEqual => true
    | _ => op.accepts (compare a.render b.render)

end TableQuery.Comparison
