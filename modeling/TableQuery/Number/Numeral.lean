import TableQuery.Number.Decimal
import TableQuery.Text.Digit

/-! Numerals in text: an optional sign, then `Infinity` or decimal digits with an optional point
and power, or a count in base sixteen, eight or two. A scan takes the longest numeral in front. -/
namespace TableQuery

/-- A numeral as written. Its digits may be of any script. -/
inductive Numeral where
  | infinity (negative : Bool)
  | decimal (negative : Bool) (whole fraction : List Char) (powerNegative : Bool)
      (power : List Char)
deriving DecidableEq, Repr

namespace Numeral

/-- An optional sign; true for minus. -/
def scanSign : List Char → Bool × List Char
  | '-' :: rest => (true, rest)
  | '+' :: rest => (false, rest)
  | text => (false, text)

def scanDigits (text : List Char) : List Char × List Char :=
  (text.takeWhile isScriptDigit, text.dropWhile isScriptDigit)

/-- A power of ten: its mark, an optional sign and digits. Nothing is taken of an incomplete one. -/
def scanPower (text : List Char) : Bool × List Char × List Char :=
  match text with
  | mark :: rest =>
    let (negative, afterSign) := scanSign rest
    let (digits, afterDigits) := scanDigits afterSign
    if (mark == 'e' || mark == 'E') && !digits.isEmpty then (negative, digits, afterDigits)
    else (false, [], text)
  | [] => (false, [], [])

/-- Digits with an optional point and more digits, or a point and digits. -/
def scanMantissa (text : List Char) : Option (List Char × List Char × List Char) :=
  let (whole, afterWhole) := scanDigits text
  match afterWhole with
  | '.' :: rest =>
    let (fraction, afterFraction) := scanDigits rest
    if whole.isEmpty && fraction.isEmpty then none else some (whole, fraction, afterFraction)
  | _ => if whole.isEmpty then none else some (whole, [], afterWhole)

/-- The longest numeral in front of a text, and what follows it. -/
def scan? (text : List Char) : Option (Numeral × List Char) :=
  let (negative, unsigned) := scanSign text
  if "Infinity".toList.isPrefixOf unsigned then some (.infinity negative, unsigned.drop 8)
  else (scanMantissa unsigned).map fun (whole, fraction, afterMantissa) =>
    let (powerNegative, power, rest) := scanPower afterMantissa
    (.decimal negative whole fraction powerNegative power, rest)

/-- The number a numeral denotes, when its digits are those of ASCII. -/
def value? : Numeral → Option Number
  | infinity negative => some (.infinite negative)
  | decimal negative whole fraction powerNegative power =>
    if (whole ++ fraction ++ power).all Char.isDigit then
      let exponent : Int := if powerNegative then -ofDigits 10 power else ofDigits 10 power
      some (Decimal.toNumber negative ⟨ofDigits 10 (whole ++ fraction), exponent - fraction.length⟩)
    else none

def baseOf? (mark : Char) : Option Nat :=
  if mark == 'x' || mark == 'X' then some 16
  else if mark == 'o' || mark == 'O' then some 8
  else if mark == 'b' || mark == 'B' then some 2
  else none

def basedLimit : Nat := Nat.pow 2 128

/-- The number of a text that is wholly a count in base sixteen, eight or two. -/
def based? : List Char → Option Number
  | '0' :: mark :: digits =>
    (baseOf? mark).bind fun base =>
      if !digits.isEmpty && digits.all (digitValue · < base) && ofDigits base digits < basedLimit then
        some (.ofNat (ofDigits base digits))
      else none
  | _ => none

/-- The number of a text that is wholly a numeral. -/
def read? (text : List Char) : Option Number :=
  match scan? text with
  | some (numeral, []) => numeral.value?
  | _ => based? text

/-- The number of the longest numeral in front of a text; NaN when there is none. -/
def readFront (text : List Char) : Number :=
  match scan? text with
  | some (numeral, _) => numeral.value?.getD .nan
  | none => .nan

end Numeral
end TableQuery
