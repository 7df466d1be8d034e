import TableQuery.Number.Decimal

/-! The two written forms of a number: plain text, as values are shown and compared, and the form
used inside JSON. -/
namespace TableQuery.Number

/-- The whole part of a magnitude that has no other. -/
def whole? (size : Magnitude) : Option Nat :=
  if size.units % unitsPerOne = 0 then some (size.units / unitsPerOne) else none

/-- A whole number with its sign; zero has none. -/
def wholeText (negative : Bool) (n : Nat) : List Char :=
  if negative && n != 0 then '-' :: Nat.toDigits 10 n else Nat.toDigits 10 n

def withSign (negative : Bool) (text : List Char) : List Char :=
  if negative then '-' :: text else text

/-- Whole numbers below this are written out in full. -/
def plainWholeLimit : Nat := Nat.pow 10 21

def finitePlain (negative : Bool) (size : Magnitude) : List Char :=
  match whole? size with
  | some n =>
    if n < plainWholeLimit then wholeText negative n
    else withSign negative (Decimal.shortest .upper size).positional
  | none => withSign negative (Decimal.shortest .upper size).positional

/-- Plain text: whole numbers exactly, others by their shortest digits without an exponent. -/
def plain : Number → String
  | nan => "NaN"
  | infinite false => "Infinity"
  | infinite true => "-Infinity"
  | finite negative size => String.ofList (finitePlain negative size)

/-- Whole numbers below this are JSON integers. -/
def jsonWholeLimit : Nat := 9 * Nat.pow 10 15

/-- Shortest digits, positional from 1e-5 up to below 1e16 and always with a point there. -/
def jsonFraction (d : Decimal) : List Char :=
  if -5 ≤ d.leading ∧ d.leading ≤ 15 then
    if 0 ≤ d.exponent then d.positional ++ ['.', '0'] else d.positional
  else d.scientific

def finiteJson (negative : Bool) (size : Magnitude) : List Char :=
  match whole? size with
  | some n =>
    if n < jsonWholeLimit then wholeText negative n
    else withSign negative (jsonFraction (Decimal.shortest .even size))
  | none => withSign negative (jsonFraction (Decimal.shortest .even size))

/-- The JSON form; a number that is not finite is null. -/
def json : Number → String
  | finite negative size => String.ofList (finiteJson negative size)
  | _ => "null"

end TableQuery.Number
