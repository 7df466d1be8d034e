import TableQuery.Number.Basic

/-! Decimal numerals and the numbers they denote: a numeral is read to the nearest number, and a
magnitude is written with the fewest digits that read back as it. -/
namespace TableQuery

/-- Whole digits times a power of ten. -/
structure Decimal where
  digits : Nat
  exponent : Int
deriving DecidableEq, Repr, Inhabited

namespace Decimal

/-- A power of ten past which every numeral is infinite and, turned round, every numeral is zero. -/
def reach : Nat := 400

/-- The quotient of counts that a numeral denotes. Powers past the reach settle nothing and are
cut to it; a numeral of many digits may need as many more negative powers. -/
def quotient (d : Decimal) : Nat × Nat :=
  match d.exponent with
  | .ofNat e => (d.digits * Nat.pow 10 (min e reach) * Number.unitsPerOne, 1)
  | .negSucc e => (d.digits * Number.unitsPerOne, Nat.pow 10 (min (e + 1) (reach + d.digits.log2)))

def toNumber (negative : Bool) (d : Decimal) : Number :=
  Number.ofQuotient negative d.quotient.1 d.quotient.2

/-- The neighbour taken when a magnitude is halfway between two numerals. -/
inductive Tie where
  | upper
  | even
deriving DecidableEq

/-- A power of ten above the magnitude. -/
def topGrid (size : Magnitude) : Int :=
  ((size.units.log2 : Int) + 1 - 1074) * 30103 / 100000 + 1

/-- The magnitude as a quotient, measured in a power of ten. -/
def measure (size : Magnitude) : Int → Nat × Nat
  | .ofNat grid => (size.units, Number.unitsPerOne * Nat.pow 10 grid)
  | .negSucc grid => (size.units * Nat.pow 10 (grid + 1), Number.unitsPerOne)

/-- The two neighbours of a magnitude on a grid, the nearer first. -/
def neighbours (tie : Tie) (size : Magnitude) (grid : Int) : List Decimal :=
  let (num, den) := measure size grid
  let low := num / den
  let rest := num % den
  let lowFirst := 2 * rest < den || (2 * rest == den && tie == .even && low % 2 == 0)
  if lowFirst then [⟨low, grid⟩, ⟨low + 1, grid⟩] else [⟨low + 1, grid⟩, ⟨low, grid⟩]

/-- Whether a numeral reads as a magnitude. -/
def Denotes (d : Decimal) (size : Magnitude) : Prop := d.toNumber false = .finite false size

instance (d : Decimal) (size : Magnitude) : Decidable (d.Denotes size) :=
  inferInstanceAs (Decidable (_ = _))

def exact (size : Magnitude) : Decimal := ⟨size.units * Nat.pow 5 1074, -1074⟩

/-- The numeral of fewest digits that reads back as a magnitude, and of those the nearest. Grids
are tried from coarse to fine; seventeen digits always suffice. -/
def shortest (tie : Tie) (size : Magnitude) : Decimal :=
  let grids := (List.range 20).map fun depth : Nat => topGrid size - depth
  (grids.findSome? fun grid => (neighbours tie size grid).find? (·.Denotes size)).getD (exact size)

def digitChars (d : Decimal) : List Char := Nat.toDigits 10 d.digits

/-- The power of ten of the first digit. -/
def leading (d : Decimal) : Int := d.digitChars.length - 1 + d.exponent

/-- Positional writing, padded with zeros and never with an exponent. -/
def positional (d : Decimal) : List Char :=
  let cs := d.digitChars
  match d.exponent with
  | .ofNat e => cs ++ List.replicate e '0'
  | .negSucc e =>
    let places := e + 1
    if places < cs.length then cs.take (cs.length - places) ++ '.' :: cs.drop (cs.length - places)
    else '0' :: '.' :: (List.replicate (places - cs.length) '0' ++ cs)

/-- Writing with one digit before the point and a signed exponent. -/
def scientific (d : Decimal) : List Char :=
  let mantissa :=
    match d.digitChars with
    | [] => []
    | [c] => [c]
    | c :: cs => c :: '.' :: cs
  let power := Nat.toDigits 10 d.leading.natAbs
  mantissa ++ 'e' :: (if d.leading < 0 then '-' else '+') :: power

end Decimal
end TableQuery
