import TableQuery.Number.Basic

/-! Sum, quotient and running extrema of numbers, each rounded once from the exact result. -/
namespace TableQuery.Number

/-- The sum, rounded to nearest; numbers that cancel give the positive zero. -/
def add : Number → Number → Number
  | nan, _ | _, nan => nan
  | infinite a, infinite b => if a = b then .infinite a else .nan
  | infinite a, finite _ _ => .infinite a
  | finite _ _, infinite b => .infinite b
  | finite a m, finite b n =>
    let total := signed a m.units + signed b n.units
    if total = 0 then .finite (a && b) Magnitude.zero
    else ofQuotient (total < 0) total.natAbs 1

/-- The quotient, rounded to nearest; a zero or infinity over its like is NaN. -/
def div : Number → Number → Number
  | nan, _ | _, nan => nan
  | infinite _, infinite _ => .nan
  | infinite a, finite b _ => .infinite (a != b)
  | finite a _, infinite b => .finite (a != b) Magnitude.zero
  | finite a m, finite b n =>
    if n.units = 0 then
      if m.units = 0 then .nan else .infinite (a != b)
    else ofQuotient (a != b) (m.units * unitsPerOne) n.units

/-- The smaller of two numbers, NaN if either is; the second of two equal ones. -/
def least (x y : Number) : Number :=
  if x.isNaN || y.isNaN then .nan else if x.below y then x else y

/-- The greater of two numbers, NaN if either is; the second of two equal ones. -/
def greatest (x y : Number) : Number :=
  if x.isNaN || y.isNaN then .nan else if y.below x then x else y

end TableQuery.Number
