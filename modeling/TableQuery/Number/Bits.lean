import TableQuery.Number.Basic

/-! Numbers as 64-bit patterns: a sign, eleven bits of exponent and fifty-two of fraction. -/
namespace TableQuery.Number

/-- Reads a bit pattern; every NaN pattern is the one NaN. -/
def ofBits (bits : UInt64) : Number :=
  let pattern := bits.toNat
  let negative := pattern / Nat.pow 2 63 == 1
  let exponent := pattern / Nat.pow 2 52 % Nat.pow 2 11
  let fraction := pattern % Nat.pow 2 52
  if exponent = Nat.pow 2 11 - 1 then
    if fraction = 0 then .infinite negative else .nan
  else if exponent = 0 then ofQuotient negative fraction 1
  else ofQuotient negative ((Nat.pow 2 52 + fraction) * Nat.pow 2 (exponent - 1)) 1

/-- The pattern of a magnitude: consecutive magnitudes have consecutive patterns. -/
def patternOf (size : Magnitude) : Nat :=
  let cut := Magnitude.grain size.units
  cut * Nat.pow 2 52 + size.units / Nat.pow 2 cut

/-- The bit pattern of a number; NaN has the quiet pattern. -/
def toBits : Number → UInt64
  | nan => 0x7ff8000000000000
  | infinite negative =>
    .ofNat ((if negative then Nat.pow 2 63 else 0) + (Nat.pow 2 11 - 1) * Nat.pow 2 52)
  | finite negative size => .ofNat ((if negative then Nat.pow 2 63 else 0) + patternOf size)

end TableQuery.Number
