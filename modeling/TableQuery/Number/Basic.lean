/-! Binary numbers of 53 significant bits. A magnitude is a whole count of the least positive
one, so sums, comparisons and rounding are exact work on natural numbers. -/
namespace TableQuery

/-- The whole number nearest to a quotient; a half goes to the even neighbour. -/
def nearestWhole (num den : Nat) : Nat :=
  let whole := num / den
  let rest := num % den
  if 2 * rest < den then whole
  else if den < 2 * rest then whole + 1
  else whole + whole % 2

theorem nearestWhole_le (num den : Nat) : nearestWhole num den ≤ num / den + 1 := by
  unfold nearestWhole
  dsimp only
  split
  · omega
  · split <;> omega

namespace Magnitude

/-- The first count past the greatest magnitude. -/
def ceiling : Nat := Nat.pow 2 2098

theorem ceiling_pos : 0 < ceiling := by
  unfold ceiling
  apply Nat.two_pow_pos

/-- Places cut from a count to leave 53 significant bits. -/
def grain (units : Nat) : Nat := units.log2 - 52

/-- A count below the ceiling with no bit under its grain. -/
def Representable (units : Nat) : Prop := units < ceiling ∧ Nat.pow 2 (grain units) ∣ units

instance (units : Nat) : Decidable (Representable units) :=
  inferInstanceAs (Decidable (_ ∧ _))

/-- A quotient of counts, to 53 significant bits and with no upper bound. -/
def round (num den : Nat) : Nat :=
  let cut := grain (num / den)
  nearestWhole num (den * Nat.pow 2 cut) * Nat.pow 2 cut

theorem grain_dvd_of_le {whole cut : Nat} (small : whole ≤ Nat.pow 2 53) :
    Nat.pow 2 (grain (whole * Nat.pow 2 cut)) ∣ whole * Nat.pow 2 cut := by
  simp only [Nat.pow_eq] at small ⊢
  rcases Nat.eq_zero_or_pos whole with rfl | positive
  · simp
  have nonzero : whole * 2 ^ cut ≠ 0 := by
    have := Nat.mul_pos positive (Nat.two_pow_pos cut)
    omega
  rcases Nat.lt_or_eq_of_le small with less | rfl
  · have bound : (whole * 2 ^ cut).log2 < 53 + cut := by
      rw [Nat.log2_lt nonzero, Nat.pow_add]
      exact Nat.mul_lt_mul_of_pos_right less (Nat.two_pow_pos cut)
    exact Nat.dvd_trans (Nat.pow_dvd_pow 2 (by unfold grain; omega)) (Nat.dvd_mul_left _ _)
  · rw [← Nat.pow_add] at nonzero ⊢
    refine Nat.pow_dvd_pow 2 ?_
    have bound : (2 ^ (53 + cut)).log2 < 53 + cut + 1 := by
      rw [Nat.log2_lt nonzero]
      exact Nat.pow_lt_pow_right (by omega) (by omega)
    unfold grain
    omega

theorem grain_dvd_round (num den : Nat) : Nat.pow 2 (grain (round num den)) ∣ round num den := by
  apply grain_dvd_of_le
  refine Nat.le_trans (nearestWhole_le _ _) ?_
  rw [← Nat.div_div_eq_div_mul]
  simp only [Nat.pow_eq]
  have quotient : num / den < 2 ^ (53 + grain (num / den)) := by
    refine Nat.lt_of_lt_of_le Nat.lt_log2_self (Nat.pow_le_pow_right (by omega) ?_)
    unfold grain
    omega
  have := Nat.div_lt_of_lt_mul (n := 2 ^ grain (num / den)) (k := 2 ^ 53)
    (by rw [Nat.mul_comm, ← Nat.pow_add]; exact quotient)
  omega

/-- A representable count is rounded to itself. -/
theorem round_one {units : Nat} (representable : Representable units) : round units 1 = units := by
  have positive := Nat.two_pow_pos (grain units)
  have whole := representable.2
  unfold round nearestWhole
  simp only [Nat.div_one, Nat.one_mul]
  rw [if_pos (by rw [Nat.mod_eq_zero_of_dvd whole]; omega)]
  exact Nat.div_mul_cancel whole

end Magnitude

/-- A finite magnitude, counted in units of 2^-1074. -/
structure Magnitude where
  units : Nat
  representable : Magnitude.Representable units
deriving DecidableEq

namespace Magnitude

def zero : Magnitude := ⟨0, Magnitude.ceiling_pos, Nat.dvd_zero _⟩

instance : Inhabited Magnitude := ⟨zero⟩

end Magnitude

/-- A signed number, an infinity, or no number at all. Zero has two signs. -/
inductive Number where
  | nan
  | infinite (negative : Bool)
  | finite (negative : Bool) (size : Magnitude)
deriving DecidableEq, Inhabited

namespace Number

def unitsPerOne : Nat := Nat.pow 2 1074

/-- The number nearest to a quotient of counts; a half goes to the even neighbour, and what
rounds past the greatest magnitude is infinite. -/
def ofQuotient (negative : Bool) (num den : Nat) : Number :=
  if fits : Magnitude.round num den < Magnitude.ceiling then
    .finite negative ⟨Magnitude.round num den, fits, Magnitude.grain_dvd_round num den⟩
  else .infinite negative

theorem ofQuotient_units (negative : Bool) (size : Magnitude) :
    ofQuotient negative size.units 1 = .finite negative size := by
  have same := Magnitude.round_one size.representable
  have fits := size.representable.1
  unfold ofQuotient
  simp [same, fits]

def zero : Number := .finite false Magnitude.zero

def ofNat (n : Nat) : Number := ofQuotient false (n * unitsPerOne) 1

def isNaN : Number → Bool
  | nan => true
  | _ => false

def signed (negative : Bool) (units : Nat) : Int := if negative then -units else units

/-- The point of a number on the line of counts, the infinities at the ceiling. -/
def point? : Number → Option Int
  | nan => none
  | infinite negative => some (signed negative Magnitude.ceiling)
  | finite negative size => some (signed negative size.units)

/-- Numeric equality: the zeros are equal and NaN equals nothing. -/
def equals (x y : Number) : Bool :=
  match x.point?, y.point? with
  | some a, some b => a == b
  | _, _ => false

/-- Numeric order; false when either side is NaN. -/
def below (x y : Number) : Bool :=
  match x.point?, y.point? with
  | some a, some b => a < b
  | _, _ => false

/-- Numeric order or equality; false when either side is NaN. -/
def atMost (x y : Number) : Bool :=
  match x.point?, y.point? with
  | some a, some b => a ≤ b
  | _, _ => false

/-- The place of a number among all numbers, NaN past the positive infinity. -/
def rank (x : Number) : Int := x.point?.getD (Magnitude.ceiling + 1)

/-- The total order in which NaN is one greatest number and the zeros are one. -/
def order (x y : Number) : Ordering := compare x.rank y.rank

end Number
end TableQuery
