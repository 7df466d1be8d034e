import TableQuery.Number.Decimal
import Mathlib

/-! Rounding of quotients to counts of 53 significant bits. No such count is nearer to a quotient
than the one it is rounded to; where another is as near, the last bit is zero. -/
namespace TableQuery

section Whole

variable {num den : Nat}

/-- The nearest whole number is half off at most, and even when it is. -/
theorem two_mul_abs_nearestWhole (num : Nat) (positive : 0 < den) :
    2 * |(nearestWhole num den : ℤ) * den - num| ≤ den ∧
      (2 * |(nearestWhole num den : ℤ) * den - num| = den → 2 ∣ nearestWhole num den) := by
  have rest := Nat.mod_lt num positive
  have split : num / den * den + num % den = num := Nat.div_add_mod' num den
  unfold nearestWhole
  dsimp only
  generalize num / den = whole at *
  generalize num % den = left at *
  subst split
  have low : (whole : ℤ) * den - (whole * den + left : ℕ) = -left := by push_cast; ring
  have high : ((whole + 1 : ℕ) : ℤ) * den - (whole * den + left : ℕ) = den - left := by
    push_cast; ring
  split_ifs with less more
  · rw [low, abs_neg, Nat.abs_cast]
    omega
  · rw [high, abs_of_nonneg (by omega)]
    omega
  · obtain even | odd := Nat.mod_two_eq_zero_or_one whole
    · rw [even, Nat.add_zero, low, abs_neg, Nat.abs_cast]
      omega
    · rw [odd, high, abs_of_nonneg (by omega)]
      omega

/-- No whole number is nearer to a quotient, and one as near finds it even. -/
theorem nearestWhole_nearest (num : Nat) (positive : 0 < den) (other : Nat) :
    |(nearestWhole num den : ℤ) * den - num| ≤ |(other : ℤ) * den - num| ∧
      (other ≠ nearestWhole num den →
        |(other : ℤ) * den - num| = |(nearestWhole num den : ℤ) * den - num| →
          2 ∣ nearestWhole num den) := by
  obtain ⟨half, even⟩ := two_mul_abs_nearestWhole num positive
  have apart : other ≠ nearestWhole num den →
      (den : ℤ) ≤ |(other : ℤ) * den - num| + |(nearestWhole num den : ℤ) * den - num| := by
    intro other_ne
    have gap : (1 : ℤ) ≤ |(other : ℤ) - nearestWhole num den| :=
      Int.one_le_abs (by omega)
    calc (den : ℤ) ≤ |(other : ℤ) - nearestWhole num den| * |(den : ℤ)| := by
          rw [Nat.abs_cast]
          exact le_mul_of_one_le_left (Int.natCast_nonneg den) gap
      _ = |((other : ℤ) * den - num) - (nearestWhole num den * den - num)| := by
          rw [← abs_mul]
          ring_nf
      _ ≤ _ := abs_sub _ _
  by_cases same : other = nearestWhole num den
  · exact ⟨by rw [same], fun unlike => absurd same unlike⟩
  · have far := apart same
    exact ⟨by omega, fun _ tie => even (by omega)⟩

end Whole

namespace Magnitude

/-- A count of 53 significant bits, however great. -/
def Grained (units : Nat) : Prop := 2 ^ grain units ∣ units

/-- The last of the significant bits of a count is zero. -/
def EvenGrain (units : Nat) : Prop := 2 ∣ units / 2 ^ grain units

section Grain

variable {whole cut units num den : Nat}

theorem grained_of_le (cut : Nat) (small : whole ≤ 2 ^ 53) : Grained (whole * 2 ^ cut) :=
  grain_dvd_of_le small

theorem lt_of_grain_lt (less : grain units < cut) : units < 2 ^ (52 + cut) := by
  refine lt_of_lt_of_le Nat.lt_log2_self (Nat.pow_le_pow_right (by omega) ?_)
  unfold grain at less
  omega

theorem grain_le_of_lt (less : units < 2 ^ (53 + cut)) : grain units ≤ cut := by
  unfold grain
  by_cases zero : units = 0
  · subst zero
    simp
  · have := (Nat.log2_lt zero).mpr less
    omega

theorem le_grain_of_le (least : 2 ^ (52 + cut) ≤ units) : cut ≤ grain units := by
  have nonzero : units ≠ 0 := by
    have := Nat.two_pow_pos (52 + cut)
    omega
  have := (Nat.le_log2 nonzero).mpr least
  unfold grain
  omega

theorem pow_le_of_grain_pos (some : 0 < grain units) : 2 ^ (52 + grain units) ≤ units := by
  have nonzero : units ≠ 0 := by
    rintro rfl
    exact absurd some (by decide)
  refine le_trans (Nat.pow_le_pow_right (by omega) ?_) (Nat.log2_self_le nonzero)
  unfold grain at some ⊢
  omega

theorem grain_mono {other : Nat} (le : units ≤ other) : grain units ≤ grain other := by
  rcases Nat.eq_zero_or_pos (grain units) with none | some
  · omega
  · exact le_grain_of_le ((pow_le_of_grain_pos some).trans le)

theorem evenGrain_of_even (small : whole ≤ 2 ^ 53) (even : 2 ∣ whole) :
    EvenGrain (whole * 2 ^ cut) := by
  unfold EvenGrain
  rcases Nat.lt_or_eq_of_le small with less | rfl
  · have atMost : grain (whole * 2 ^ cut) ≤ cut := grain_le_of_lt (by
      rw [Nat.pow_add]
      exact Nat.mul_lt_mul_of_pos_right less (Nat.two_pow_pos cut))
    rw [Nat.mul_div_assoc _ (Nat.pow_dvd_pow 2 atMost)]
    exact even.mul_right _
  · have same : grain (2 ^ 53 * 2 ^ cut) = cut + 1 := by
      rw [← Nat.pow_add]
      exact le_antisymm (grain_le_of_lt (Nat.pow_lt_pow_right (by omega) (by omega)))
        (le_grain_of_le (Nat.pow_le_pow_right (by omega) (by omega)))
    rw [same, ← Nat.pow_add, Nat.pow_div (by omega) (by omega)]
    exact dvd_pow_self 2 (by omega)

theorem grains_lt (units : Nat) : units / 2 ^ grain units < 2 ^ 53 := by
  apply Nat.div_lt_of_lt_mul
  rw [← Nat.pow_add]
  refine lt_of_lt_of_le Nat.lt_log2_self (Nat.pow_le_pow_right (by omega) ?_)
  unfold grain
  omega

/-- The whole number that a quotient is rounded to, in grains of its own. -/
theorem nearestWhole_grain_le (num den : Nat) :
    nearestWhole num (den * 2 ^ grain (num / den)) ≤ 2 ^ 53 := by
  refine le_trans (nearestWhole_le _ _) ?_
  rw [← Nat.div_div_eq_div_mul]
  exact grains_lt (num / den)

/-- Among whole grains of a quotient none is nearer than the one it is rounded to, and one as near
finds the last bit of that to be zero. -/
theorem round_nearest_of_dvd (num : Nat) (positive : 0 < den)
    (dvd : 2 ^ grain (num / den) ∣ units) :
    |(round num den : ℤ) * den - num| ≤ |(units : ℤ) * den - num| ∧
      (units ≠ round num den →
        |(units : ℤ) * den - num| = |(round num den : ℤ) * den - num| →
          EvenGrain (round num den)) := by
  have step : 0 < den * 2 ^ grain (num / den) := Nat.mul_pos positive (Nat.two_pow_pos _)
  have small := nearestWhole_grain_le num den
  have near := nearestWhole_nearest num step
  have rounded : round num den = nearestWhole num (den * 2 ^ grain (num / den)) *
      2 ^ grain (num / den) := rfl
  rw [rounded]
  generalize nearestWhole num (den * 2 ^ grain (num / den)) = whole at *
  generalize grain (num / den) = cut at *
  obtain ⟨k, rfl⟩ := dvd
  have scaled (k : Nat) :
      ((k * 2 ^ cut : ℕ) : ℤ) * den - num = (k : ℤ) * (den * 2 ^ cut : ℕ) - num := by
    push_cast
    ring
  rw [Nat.mul_comm _ k, scaled, scaled]
  refine ⟨(near k).1, fun unlike tie => evenGrain_of_even small ((near k).2 ?_ tie)⟩
  rintro rfl
  exact unlike rfl

/-- No count of 53 significant bits is nearer to a quotient than the one it is rounded to, and one
as near finds the last bit of that to be zero. -/
theorem round_nearest (num : Nat) (positive : 0 < den) (grained : Grained units) :
    |(round num den : ℤ) * den - num| ≤ |(units : ℤ) * den - num| ∧
      (units ≠ round num den →
        |(units : ℤ) * den - num| = |(round num den : ℤ) * den - num| →
          EvenGrain (round num den)) := by
  rcases Nat.lt_or_ge (grain units) (grain (num / den)) with finer | coarser
  · have below := lt_of_grain_lt finer
    have least : 2 ^ (52 + grain (num / den)) ≤ num / den :=
      pow_le_of_grain_pos (Nat.zero_lt_of_lt finer)
    have near := (round_nearest_of_dvd num positive
      (Nat.pow_dvd_pow 2 (Nat.le_add_left (grain (num / den)) 52))).1
    generalize 2 ^ (52 + grain (num / den)) = bottom at *
    have under : (bottom : ℤ) * den ≤ num := by
      exact_mod_cast (Nat.le_div_iff_mul_le positive).mp least
    have further : (units : ℤ) * den < bottom * den := by
      exact_mod_cast Nat.mul_lt_mul_of_pos_right below positive
    rw [abs_of_nonpos (by omega : (bottom : ℤ) * den - num ≤ 0)] at near
    rw [abs_of_nonpos (by omega : (units : ℤ) * den - num ≤ 0)]
    exact ⟨by omega, fun _ tie => by omega⟩
  · exact round_nearest_of_dvd num positive ((Nat.pow_dvd_pow 2 coarser).trans grained)

end Grain

section Overflow

variable {top units num den : Nat}

def greatest (top : Nat) : Nat := (2 ^ 53 - 1) * 2 ^ top

theorem greatest_add (top : Nat) : greatest top + 2 ^ top = 2 ^ 53 * 2 ^ top := by
  unfold greatest
  omega

theorem grain_greatest (top : Nat) : grain (greatest top) = top := by
  refine le_antisymm (grain_le_of_lt ?_) (le_grain_of_le ?_)
  · rw [Nat.pow_add]
    exact Nat.mul_lt_mul_of_pos_right (by decide) (Nat.two_pow_pos top)
  · rw [Nat.pow_add]
    exact Nat.mul_le_mul_right _ (by decide)

theorem not_evenGrain_greatest : ¬ EvenGrain (greatest top) := by
  rw [EvenGrain, grain_greatest, greatest, Nat.mul_div_cancel _ (Nat.two_pow_pos top)]
  decide

theorem le_greatest_of_dvd (dvd : 2 ^ top ∣ units) (less : units < 2 ^ 53 * 2 ^ top) :
    units ≤ greatest top := by
  obtain ⟨bits, rfl⟩ := dvd
  rw [Nat.mul_comm] at less
  have bound : bits < 2 ^ 53 := Nat.lt_of_mul_lt_mul_right less
  rw [greatest, Nat.mul_comm]
  exact Nat.mul_le_mul_right _ (by omega)

theorem le_grain_of_greatest_le (past : greatest top ≤ units) : top ≤ grain units := by
  rw [← grain_greatest top]
  exact grain_mono past

/-- What is rounded to the greatest count of a grain or less is less than half a bit past it: at
just half a bit the count after it is as near, and the last bit of the greatest is one. -/
theorem lt_of_round_lt (positive : 0 < den) (less : round num den < 2 ^ 53 * 2 ^ top) :
    2 * num < (2 * greatest top + 2 ^ top) * den := by
  obtain ⟨near, even⟩ := round_nearest num positive (grained_of_le top le_rfl)
  rw [← greatest_add, ← Nat.cast_mul, ← Nat.cast_mul, Nat.add_mul] at near even
  rw [Nat.add_mul, Nat.mul_assoc]
  have bit : 0 < 2 ^ top * den := Nat.mul_pos (Nat.two_pow_pos top) positive
  by_contra past
  have above : greatest top ≤ num / den := by
    rw [Nat.le_div_iff_mul_le positive]
    omega
  have dvd : 2 ^ top ∣ round num den :=
    (Nat.pow_dvd_pow 2 (le_grain_of_greatest_le above)).trans (Nat.dvd_mul_left _ _)
  have atMost := Nat.mul_le_mul_right den (le_greatest_of_dvd dvd less)
  have behind : |((round num den * den : ℕ) : ℤ) - num| = num - (round num den * den : ℕ) := by
    rw [abs_sub_comm]
    exact abs_of_nonneg (by omega)
  have ahead := abs_cases (((greatest top * den + 2 ^ top * den : ℕ) : ℤ) - num)
  have same : round num den * den = greatest top * den := by omega
  have rounded : round num den = greatest top := Nat.eq_of_mul_eq_mul_right positive same
  have unlike : greatest top + 2 ^ top ≠ round num den := by
    rw [greatest_add]
    exact Nat.ne_of_gt less
  rw [rounded] at even unlike behind near
  exact not_evenGrain_greatest (even unlike (by omega))

theorem round_lt_of_lt (positive : 0 < den)
    (before : 2 * num < (2 * greatest top + 2 ^ top) * den) :
    round num den < 2 ^ 53 * 2 ^ top := by
  have near := (round_nearest num positive (grained_of_le top (Nat.sub_le (2 ^ 53) 1))).1
  rw [← greatest, ← Nat.cast_mul, ← Nat.cast_mul] at near
  rw [Nat.add_mul, Nat.mul_assoc] at before
  have bit : 0 < 2 ^ top * den := Nat.mul_pos (Nat.two_pow_pos top) positive
  by_contra reached
  have above := Nat.mul_le_mul_right den (Nat.le_of_not_lt reached)
  rw [← greatest_add, Nat.add_mul] at above
  have ahead : |((round num den * den : ℕ) : ℤ) - num| = (round num den * den : ℕ) - num :=
    abs_of_nonneg (by omega)
  have := abs_cases (((greatest top * den : ℕ) : ℤ) - num)
  omega

end Overflow

end Magnitude

end TableQuery
