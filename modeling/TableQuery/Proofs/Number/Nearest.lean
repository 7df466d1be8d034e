import TableQuery.Proofs.Number.Rounding

/-! Numbers nearest to rationals. A quotient, and with it a numeral, is read as the magnitude
nearest to it, of two as near as the one whose last bit is zero, and half a last bit past the
greatest magnitude and further on as infinite. No rational has two such numbers. -/
namespace TableQuery

namespace Magnitude

theorem eq_of_units {a b : Magnitude} (same : a.units = b.units) : a = b := by
  cases a
  cases b
  cases same
  rfl

theorem grained (size : Magnitude) : Grained size.units := size.representable.2

def value (size : Magnitude) : ℚ := size.units / Number.unitsPerOne

/-- No magnitude is nearer to a rational number, and if another is as near the last bit is zero. -/
structure IsNearest (size : Magnitude) (q : ℚ) : Prop where
  le : ∀ other : Magnitude, |size.value - q| ≤ |other.value - q|
  even : ∀ other : Magnitude, other ≠ size → |other.value - q| = |size.value - q| →
    EvenGrain size.units

theorem unitsPerOne_pos : (0 : ℚ) < Number.unitsPerOne := by
  rw [Nat.cast_pos]
  unfold Number.unitsPerOne
  apply Nat.two_pow_pos

theorem abs_value_sub {den : Nat} (positive : 0 < den) (size : Magnitude) (num : Nat) :
    |size.value - num / den / Number.unitsPerOne| =
      (|(size.units : ℤ) * den - num| : ℤ) / (den * Number.unitsPerOne) := by
  have unit := unitsPerOne_pos
  have some : (0 : ℚ) < den := by exact_mod_cast positive
  have scaled : size.value - num / den / Number.unitsPerOne =
      ((size.units : ℚ) * den - num) / (den * Number.unitsPerOne) := by
    rw [value]
    field_simp
  rw [scaled, abs_div, abs_of_pos (mul_pos some unit)]
  push_cast
  rfl

/-- What a quotient is rounded to, if it is a magnitude, is the nearest. -/
theorem isNearest_round {num den : Nat} (positive : 0 < den) (size : Magnitude)
    (rounded : round num den = size.units) : size.IsNearest (num / den / Number.unitsPerOne) := by
  have unit := unitsPerOne_pos
  have some : (0 : ℚ) < den := by exact_mod_cast positive
  have near (other : Magnitude) :=
    round_nearest num positive other.grained
  rw [rounded] at near
  constructor
  · intro other
    rw [abs_value_sub positive, abs_value_sub positive]
    refine (div_le_div_iff_of_pos_right (mul_pos some unit)).mpr ?_
    exact_mod_cast (near other).1
  · intro other unlike tie
    rw [abs_value_sub positive, abs_value_sub positive,
      div_left_inj' (ne_of_gt (mul_pos some unit))] at tie
    exact (near other).2 (fun same => unlike (eq_of_units same)) (by exact_mod_cast tie)

section Unique

variable {a b : Magnitude} {q : ℚ}

theorem value_lt_value (less : a.units < b.units) : a.value < b.value := by
  have unit := unitsPerOne_pos
  rw [value, value]
  exact (div_lt_div_iff_of_pos_right unit).mpr (by exact_mod_cast less)

/-- The magnitude after one that is not the last. -/
theorem exists_next (less : a.units < b.units) :
    ∃ next : Magnitude, next.units = a.units + 2 ^ grain a.units ∧ next.units ≤ b.units := by
  have shape : a.units / 2 ^ grain a.units * 2 ^ grain a.units = a.units :=
    Nat.div_mul_cancel a.grained
  have dvd : 2 ^ grain a.units ∣ b.units :=
    (Nat.pow_dvd_pow 2 (grain_mono (le_of_lt less))).trans b.grained
  have le : a.units + 2 ^ grain a.units ≤ b.units :=
    Nat.le_of_lt_add_of_dvd (Nat.add_lt_add_right less _)
      (Nat.dvd_add a.grained (Nat.dvd_refl _)) dvd
  have grained := grained_of_le (grain a.units) (Nat.succ_le_of_lt (grains_lt a.units))
  rw [Nat.succ_mul, shape] at grained
  exact ⟨⟨_, lt_of_le_of_lt le b.representable.1, grained⟩, rfl, le⟩

/-- The last bit of a magnitude or of the one after it is one. -/
theorem not_evenGrain_next (even : EvenGrain a.units)
    (next : b.units = a.units + 2 ^ grain a.units) : ¬ EvenGrain b.units := by
  have bit := Nat.two_pow_pos (grain a.units)
  have shape : a.units / 2 ^ grain a.units * 2 ^ grain a.units = a.units :=
    Nat.div_mul_cancel a.grained
  have bound := grains_lt a.units
  unfold EvenGrain at even ⊢
  have bits : b.units = (a.units / 2 ^ grain a.units + 1) * 2 ^ grain a.units := by
    rw [next, Nat.succ_mul, shape]
  have same : grain b.units = grain a.units := by
    refine le_antisymm (grain_le_of_lt ?_) (grain_mono (by omega))
    rw [bits, Nat.pow_add]
    exact Nat.mul_lt_mul_of_pos_right (by omega) bit
  rw [same, bits, Nat.mul_div_cancel _ bit]
  omega

theorem IsNearest.units_le (nearA : a.IsNearest q) (nearB : b.IsNearest q) :
    b.units ≤ a.units := by
  by_contra more
  have less : a.units < b.units := not_le.mp more
  have before := value_lt_value less
  have tie : |b.value - q| = |a.value - q| := le_antisymm (nearB.le a) (nearA.le b)
  have middle : b.value - q = q - a.value := by
    rcases abs_eq_abs.mp tie with same | turned
    · linarith
    · linarith
  obtain ⟨next, units, atMost⟩ := exists_next less
  have same : next.units = b.units := by
    refine le_antisymm atMost (not_lt.mp fun between => ?_)
    have bit := Nat.two_pow_pos (grain a.units)
    have low : a.value < next.value := value_lt_value (by omega)
    have high : next.value < b.value := value_lt_value between
    have nearer : |next.value - q| < |a.value - q| := by
      rw [abs_sub_comm a.value, abs_of_nonneg (by linarith : 0 ≤ q - a.value), abs_lt]
      exact ⟨by linarith, by linarith⟩
    exact absurd (nearA.le next) (not_le.mpr nearer)
  have unlike : b ≠ a := by
    rintro rfl
    exact lt_irrefl _ less
  exact not_evenGrain_next (nearA.even b unlike tie) (same ▸ units)
    (nearB.even a unlike.symm tie.symm)

/-- A rational number has one nearest magnitude. -/
theorem IsNearest.unique (nearA : a.IsNearest q) (nearB : b.IsNearest q) : a = b :=
  eq_of_units (le_antisymm (nearB.units_le nearA) (nearA.units_le nearB))

end Unique

/-- A rational number of half a unit or less is nearest to zero. -/
theorem isNearest_zero {q : ℚ} (nonneg : 0 ≤ q) (small : 2 * q * Number.unitsPerOne ≤ 1) :
    zero.IsNearest q := by
  have unit := unitsPerOne_pos
  have none : zero.value = 0 := by
    rw [value]
    exact zero_div _
  constructor
  · intro other
    rw [none, zero_sub, abs_neg, abs_of_nonneg nonneg]
    rcases Nat.eq_zero_or_pos other.units with same | some
    · rw [value, same, Nat.cast_zero, zero_div, zero_sub, abs_neg, abs_of_nonneg nonneg]
    · have least : 1 / (Number.unitsPerOne : ℚ) ≤ other.value := by
        rw [value]
        refine (div_le_div_iff_of_pos_right unit).mpr ?_
        exact_mod_cast some
      have half : 2 * q ≤ 1 / (Number.unitsPerOne : ℚ) := (le_div_iff₀ unit).mpr small
      refine le_trans ?_ (le_abs_self _)
      linarith
  · intro _ _ _
    rw [EvenGrain, zero, Nat.zero_div]
    exact Nat.dvd_zero 2

end Magnitude

namespace Number

/-- Half a last bit past the greatest magnitude. -/
def overflow : Nat := Nat.pow 2 1024 - Nat.pow 2 970

/-- The number that a rational is rounded to, with a sign of its own: the nearest magnitude, or an
infinity from the overflow on. -/
inductive NearestTo (negative : Bool) (q : ℚ) : Number → Prop where
  | finite {size : Magnitude} (below : q < overflow) (nearest : size.IsNearest q) :
      NearestTo negative q (.finite negative size)
  | infinite (past : overflow ≤ q) : NearestTo negative q (.infinite negative)

section NearestTo

variable {negative : Bool} {p q : ℚ} {x y : Number}

theorem NearestTo.unique (nearX : NearestTo negative q x) (nearY : NearestTo negative q y) :
    x = y := by
  cases nearX with
  | finite below nearest =>
    cases nearY with
    | finite _ other => rw [nearest.unique other]
    | infinite past => exact absurd below (not_lt.mpr past)
  | infinite past =>
    cases nearY with
    | finite below _ => exact absurd below (not_lt.mpr past)
    | infinite => rfl

theorem NearestTo.of_overflow (near : NearestTo negative p x) (pastP : overflow ≤ p)
    (pastQ : overflow ≤ q) : NearestTo negative q x := by
  rw [near.unique (.infinite pastP)]
  exact .infinite pastQ

theorem nearestTo_zero (nonneg : 0 ≤ q) (small : 2 * q * unitsPerOne ≤ 1) :
    NearestTo negative q (.finite negative .zero) := by
  refine .finite ?_ (Magnitude.isNearest_zero nonneg small)
  have unit : (1 : ℚ) ≤ unitsPerOne := by exact_mod_cast (by decide +kernel : 1 ≤ unitsPerOne)
  have bound : (1 : ℚ) ≤ overflow := by exact_mod_cast (by decide +kernel : 1 ≤ overflow)
  have half : 2 * q ≤ 2 * q * unitsPerOne := le_mul_of_one_le_right (by linarith) unit
  linarith

theorem NearestTo.of_small (near : NearestTo negative p x) (nonnegP : 0 ≤ p) (nonnegQ : 0 ≤ q)
    (smallP : 2 * p * unitsPerOne ≤ 1) (smallQ : 2 * q * unitsPerOne ≤ 1) :
    NearestTo negative q x := by
  rw [near.unique (nearestTo_zero nonnegP smallP)]
  exact nearestTo_zero nonnegQ smallQ

end NearestTo

def topGrain : Nat := 2045

theorem ceiling_eq : Magnitude.ceiling = 2 ^ 53 * 2 ^ topGrain := by decide +kernel

theorem overflow_eq :
    2 * Magnitude.greatest topGrain + 2 ^ topGrain = 2 * (overflow * unitsPerOne) := by
  decide +kernel

theorem lt_overflow_iff {num den : Nat} (positive : 0 < den) :
    (num / den / unitsPerOne : ℚ) < overflow ↔
      2 * num < (2 * Magnitude.greatest topGrain + 2 ^ topGrain) * den := by
  have unit := Magnitude.unitsPerOne_pos
  have some : (0 : ℚ) < den := by exact_mod_cast positive
  rw [div_lt_iff₀ unit, div_lt_iff₀ some, overflow_eq, Nat.mul_assoc,
    Nat.mul_lt_mul_left (by omega)]
  exact_mod_cast Iff.rfl

/-- The number made of a quotient of counts is the nearest to it. -/
theorem nearestTo_ofQuotient (negative : Bool) (num : Nat) {den : Nat} (positive : 0 < den) :
    NearestTo negative (num / den / unitsPerOne) (ofQuotient negative num den) := by
  unfold ofQuotient
  split
  · rename_i fits
    refine .finite ?_ (Magnitude.isNearest_round positive _ rfl)
    exact (lt_overflow_iff positive).mpr (Magnitude.lt_of_round_lt positive (ceiling_eq ▸ fits))
  · rename_i past
    refine .infinite (not_lt.mp fun below => past ?_)
    rw [ceiling_eq]
    exact Magnitude.round_lt_of_lt positive ((lt_overflow_iff positive).mp below)

theorem nearestTo_ofNat (n : Nat) : NearestTo false n (ofNat n) := by
  have unit := Magnitude.unitsPerOne_pos
  have near := nearestTo_ofQuotient false (n * unitsPerOne) Nat.one_pos
  rwa [Nat.cast_one, div_one, Nat.cast_mul, mul_div_cancel_right₀ _ (ne_of_gt unit)] at near

end Number

namespace Decimal

def value (d : Decimal) : ℚ := d.digits * 10 ^ d.exponent

variable {digits e : Nat}

theorem overflow_le_mul_pow (some : 0 < digits) (far : reach ≤ e) :
    (Number.overflow : ℚ) ≤ digits * 10 ^ e := by
  have top : Number.overflow ≤ 10 ^ reach := by decide +kernel
  have bound : Number.overflow ≤ digits * 10 ^ e :=
    calc Number.overflow ≤ 10 ^ reach := top
      _ ≤ 10 ^ e := Nat.pow_le_pow_right (by decide) far
      _ ≤ digits * 10 ^ e := Nat.le_mul_of_pos_left _ some
  exact_mod_cast bound

theorem div_pow_small (far : reach + digits.log2 ≤ e) :
    2 * (digits / 10 ^ e : ℚ) * Number.unitsPerOne ≤ 1 := by
  have top : 4 * Number.unitsPerOne ≤ 10 ^ reach := by decide +kernel
  have bound : 2 * digits * Number.unitsPerOne ≤ 10 ^ e :=
    calc 2 * digits * Number.unitsPerOne
        ≤ 2 * 2 ^ (digits.log2 + 1) * Number.unitsPerOne := by
          gcongr
          exact le_of_lt Nat.lt_log2_self
      _ = 4 * Number.unitsPerOne * 2 ^ digits.log2 := by ring
      _ ≤ 10 ^ reach * 10 ^ digits.log2 :=
          Nat.mul_le_mul top (Nat.pow_le_pow_left (by decide) _)
      _ ≤ 10 ^ e := by
          rw [← Nat.pow_add]
          exact Nat.pow_le_pow_right (by decide) far
  have some : (0 : ℚ) < 10 ^ e := by positivity
  rw [mul_div_assoc', div_mul_eq_mul_div, div_le_one some]
  exact_mod_cast bound

/-- A numeral is read as the number nearest to it. Powers of ten that are cut to the reach are past
the overflow or under half a unit, as they would be uncut. -/
theorem nearestTo_toNumber (negative : Bool) (d : Decimal) :
    Number.NearestTo negative d.value (d.toNumber negative) := by
  have unit := Magnitude.unitsPerOne_pos
  obtain ⟨digits, exponent⟩ := d
  cases exponent with
  | ofNat e =>
    have near : Number.NearestTo negative (digits * 10 ^ min e reach)
        (toNumber negative ⟨digits, .ofNat e⟩) := by
      have near := Number.nearestTo_ofQuotient negative
        (digits * Nat.pow 10 (min e reach) * Number.unitsPerOne) Nat.one_pos
      rw [Nat.cast_one, div_one, Nat.cast_mul, mul_div_cancel_right₀ _ (ne_of_gt unit)] at near
      exact_mod_cast near
    have whole : value ⟨digits, .ofNat e⟩ = digits * 10 ^ e := by
      rw [value, Int.ofNat_eq_natCast, zpow_natCast]
    rw [whole]
    rcases Nat.le_total e reach with within | far
    · rwa [min_eq_left within] at near
    · rw [min_eq_right far] at near
      rcases Nat.eq_zero_or_pos digits with rfl | some
      · simpa using near
      · exact near.of_overflow (overflow_le_mul_pow some le_rfl) (overflow_le_mul_pow some far)
  | negSucc e =>
    have near : Number.NearestTo negative (digits / 10 ^ min (e + 1) (reach + digits.log2))
        (toNumber negative ⟨digits, .negSucc e⟩) := by
      have some : 0 < Nat.pow 10 (min (e + 1) (reach + digits.log2)) := Nat.pow_pos (by decide)
      have near := Number.nearestTo_ofQuotient negative (digits * Number.unitsPerOne) some
      rw [Nat.cast_mul, div_right_comm, mul_div_cancel_right₀ _ (ne_of_gt unit)] at near
      exact_mod_cast near
    have fraction : value ⟨digits, .negSucc e⟩ = digits / 10 ^ (e + 1) := by
      rw [value, zpow_negSucc, div_eq_mul_inv]
    rw [fraction]
    rcases Nat.le_total (e + 1) (reach + digits.log2) with within | far
    · rwa [min_eq_left within] at near
    · rw [min_eq_right far] at near
      have nonneg (k : Nat) : (0 : ℚ) ≤ digits / 10 ^ k :=
        div_nonneg (Nat.cast_nonneg digits) (pow_nonneg (by norm_num) k)
      exact near.of_small (nonneg _) (nonneg _) (div_pow_small le_rfl) (div_pow_small far)

end Decimal

end TableQuery
