import TableQuery.Proofs.Coercion
import TableQuery.Proofs.Extrema

/-! The plain text of a number is read back as the number. The digits that are written, exact or
shortest, denote the magnitude to the nearest, and their sign is that of the number. Only the sign
of a zero is not written. -/
namespace TableQuery

/-- A magnitude is the number nearest to itself. -/
theorem Number.nearestTo_value (negative : Bool) (size : Magnitude) :
    NearestTo negative size.value (.finite negative size) := by
  have near := nearestTo_ofQuotient negative size.units Nat.one_pos
  rwa [ofQuotient_units, Nat.cast_one, div_one] at near

namespace Decimal

section Denotes

variable {d e : Decimal} {size : Magnitude}

/-- A numeral that reads as a magnitude reads as it under either sign. -/
theorem Denotes.toNumber_eq (denotes : d.Denotes size) (negative : Bool) :
    d.toNumber negative = .finite negative size := by
  have near := nearestTo_toNumber false d
  rw [denotes] at near
  cases near with
  | finite below nearest => exact (nearestTo_toNumber negative d).unique (.finite below nearest)

theorem denotes_of_value (same : d.value = size.value) : d.Denotes size := by
  have near := nearestTo_toNumber false d
  rw [same] at near
  exact near.unique (Number.nearestTo_value false size)

theorem Denotes.of_value_eq (denotes : d.Denotes size) (same : e.value = d.value) :
    e.Denotes size := by
  have near := nearestTo_toNumber false e
  rw [same] at near
  exact (near.unique (nearestTo_toNumber false d)).trans denotes

theorem value_scaled (units places : Nat) :
    value ⟨units * Nat.pow 5 places, -places⟩ = units / (Nat.pow 2 places : Nat) := by
  rw [value, Nat.pow_eq, Nat.pow_eq, zpow_neg, zpow_natCast, ← div_eq_mul_inv]
  push_cast
  rw [div_eq_div_iff (by positivity) (by positivity), mul_assoc, ← mul_pow]
  norm_num

/-- Every digit of a magnitude together denotes it. -/
theorem value_exact (size : Magnitude) : (exact size).value = size.value := by
  unfold exact Magnitude.value Number.unitsPerOne
  apply value_scaled

theorem denotes_shortest (tie : Tie) (size : Magnitude) : (shortest tie size).Denotes size := by
  unfold shortest
  extract_lets grids
  cases found : grids.findSome? fun grid => (neighbours tie size grid).find? (·.Denotes size) with
  | none => exact denotes_of_value (value_exact size)
  | some d =>
    obtain ⟨grid, -, near⟩ := List.exists_of_findSome?_eq_some found
    simpa using List.find?_some near

end Denotes

/-- The digits of positional writing count the numeral in units of the last one. -/
theorem value_parts (d : Decimal) :
    value ⟨ofDigits 10 (d.parts.1 ++ d.parts.2), -d.parts.2.length⟩ = d.value := by
  have digits : ofDigits 10 d.digitChars = d.digits := ofDigits_toDigits d.digits
  cases exponent : d.exponent with
  | ofNat e =>
    have spelled : ofDigits 10 (d.digitChars ++ List.replicate e '0') = d.digits * 10 ^ e := by
      rw [ofDigits_append, ofDigits_zeros, digits, List.length_replicate, Nat.add_zero]
    simp only [parts, exponent, value, List.append_nil, spelled]
    simp
  | negSucc e =>
    have last : d.exponent = -((e + 1 : Nat) : Int) := exponent
    by_cases fewer : e + 1 < d.digitChars.length
    · have places : (d.digitChars.drop (d.digitChars.length - (e + 1))).length = e + 1 := by
        rw [List.length_drop]
        omega
      simp only [parts, exponent, fewer, if_true, value, List.take_append_drop, digits, places]
      rw [← last, exponent]
    · have spelled : ofDigits 10 (['0'] ++ (List.replicate (e + 1 - d.digitChars.length) '0' ++
          d.digitChars)) = d.digits := by
        rw [← List.append_assoc, ofDigits_append, digits]
        have zero : ofDigits 10 (['0'] ++ List.replicate (e + 1 - d.digitChars.length) '0') = 0 :=
          ofDigits_zeros 10 (e + 1 - d.digitChars.length + 1)
        rw [zero, Nat.zero_mul, Nat.zero_add]
      have places : (List.replicate (e + 1 - d.digitChars.length) '0' ++ d.digitChars).length =
          e + 1 := by
        rw [List.length_append, List.length_replicate]
        omega
      simp only [parts, exponent, fewer, if_false, value, spelled, places]
      rw [← last, exponent]

end Decimal

/-- Digits, with a point or without, that count a magnitude in units of the last one. -/
def PlainDigits (text : List Char) (size : Magnitude) : Prop :=
  ∃ whole fraction, text = whole ++ pointed fraction ∧ PointedDigits whole fraction ∧
    Decimal.Denotes ⟨ofDigits 10 (whole ++ fraction), -fraction.length⟩ size

section PlainDigits

variable {size : Magnitude} {text : List Char}

theorem PlainDigits.read? (digits : PlainDigits text size) (negative : Bool) :
    Numeral.read? (Number.withSign negative text) = some (.finite negative size) := by
  obtain ⟨whole, fraction, rfl, pointed, denotes⟩ := digits
  rw [Numeral.read?_pointed pointed, denotes.toNumber_eq]

theorem plainDigits_positional {d : Decimal} (denotes : d.Denotes size) :
    PlainDigits d.positional size :=
  ⟨d.parts.1, d.parts.2, d.positional_eq, d.pointedDigits_parts, denotes.of_value_eq d.value_parts⟩

/-- A whole number is written with all its digits. -/
theorem plainDigits_whole {n : Nat} (units : size.units = n * Number.unitsPerOne) :
    PlainDigits (Nat.toDigits 10 n) size := by
  refine ⟨Nat.toDigits 10 n, [], (List.append_nil _).symm, ?_, ?_⟩
  · exact ⟨Nat.toDigits_ne_nil, List.all_eq_true.mp (all_isDigit_toDigits n), by simp⟩
  · apply Decimal.denotes_of_value
    have unit := ne_of_gt Magnitude.unitsPerOne_pos
    rw [List.append_nil, ofDigits_toDigits, Decimal.value, Magnitude.value, units, Nat.cast_mul,
      mul_div_cancel_right₀ _ unit]
    simp

end PlainDigits

namespace Number

/-- The number as it is shown: a zero has no sign. -/
def shown : Number → Number
  | finite negative size => .finite (negative && size.units != 0) size
  | x => x

section Shown

variable {x y : Number}

theorem shown_equals (proper : x.isNaN = false) : x.shown.equals x := by
  rw [equals_iff]
  cases x with
  | nan => cases proper
  | infinite negative => exact ⟨_, rfl, rfl⟩
  | finite negative size =>
    refine ⟨_, rfl, ?_⟩
    by_cases zero : size.units = 0
    · simp [point?, signed, zero]
    · have same : (negative && size.units != 0) = negative := by simp [zero]
      rw [same]
      rfl

/-- Numbers that are shown alike are equal. -/
theorem equals_of_shown_eq (properX : x.isNaN = false) (properY : y.isNaN = false)
    (same : x.shown = y.shown) : x.equals y := by
  obtain ⟨p, pointX, placeX⟩ := equals_iff.mp (shown_equals properX)
  obtain ⟨q, pointY, placeY⟩ := equals_iff.mp (shown_equals properY)
  rw [same, pointY] at pointX
  rw [equals_iff]
  exact ⟨p, placeX, placeY.trans pointX⟩

/-- Only the negative zero is not shown as it is. -/
theorem shown_eq_self (signed : x ≠ .finite true .zero) : x.shown = x := by
  cases x with
  | nan => rfl
  | infinite negative => rfl
  | finite negative size =>
    by_cases zero : size.units = 0
    · have none : size = .zero := Magnitude.eq_of_units zero
      cases negative with
      | false => rfl
      | true => exact absurd (by rw [none]) signed
    · simp [shown, zero]

end Shown

section Plain

variable {negative : Bool} {size : Magnitude} {n : Nat}

theorem units_of_whole? (whole : whole? size = some n) : size.units = n * unitsPerOne := by
  unfold whole? at whole
  split at whole
  · rename_i rest
    rw [← Option.some.inj whole, Nat.div_mul_cancel (Nat.dvd_of_mod_eq_zero rest)]
  · cases whole

/-- A finite number is written with digits that count it. Its sign stands before them, unless it is
zero. -/
theorem exists_plainDigits (negative : Bool) (size : Magnitude) :
    ∃ text, PlainDigits text size ∧
      finitePlain negative size = withSign (negative && size.units != 0) text := by
  have shortest := Decimal.denotes_shortest .upper size
  have signed (nonzero : size.units ≠ 0) : (negative && size.units != 0) = negative := by
    simp [nonzero]
  unfold finitePlain
  cases whole : whole? size with
  | none =>
    have nonzero : size.units ≠ 0 := by
      intro zero
      simp [whole?, zero] at whole
    exact ⟨_, plainDigits_positional shortest, by rw [signed nonzero]⟩
  | some n =>
    have units := units_of_whole? whole
    have unit : unitsPerOne ≠ 0 := by
      intro none
      simpa [none] using Magnitude.unitsPerOne_pos
    by_cases small : n < plainWholeLimit
    · refine ⟨_, plainDigits_whole units, ?_⟩
      have same : (n != 0) = (size.units != 0) := by
        rw [units, Bool.eq_iff_iff]
        simp [unit]
      simp only [small, if_true]
      rw [← same]
      rfl
    · have nonzero : size.units ≠ 0 := by
        rw [units]
        refine Nat.mul_ne_zero ?_ unit
        rintro rfl
        exact small (by decide)
      simp only [small, if_false]
      exact ⟨_, plainDigits_positional shortest, by rw [signed nonzero]⟩

theorem parseNumeric?_shown {x : Number} (proper : x.isNaN = false) :
    parseNumeric? x.plain = some x.shown := by
  cases x with
  | nan => cases proper
  | infinite negative =>
    cases negative with
    | false => decide
    | true => decide
  | finite negative size =>
    obtain ⟨text, digits, same⟩ := exists_plainDigits negative size
    rw [parseNumeric?_plain, same, digits.read?]
    rfl

theorem unquote_plain (x : Number) : unquote x.plain = x.plain := by
  have bare : unquoteChars x.plain.toList = x.plain.toList := by
    refine unquoteChars_of_bare ?_
    rintro quote mark ⟨first, -⟩
    cases x with
    | nan => rcases mark with rfl | rfl <;> cases first
    | infinite negative => cases negative <;> rcases mark with rfl | rfl <;> cases first
    | finite negative size =>
      rw [plain, String.toList_ofList] at first
      have written := mem_finitePlain (List.mem_of_mem_head? first)
      rcases mark with rfl | rfl <;> simp at written
  rw [unquote, bare, String.ofList_toList]

/-- The text of a number stands for the number. -/
theorem ofLiteral_plain {x : Number} (proper : x.isNaN = false) :
    Value.ofLiteral x.plain = .number x.shown := by
  apply Value.ofLiteral_of_some
  rw [unquote_plain]
  exact parseNumeric?_shown proper

end Plain

/-- The plain text of a number is read as a number equal to it, the number itself but for the sign of
a zero, and so is a literal that is written so. Numbers with one text are equal. -/
theorem plain_reads_back {x : Number} (proper : x.isNaN = false) :
    (∃ y, parseNumeric? x.plain = some y ∧ y.equals x ∧ (x ≠ .finite true .zero → y = x) ∧
        Value.ofLiteral (Value.number x).render = .number y) ∧
      ∀ z : Number, z.isNaN = false → z.plain = x.plain → z.equals x := by
  constructor
  · refine ⟨x.shown, parseNumeric?_shown proper, shown_equals proper, ?_, ofLiteral_plain proper⟩
    exact shown_eq_self
  · intro z properZ same
    apply equals_of_shown_eq properZ proper
    have read := parseNumeric?_shown properZ
    rw [same, parseNumeric?_shown proper] at read
    exact (Option.some.inj read).symm

/-- A number past those that are written exactly is not what its digits count, and is read from them
all the same. The two zeros are written alike. -/
theorem rounded_text_reads_back :
    (ofNat 1000000000000000131072).isNaN = false ∧
      (ofNat 1000000000000000131072).plain = "1000000000000000100000" ∧
      parseNumeric? "1000000000000000100000" = some (ofNat 1000000000000000131072) ∧
      (finite true .zero).plain = zero.plain ∧ (finite true .zero).equals zero := by
  have proper : (ofNat 1000000000000000131072).isNaN = false := by decide +kernel
  have text : (ofNat 1000000000000000131072).plain = "1000000000000000100000" := by decide +kernel
  have signed : ofNat 1000000000000000131072 ≠ .finite true .zero := by decide +kernel
  have zeros : (finite true .zero).plain = zero.plain := by decide +kernel
  have properZero : zero.isNaN = false := rfl
  obtain ⟨⟨y, read, -, same, -⟩, -⟩ := plain_reads_back proper
  rw [same signed, text] at read
  exact ⟨proper, text, read, zeros, (plain_reads_back properZero).2 _ rfl zeros⟩

end Number

end TableQuery
