import TableQuery.Proofs.Digits
import TableQuery.Proofs.Number.Nearest
import TableQuery.Proofs.Number.PlainText
import TableQuery.Proofs.Number.Spelling

/-! What texts are read as. Text that is wholly a numeral is read as the number nearest to what the
numeral denotes, and other text by the longest numeral in front of it. -/
namespace TableQuery

namespace Numeral

/-! ### What numerals denote -/

def exponent (negative : Bool) (power : List Char) : ℤ :=
  if negative then -ofDigits 10 power else ofDigits 10 power

/-- The size of a decimal: its whole digits and its fraction, times a power of ten. -/
def size (whole fraction : List Char) (exponent : ℤ) : ℚ :=
  (ofDigits 10 whole + ofDigits 10 fraction / 10 ^ fraction.length) * 10 ^ exponent

/-- The number that a numeral of ASCII digits denotes, to the nearest. -/
inductive Denotes : Numeral → Number → Prop where
  | infinity (negative : Bool) : Denotes (.infinity negative) (.infinite negative)
  | decimal {negative powerNegative : Bool} {whole fraction power : List Char} {x : Number}
      (near : Number.NearestTo negative (size whole fraction (exponent powerNegative power)) x) :
      Denotes (.decimal negative whole fraction powerNegative power) x

def digits : Numeral → List Char
  | infinity _ => []
  | decimal _ whole fraction _ power => whole ++ fraction ++ power

section Denotes

variable {numeral : Numeral} {x y : Number}

theorem value_eq_size (whole fraction : List Char) (e : ℤ) :
    Decimal.value ⟨ofDigits 10 (whole ++ fraction), e - fraction.length⟩ =
      size whole fraction e := by
  have ten : (10 : ℚ) ≠ 0 := by norm_num
  rw [Decimal.value, size, ofDigits_append, zpow_sub₀ ten, zpow_natCast]
  push_cast
  field_simp

/-- A numeral has a value when its digits are those of ASCII, and it is the number denoted. -/
theorem value?_eq_some_iff :
    numeral.value? = some x ↔ (∀ c ∈ numeral.digits, c.isDigit) ∧ numeral.Denotes x := by
  cases numeral with
  | infinity negative =>
    constructor
    · intro value
      cases value
      exact ⟨by simp [digits], .infinity negative⟩
    · rintro ⟨-, denotes⟩
      cases denotes
      rfl
  | decimal negative whole fraction powerNegative power =>
    have near := Decimal.nearestTo_toNumber negative
      ⟨ofDigits 10 (whole ++ fraction), exponent powerNegative power - fraction.length⟩
    rw [value_eq_size] at near
    rw [digits, ← List.all_eq_true]
    by_cases ascii : (whole ++ fraction ++ power).all Char.isDigit
    · have value : value? (.decimal negative whole fraction powerNegative power) =
          some (Decimal.toNumber negative
            ⟨ofDigits 10 (whole ++ fraction), exponent powerNegative power - fraction.length⟩) :=
        if_pos ascii
      rw [value, Option.some.injEq]
      constructor
      · rintro rfl
        exact ⟨ascii, .decimal near⟩
      · rintro ⟨-, denotes⟩
        cases denotes with
        | decimal other => exact near.unique other
    · have none : value? (.decimal negative whole fraction powerNegative power) = none :=
        if_neg ascii
      rw [none]
      constructor
      · rintro ⟨⟩
      · rintro ⟨digits, -⟩
        exact absurd digits ascii

end Denotes

/-! ### Texts that are numerals -/

section Spells

variable {p q : Char → Bool} {numeral : Numeral} {negative : Bool}
  {text whole fraction power mantissa raised : List Char}

theorem SpellsMantissa.mem_text (pointed : SpellsMantissa p whole fraction mantissa) :
    ∀ c ∈ whole ++ fraction, p c ∧ c ∈ mantissa := by
  cases pointed with
  | whole digits =>
    rw [List.append_nil]
    exact fun c mem => ⟨digits.all c mem, mem⟩
  | pointed digits =>
    intro c mem
    refine ⟨digits.all c mem, ?_⟩
    rcases List.mem_append.mp mem with mem | mem
    · exact List.mem_append_left _ mem
    · exact List.mem_append_right _ (List.mem_cons_of_mem _ mem)

theorem SpellsPower.mem_text (risen : SpellsPower p negative power raised) :
    ∀ c ∈ power, p c ∧ c ∈ raised := by
  cases risen with
  | none => exact fun c mem => nomatch mem
  | given _ _ digits =>
    exact fun c mem => ⟨digits.all c mem, List.mem_cons_of_mem _ (List.mem_append_right _ mem)⟩

/-- The digits of a spelling are in it, and of its class. -/
theorem Spells.mem_text (spelled : Spells p numeral text) :
    ∀ c ∈ numeral.digits, p c ∧ c ∈ text := by
  cases spelled with
  | infinity => exact fun c mem => nomatch mem
  | decimal signed pointed risen =>
    intro c mem
    rcases List.mem_append.mp mem with mem | mem
    · obtain ⟨digit, mem⟩ := pointed.mem_text c mem
      exact ⟨digit, List.mem_append_right _ (List.mem_append_left _ mem)⟩
    · obtain ⟨digit, mem⟩ := risen.mem_text c mem
      exact ⟨digit, List.mem_append_right _ (List.mem_append_right _ mem)⟩

/-- A spelling is one for any class that has its digits. -/
theorem Spells.restrict (spelled : Spells p numeral text) (digits : ∀ c ∈ numeral.digits, q c) :
    Spells q numeral text := by
  cases spelled with
  | infinity signed => exact .infinity signed
  | decimal signed pointed risen =>
    obtain ⟨digitsMantissa, digitsPower⟩ := List.forall_mem_append.mp digits
    refine .decimal signed ?_ ?_
    · cases pointed with
      | whole run => exact .whole ⟨run.nonempty, fun c mem => digitsMantissa c (by simpa using mem)⟩
      | pointed run => exact .pointed ⟨run.nonempty, digitsMantissa⟩
    · cases risen with
      | none => exact .none
      | given marked raisedSign run => exact .given marked raisedSign ⟨run.nonempty, digitsPower⟩

theorem Spells.script (spelled : Spells Char.isDigit numeral text) :
    Spells isScriptDigit numeral text :=
  spelled.restrict fun c mem => isScriptDigit_of_isDigit (spelled.mem_text c mem).1

end Spells

/-- Text that is wholly a numeral of ASCII digits, with the number it denotes. -/
def DecimalText (text : List Char) (x : Number) : Prop :=
  ∃ numeral, Spells Char.isDigit numeral text ∧ numeral.Denotes x

inductive BaseMark : Char → Nat → Prop where
  | sixteen {mark : Char} (marked : mark = 'x' ∨ mark = 'X') : BaseMark mark 16
  | eight {mark : Char} (marked : mark = 'o' ∨ mark = 'O') : BaseMark mark 8
  | two {mark : Char} (marked : mark = 'b' ∨ mark = 'B') : BaseMark mark 2

/-- Text that is wholly a count in base sixteen, eight or two, with the number nearest to it. -/
inductive BasedText : List Char → Number → Prop where
  | count {mark : Char} {base : Nat} {digits : List Char} {x : Number} (marked : BaseMark mark base)
      (run : IsRun (digitValue · < base) digits) (below : ofDigits base digits < 2 ^ 128)
      (near : Number.NearestTo false (ofDigits base digits) x) : BasedText ('0' :: mark :: digits) x

section Texts

variable {text rest : List Char} {numeral : Numeral} {x : Number} {mark : Char} {base : Nat}

theorem baseOf?_eq_some_iff : baseOf? mark = some base ↔ BaseMark mark base := by
  constructor
  · intro named
    unfold baseOf? at named
    split_ifs at named with sixteen eight two
    · cases named
      exact .sixteen (by simpa using sixteen)
    · cases named
      exact .eight (by simpa using eight)
    · cases named
      exact .two (by simpa using two)
  · rintro (marked | marked | marked)
    all_goals
      obtain rfl | rfl := marked
      all_goals rfl

theorem based?_count (mark : Char) (digits : List Char) :
    based? ('0' :: mark :: digits) = (baseOf? mark).bind fun base =>
      if !digits.isEmpty && digits.all (digitValue · < base) &&
          ofDigits base digits < basedLimit then
        some (.ofNat (ofDigits base digits))
      else none :=
  rfl

theorem based?_eq_some_iff : based? text = some x ↔ BasedText text x := by
  constructor
  · intro counted
    unfold based? at counted
    split at counted
    · obtain ⟨base, named, counted⟩ := Option.bind_eq_some_iff.mp counted
      split at counted
      · rename_i digits within
        rw [← Option.some.inj counted]
        simp only [Bool.and_eq_true, decide_eq_true_eq, List.all_eq_true] at within
        obtain ⟨⟨nonempty, all⟩, below⟩ := within
        refine .count (baseOf?_eq_some_iff.mp named) ⟨by simpa using nonempty, ?_⟩ below
          (Number.nearestTo_ofNat _)
        exact fun c mem => by simpa using all c mem
      · cases counted
    · cases counted
  · rintro ⟨marked, run, below, near⟩
    rename_i mark base digits
    have given : digits.isEmpty = false := by simpa using run.nonempty
    have all : digits.all (digitValue · < base) := List.all_eq_true.mpr run.all
    have within : !digits.isEmpty && digits.all (digitValue · < base) &&
        ofDigits base digits < basedLimit := by
      rw [given, all]
      exact decide_eq_true below
    rw [near.unique (Number.nearestTo_ofNat _)]
    rw [based?_count, baseOf?_eq_some_iff.mpr marked, Option.bind_some, if_pos within]

/-- A text is scanned to its end if it is a numeral of ASCII digits. -/
theorem DecimalText.exists_scan (decimal : DecimalText text x) :
    ∃ numeral, scan? text = some (numeral, []) ∧ numeral.value? = some x := by
  obtain ⟨numeral, spelled, denotes⟩ := decimal
  have ascii : ∀ c ∈ numeral.digits, c.isDigit := fun c mem => (spelled.mem_text c mem).1
  have scanned : scan? (text ++ []) = some (numeral, []) := scan?_append spelled.script (by simp)
  rw [List.append_nil] at scanned
  exact ⟨numeral, scanned, value?_eq_some_iff.mpr ⟨ascii, denotes⟩⟩

theorem not_goesOn_of_baseMark (marked : BaseMark mark base) : goesOn mark = false := by
  obtain marked | marked | marked := marked
  all_goals
    obtain rfl | rfl := marked
    all_goals decide

/-- No more than the zero is scanned of a count in another base. -/
theorem BasedText.exists_scan (based : BasedText text x) :
    ∃ numeral mark digits, scan? text = some (numeral, mark :: digits) := by
  obtain ⟨marked, -, -, -⟩ := based
  rename_i mark base digits
  have zero : Spells isScriptDigit (.decimal false ['0'] [] false []) ['0'] :=
    .decimal .none (.whole ⟨List.cons_ne_nil _ _, List.forall_mem_singleton.mpr rfl⟩) .none
  have stop : ∀ c ∈ (mark :: digits).head?, goesOn c = false := by
    rintro _ ⟨⟩
    exact not_goesOn_of_baseMark marked
  exact ⟨_, mark, digits, scan?_append zero stop⟩

theorem decimalText_of_scan (scanned : scan? text = some (numeral, []))
    (value : numeral.value? = some x) : DecimalText text x := by
  obtain ⟨front, spelled, rfl⟩ := exists_spelling scanned
  obtain ⟨ascii, denotes⟩ := value?_eq_some_iff.mp value
  rw [List.append_nil]
  exact ⟨numeral, spelled.restrict ascii, denotes⟩

/-- Texts read as numbers are the numerals of ASCII digits and the counts in another base. -/
theorem read?_eq_some_iff : read? text = some x ↔ DecimalText text x ∨ BasedText text x := by
  unfold read?
  constructor
  · intro value
    split at value
    · rename_i scanned
      exact .inl (decimalText_of_scan scanned value)
    · exact .inr (based?_eq_some_iff.mp value)
  · rintro (decimal | based)
    · obtain ⟨numeral, scanned, value⟩ := decimal.exists_scan
      rw [scanned]
      exact value
    · obtain ⟨numeral, mark, digits, scanned⟩ := based.exists_scan
      rw [scanned]
      exact based?_eq_some_iff.mpr based

end Texts

/-! ### Numerals in front of texts -/

/-- The longest numeral of ASCII digits in front of a text, and the number it denotes. -/
structure LongestInFront (text front : List Char) (x : Number) : Prop where
  inFront : front <+: text
  decimal : DecimalText front x
  longest : ∀ other y, other <+: text → DecimalText other y → other.length ≤ front.length

section InFront

variable {text front rest : List Char} {numeral : Numeral} {x y : Number}

theorem DecimalText.unique (decimalX : DecimalText text x) (decimalY : DecimalText text y) :
    x = y := by
  obtain ⟨numeral, scanned, valueX⟩ := decimalX.exists_scan
  obtain ⟨other, scannedY, valueY⟩ := decimalY.exists_scan
  obtain rfl : numeral = other := by simpa using scanned.symm.trans scannedY
  exact Option.some.inj (valueX.symm.trans valueY)

theorem LongestInFront.unique {other : List Char} (longestX : LongestInFront text front x)
    (longestY : LongestInFront text other y) : x = y := by
  have length : front.length = other.length :=
    le_antisymm (longestY.longest front x longestX.inFront longestX.decimal)
      (longestX.longest other y longestY.inFront longestY.decimal)
  have within : front <+: other :=
    List.prefix_of_prefix_length_le longestX.inFront longestY.inFront length.le
  have same : front = other := within.eq_of_length length
  exact longestX.decimal.unique (same ▸ longestY.decimal)

theorem exists_value (ascii : ∀ c ∈ numeral.digits, c.isDigit) : ∃ x, numeral.value? = some x := by
  cases numeral with
  | infinity negative => exact ⟨_, rfl⟩
  | decimal => exact ⟨_, if_pos (List.all_eq_true.mpr ascii)⟩

/-- What is scanned in front of a text without digits of other scripts is the longest numeral. -/
theorem exists_longestInFront (ascii : ∀ c ∈ text, isScriptDigit c → c.isDigit)
    (scanned : scan? text = some (numeral, rest)) :
    ∃ front x, LongestInFront text front x ∧ numeral.value? = some x := by
  obtain ⟨front, spelled, rfl⟩ := exists_spelling scanned
  have digits : ∀ c ∈ numeral.digits, c.isDigit := by
    intro c mem
    obtain ⟨digit, mem⟩ := spelled.mem_text c mem
    exact ascii c (List.mem_append_left rest mem) digit
  obtain ⟨x, value⟩ := exists_value digits
  refine ⟨front, x, ⟨List.prefix_append front rest, ?_, ?_⟩, value⟩
  · exact ⟨numeral, spelled.restrict digits, (value?_eq_some_iff.mp value).2⟩
  · rintro other y ⟨more, shape⟩ ⟨_, spelledOther, -⟩
    obtain ⟨longer, after, scannedOther, within⟩ := scan?_takes spelledOther.script more
    rw [shape, scanned] at scannedOther
    obtain ⟨-, rfl⟩ : numeral = longer ∧ rest = after := by simpa using scannedOther
    have lengths := congrArg List.length shape
    rw [List.length_append, List.length_append] at lengths
    have := within.length_le
    omega

/-- Nothing is scanned only of a text with no numeral in front. -/
theorem not_decimalText_of_scan (scanned : scan? text = none) (inFront : front <+: text) :
    ¬ DecimalText front x := by
  rintro ⟨_, spelled, -⟩
  obtain ⟨more, rfl⟩ := inFront
  obtain ⟨_, _, scannedMore, -⟩ := scan?_takes spelled.script more
  rw [scanned] at scannedMore
  cases scannedMore

theorem readFront_eq_nan (numberless : ∀ front x, front <+: text → ¬ DecimalText front x) :
    readFront text = .nan := by
  unfold readFront
  cases scanned : scan? text with
  | none => rfl
  | some found =>
    obtain ⟨numeral, rest⟩ := found
    cases value : numeral.value? with
    | none => simp only [value, Option.getD_none]
    | some x =>
      obtain ⟨front, spelled, rfl⟩ := exists_spelling scanned
      obtain ⟨ascii, denotes⟩ := value?_eq_some_iff.mp value
      exact absurd ⟨numeral, spelled.restrict ascii, denotes⟩
        (numberless front x (List.prefix_append front rest))

/-- A text without digits of other scripts is read in front as its longest numeral there. -/
theorem readFront_eq_iff (ascii : ∀ c ∈ text, isScriptDigit c → c.isDigit) :
    readFront text = x ↔
      (∃ front, LongestInFront text front x) ∨
        ((∀ front y, front <+: text → ¬ DecimalText front y) ∧ x = .nan) := by
  unfold readFront
  cases scanned : scan? text with
  | none =>
    have unread : ∀ front y, front <+: text → ¬ DecimalText front y := fun _ _ inFront =>
      not_decimalText_of_scan scanned inFront
    constructor
    · rintro rfl
      exact .inr ⟨unread, rfl⟩
    · rintro (⟨front, longest⟩ | ⟨-, rfl⟩)
      · exact absurd longest.decimal (unread front x longest.inFront)
      · rfl
  | some found =>
    obtain ⟨numeral, rest⟩ := found
    obtain ⟨front, y, longest, value⟩ := exists_longestInFront ascii scanned
    dsimp only
    rw [value, Option.getD_some]
    constructor
    · rintro rfl
      exact .inl ⟨front, longest⟩
    · rintro (⟨_, other⟩ | ⟨unread, -⟩)
      · exact longest.unique other
      · exact absurd longest.decimal (unread front y longest.inFront)

end InFront

end Numeral

end TableQuery
