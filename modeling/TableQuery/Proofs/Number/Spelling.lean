import Mathlib
import TableQuery.Number.Numeral

/-! The spellings of numerals, and what a scan takes of a text: the spelling of a numeral in front,
and no less than any other spelling in front. -/
namespace TableQuery.Numeral

inductive SpellsSign : Bool → List Char → Prop where
  | none : SpellsSign false []
  | plus : SpellsSign false ['+']
  | minus : SpellsSign true ['-']

section Grammar

variable (digit : Char → Bool)

structure IsRun (digits : List Char) : Prop where
  nonempty : digits ≠ []
  all : ∀ c ∈ digits, digit c

/-- Digits, or digits with a point before, between or after them. -/
inductive SpellsMantissa : (whole fraction : List Char) → List Char → Prop where
  | whole {whole : List Char} (digits : IsRun digit whole) : SpellsMantissa whole [] whole
  | pointed {whole fraction : List Char} (digits : IsRun digit (whole ++ fraction)) :
      SpellsMantissa whole fraction (whole ++ '.' :: fraction)

/-- A mark, a sign and digits, or nothing. -/
inductive SpellsPower : Bool → List Char → List Char → Prop where
  | none : SpellsPower false [] []
  | given {mark : Char} {negative : Bool} {sign power : List Char}
      (marked : mark = 'e' ∨ mark = 'E') (signed : SpellsSign negative sign)
      (digits : IsRun digit power) : SpellsPower negative power (mark :: (sign ++ power))

inductive Spells : Numeral → List Char → Prop where
  | infinity {negative : Bool} {sign : List Char} (signed : SpellsSign negative sign) :
      Spells (.infinity negative) (sign ++ "Infinity".toList)
  | decimal {negative powerNegative : Bool} {sign whole fraction mantissa power raised : List Char}
      (signed : SpellsSign negative sign) (pointed : SpellsMantissa digit whole fraction mantissa)
      (risen : SpellsPower digit powerNegative power raised) :
      Spells (.decimal negative whole fraction powerNegative power) (sign ++ (mantissa ++ raised))

end Grammar

section Equations

theorem scanMantissa_eq (text : List Char) :
    scanMantissa text =
      match (scanDigits text).2 with
      | '.' :: rest =>
        if (scanDigits text).1.isEmpty && (scanDigits rest).1.isEmpty then none
        else some ((scanDigits text).1, (scanDigits rest).1, (scanDigits rest).2)
      | _ =>
        if (scanDigits text).1.isEmpty then none
        else some ((scanDigits text).1, [], (scanDigits text).2) :=
  rfl

theorem scanPower_cons (mark : Char) (rest : List Char) :
    scanPower (mark :: rest) =
      if (mark == 'e' || mark == 'E') && !(scanDigits (scanSign rest).2).1.isEmpty then
        ((scanSign rest).1, scanDigits (scanSign rest).2)
      else (false, [], mark :: rest) :=
  rfl

theorem scan?_eq (text : List Char) :
    scan? text =
      if "Infinity".toList.isPrefixOf (scanSign text).2 then
        some (.infinity (scanSign text).1, (scanSign text).2.drop 8)
      else (scanMantissa (scanSign text).2).map fun (whole, fraction, rest) =>
        (.decimal (scanSign text).1 whole fraction (scanPower rest).1 (scanPower rest).2.1,
          (scanPower rest).2.2) :=
  rfl

end Equations

section Sound

variable {text rest whole fraction : List Char} {numeral : Numeral}

theorem exists_sign (text : List Char) :
    ∃ sign, SpellsSign (scanSign text).1 sign ∧ text = sign ++ (scanSign text).2 := by
  unfold scanSign
  split
  · exact ⟨['-'], .minus, rfl⟩
  · exact ⟨['+'], .plus, rfl⟩
  · exact ⟨[], .none, rfl⟩

theorem all_scanDigits (text : List Char) : ∀ c ∈ (scanDigits text).1, isScriptDigit c :=
  List.all_eq_true.mp List.all_takeWhile

theorem scanDigits_cut (text : List Char) : (scanDigits text).1 ++ (scanDigits text).2 = text :=
  List.takeWhile_append_dropWhile

theorem exists_mantissa (scanned : scanMantissa text = some (whole, fraction, rest)) :
    ∃ mantissa, SpellsMantissa isScriptDigit whole fraction mantissa ∧ text = mantissa ++ rest := by
  have digits := all_scanDigits text
  have cut := scanDigits_cut text
  rw [scanMantissa_eq] at scanned
  split at scanned
  · rename_i after point
    have decimals := all_scanDigits after
    have cutAfter := scanDigits_cut after
    rw [point] at cut
    split at scanned
    · cases scanned
    · rename_i some
      cases scanned
      refine ⟨_, .pointed ⟨?_, ?_⟩, ?_⟩
      · simpa using some
      · simpa only [List.forall_mem_append] using ⟨digits, decimals⟩
      · rw [List.append_assoc, List.cons_append, cutAfter, cut]
  · split at scanned
    · cases scanned
    · rename_i some
      cases scanned
      exact ⟨_, .whole ⟨by simpa using some, digits⟩, cut.symm⟩

theorem exists_power (text : List Char) :
    ∃ raised, SpellsPower isScriptDigit (scanPower text).1 (scanPower text).2.1 raised ∧
      text = raised ++ (scanPower text).2.2 := by
  cases text with
  | nil => exact ⟨[], .none, rfl⟩
  | cons mark rest =>
    rw [scanPower_cons]
    split
    · rename_i given
      obtain ⟨marked, some⟩ := Bool.and_eq_true_iff.mp given
      obtain ⟨sign, signed, shape⟩ := exists_sign rest
      refine ⟨_, .given (by simpa using marked) signed ⟨?_, all_scanDigits _⟩, ?_⟩
      · simpa using some
      · rw [List.cons_append, List.append_assoc, scanDigits_cut, ← shape]
    · exact ⟨[], .none, rfl⟩

/-- What is scanned is the spelling of a numeral in front of the text. -/
theorem exists_spelling (scanned : scan? text = some (numeral, rest)) :
    ∃ front, Spells isScriptDigit numeral front ∧ text = front ++ rest := by
  obtain ⟨sign, signed, shape⟩ := exists_sign text
  rw [scan?_eq] at scanned
  split at scanned
  · rename_i word
    obtain ⟨after, word⟩ := List.isPrefixOf_iff_prefix.mp word
    obtain ⟨rfl, rfl⟩ : _ ∧ _ := by simpa using scanned
    refine ⟨_, .infinity signed, ?_⟩
    rw [List.append_assoc, ← word]
    conv_lhs => rw [shape, ← word]
    rfl
  · obtain ⟨⟨whole, fraction, after⟩, pointed, same⟩ := Option.map_eq_some_iff.mp scanned
    obtain ⟨mantissa, spelled, cut⟩ := exists_mantissa pointed
    obtain ⟨raised, risen, cutAfter⟩ := exists_power after
    obtain ⟨rfl, rfl⟩ : _ ∧ _ := by simpa using same
    refine ⟨_, .decimal signed spelled risen, ?_⟩
    rw [List.append_assoc, List.append_assoc, ← cutAfter, ← cut, ← shape]

end Sound

section Complete

variable {digit : Char → Bool} {negative : Bool} {sign text front rest whole fraction : List Char}
  {numeral : Numeral}

/-- Characters that a numeral may go on with, where it might have ended. -/
def goesOn (c : Char) : Bool := isScriptDigit c || c == '.' || c == 'e' || c == 'E'

theorem goesOn_eq_false {c : Char} :
    goesOn c = false ↔ isScriptDigit c = false ∧ c ≠ '.' ∧ c ≠ 'e' ∧ c ≠ 'E' := by
  simp [goesOn, and_assoc]

theorem scanDigits_run (run : ∀ c ∈ whole, isScriptDigit c) (rest : List Char) :
    scanDigits (whole ++ rest) = (whole ++ (scanDigits rest).1, (scanDigits rest).2) := by
  rw [scanDigits, List.takeWhile_append_of_pos run, List.dropWhile_append_of_pos run]
  rfl

theorem scanDigits_of_stop (stop : ∀ c ∈ rest.head?, isScriptDigit c = false) :
    scanDigits rest = ([], rest) := by
  cases rest with
  | nil => rfl
  | cons c rest => simp [scanDigits, stop c rfl]

theorem scanDigits_suffix (text : List Char) : (scanDigits text).2 <:+ text :=
  List.dropWhile_suffix _

theorem scanSign_append (signed : SpellsSign negative sign)
    (unsigned : ∀ c ∈ rest.head?, c ≠ '-' ∧ c ≠ '+') :
    scanSign (sign ++ rest) = (negative, rest) := by
  cases signed with
  | plus => rfl
  | minus => rfl
  | none =>
    rw [List.nil_append]
    unfold scanSign
    split
    · exact absurd rfl (unsigned '-' rfl).1
    · exact absurd rfl (unsigned '+' rfl).2
    · rfl

/-- Digits up to a point, and those after it. -/
theorem scanMantissa_point (run : ∀ c ∈ whole, isScriptDigit c) (text : List Char) :
    scanMantissa (whole ++ '.' :: text) =
      if whole.isEmpty && (scanDigits text).1.isEmpty then none
      else some (whole, scanDigits text) := by
  have point : scanDigits ('.' :: text) = ([], '.' :: text) :=
    scanDigits_of_stop (by rintro _ ⟨⟩; decide)
  have digits : scanDigits (whole ++ '.' :: text) = (whole, '.' :: text) := by
    rw [scanDigits_run run, point, List.append_nil]
  rw [scanMantissa_eq, digits]
  rfl

theorem scanMantissa_append (pointed : SpellsMantissa isScriptDigit whole fraction front)
    (stop : ∀ c ∈ rest.head?, isScriptDigit c = false ∧ c ≠ '.') :
    scanMantissa (front ++ rest) = some (whole, fraction, rest) := by
  have digitless := scanDigits_of_stop fun c head => (stop c head).1
  cases pointed with
  | whole digits =>
    have given : front.isEmpty = false := by simpa using digits.nonempty
    rw [scanMantissa_eq, scanDigits_run digits.all, digitless]
    dsimp only
    rw [List.append_nil, given]
    split
    · exact absurd rfl (stop '.' rfl).2
    · rfl
  | pointed digits =>
    obtain ⟨digitsWhole, digitsFraction⟩ := List.forall_mem_append.mp digits.all
    have given : (whole.isEmpty && fraction.isEmpty) = false := by simpa using digits.nonempty
    rw [List.append_assoc, List.cons_append, scanMantissa_point digitsWhole,
      scanDigits_run digitsFraction, digitless]
    dsimp only
    rw [List.append_nil, given]
    rfl

/-- A scan takes no less than a mantissa in front. -/
theorem scanMantissa_takes (pointed : SpellsMantissa isScriptDigit whole fraction front)
    (rest : List Char) :
    ∃ digits decimals after,
      scanMantissa (front ++ rest) = some (digits, decimals, after) ∧ after <:+ rest := by
  have within := scanDigits_suffix rest
  cases pointed with
  | whole digits =>
    have given : (front ++ (scanDigits rest).1).isEmpty = false := by simp [digits.nonempty]
    rw [scanMantissa_eq, scanDigits_run digits.all]
    dsimp only
    rw [given]
    split
    · rename_i after point
      rw [point] at within
      exact ⟨_, _, _, rfl,
        (scanDigits_suffix after).trans ((List.suffix_cons '.' after).trans within)⟩
    · exact ⟨_, _, _, rfl, within⟩
  | pointed digits =>
    obtain ⟨digitsWhole, digitsFraction⟩ := List.forall_mem_append.mp digits.all
    have given : ¬ (whole.isEmpty && (fraction ++ (scanDigits rest).1).isEmpty) := by
      intro none
      obtain ⟨noWhole, noFraction, -⟩ : whole = [] ∧ fraction = [] ∧ _ := by simpa using none
      exact digits.nonempty (by rw [noWhole, noFraction, List.append_nil])
    rw [List.append_assoc, List.cons_append, scanMantissa_point digitsWhole,
      scanDigits_run digitsFraction, if_neg given]
    exact ⟨_, _, _, rfl, within⟩

theorem sign_free_of_isScriptDigit {c : Char} (digit : isScriptDigit c) : c ≠ '-' ∧ c ≠ '+' := by
  constructor
  all_goals
    rintro rfl
    revert digit
    decide

theorem scanPower_given {mark : Char} {power : List Char} (marked : mark = 'e' ∨ mark = 'E')
    (signed : SpellsSign negative sign) (digits : IsRun isScriptDigit power) (rest : List Char) :
    scanPower (mark :: (sign ++ power) ++ rest) =
      (negative, power ++ (scanDigits rest).1, (scanDigits rest).2) := by
  obtain ⟨c, tail, rfl⟩ := List.exists_cons_of_ne_nil digits.nonempty
  have unsigned : scanSign (sign ++ (c :: tail ++ rest)) = (negative, c :: tail ++ rest) :=
    scanSign_append signed (by
      rintro _ ⟨⟩
      exact sign_free_of_isScriptDigit (digits.all c List.mem_cons_self))
  rw [List.cons_append, List.append_assoc, scanPower_cons, unsigned]
  dsimp only
  rw [scanDigits_run digits.all, if_pos (by simpa using marked)]

theorem scanPower_append {power raised : List Char}
    (risen : SpellsPower isScriptDigit negative power raised)
    (stop : ∀ c ∈ rest.head?, goesOn c = false) :
    scanPower (raised ++ rest) = (negative, power, rest) := by
  cases risen with
  | none =>
    cases rest with
    | nil => rfl
    | cons c rest =>
      obtain ⟨-, -, lower, upper⟩ := goesOn_eq_false.mp (stop c rfl)
      rw [List.nil_append, scanPower_cons, if_neg (by simp [lower, upper])]
  | given marked signed digits =>
    rw [scanPower_given marked signed digits, scanDigits_of_stop fun c head =>
      (goesOn_eq_false.mp (stop c head)).1, List.append_nil]

/-- A mantissa ends where a power begins. -/
theorem stop_of_mark {mark : Char} (marked : mark = 'e' ∨ mark = 'E') :
    ∀ c ∈ (mark :: text).head?, isScriptDigit c = false ∧ c ≠ '.' := by
  rintro _ ⟨⟩
  obtain rfl | rfl := marked
  all_goals decide

theorem SpellsPower.stop {power raised : List Char}
    (risen : SpellsPower isScriptDigit negative power raised)
    (stop : ∀ c ∈ rest.head?, goesOn c = false) :
    ∀ c ∈ (raised ++ rest).head?, isScriptDigit c = false ∧ c ≠ '.' := by
  cases risen with
  | none =>
    intro c head
    obtain ⟨digitless, pointless, -⟩ := goesOn_eq_false.mp (stop c head)
    exact ⟨digitless, pointless⟩
  | given marked _ _ => exact stop_of_mark marked

/-- A scan takes no less than a power in front. -/
theorem scanPower_takes {power raised : List Char}
    (risen : SpellsPower isScriptDigit negative power raised) (rest : List Char) :
    (scanPower (raised ++ rest)).2.2 <:+ rest := by
  cases risen with
  | none =>
    obtain ⟨taken, -, shape⟩ := exists_power rest
    exact ⟨taken, shape.symm⟩
  | given marked signed digits =>
    rw [scanPower_given marked signed digits]
    exact scanDigits_suffix rest

theorem SpellsMantissa.exists_head (pointed : SpellsMantissa isScriptDigit whole fraction front) :
    ∃ c tail, front = c :: tail ∧ (isScriptDigit c ∨ c = '.') := by
  cases pointed with
  | whole digits =>
    obtain ⟨c, tail, rfl⟩ := List.exists_cons_of_ne_nil digits.nonempty
    exact ⟨c, tail, rfl, .inl (digits.all c List.mem_cons_self)⟩
  | pointed digits =>
    cases whole with
    | nil => exact ⟨'.', fraction, rfl, .inr rfl⟩
    | cons c tail => exact ⟨c, _, rfl, .inl (digits.all c List.mem_cons_self)⟩

theorem scan?_infinity (signed : SpellsSign negative sign) (rest : List Char) :
    scan? (sign ++ "Infinity".toList ++ rest) = some (.infinity negative, rest) := by
  have letters : "Infinity".toList = ['I', 'n', 'f', 'i', 'n', 'i', 't', 'y'] := by decide
  have unsigned : scanSign (sign ++ ("Infinity".toList ++ rest)) =
      (negative, "Infinity".toList ++ rest) :=
    scanSign_append signed (by rw [letters]; rintro _ ⟨⟩; decide)
  rw [List.append_assoc, scan?_eq, unsigned]
  dsimp only
  rw [if_pos (List.isPrefixOf_iff_prefix.mpr (List.prefix_append _ _)), letters]
  rfl

/-- After a sign and in front of a mantissa a scan goes on with the mantissa. -/
theorem scan?_mantissa (signed : SpellsSign negative sign)
    (pointed : SpellsMantissa isScriptDigit whole fraction front) (rest : List Char) :
    scan? (sign ++ (front ++ rest)) =
      (scanMantissa (front ++ rest)).map fun (whole, fraction, rest) =>
        (.decimal negative whole fraction (scanPower rest).1 (scanPower rest).2.1,
          (scanPower rest).2.2) := by
  obtain ⟨c, tail, rfl, first⟩ := pointed.exists_head
  have unsigned : scanSign (sign ++ (c :: tail ++ rest)) = (negative, c :: tail ++ rest) :=
    scanSign_append signed (by
      rintro _ ⟨⟩
      obtain digit | rfl := first
      · exact sign_free_of_isScriptDigit digit
      · decide)
  have letterless : ¬ "Infinity".toList.isPrefixOf (c :: tail ++ rest) := by
    have letters : "Infinity".toList = ['I', 'n', 'f', 'i', 'n', 'i', 't', 'y'] := by decide
    rw [letters, List.cons_append, List.isPrefixOf_cons_cons]
    intro same
    obtain rfl : 'I' = c := by
      simpa using (Bool.and_eq_true_iff.mp same).1
    revert first
    decide
  rw [scan?_eq, unsigned]
  dsimp only
  rw [if_neg letterless]

/-- A spelling of a numeral is scanned as that numeral, unless the text goes on as one may. -/
theorem scan?_append (spelled : Spells isScriptDigit numeral front)
    (stop : ∀ c ∈ rest.head?, goesOn c = false) : scan? (front ++ rest) = some (numeral, rest) := by
  cases spelled with
  | infinity signed => exact scan?_infinity signed rest
  | decimal signed pointed risen =>
    rw [List.append_assoc, List.append_assoc, scan?_mantissa signed pointed,
      scanMantissa_append pointed (risen.stop stop), Option.map_some]
    dsimp only
    rw [scanPower_append risen stop]

/-- A scan takes no less than any spelling of a numeral in front. -/
theorem scan?_takes (spelled : Spells isScriptDigit numeral front) (rest : List Char) :
    ∃ longer after, scan? (front ++ rest) = some (longer, after) ∧ after <:+ rest := by
  cases spelled with
  | infinity signed => exact ⟨_, rest, scan?_infinity signed rest, List.suffix_refl rest⟩
  | decimal signed pointed risen =>
    rw [List.append_assoc, List.append_assoc, scan?_mantissa signed pointed]
    have within := scanPower_takes risen rest
    cases risen with
    | none =>
      obtain ⟨digits, decimals, after, scanned, le⟩ := scanMantissa_takes pointed rest
      obtain ⟨taken, -, shape⟩ := exists_power after
      rw [List.nil_append, scanned]
      exact ⟨_, _, rfl, (List.IsSuffix.trans ⟨taken, shape.symm⟩ le)⟩
    | given marked _ _ =>
      rw [List.cons_append] at within ⊢
      rw [scanMantissa_append pointed (stop_of_mark marked)]
      exact ⟨_, _, rfl, within⟩

end Complete

end TableQuery.Numeral
