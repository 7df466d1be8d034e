import TableQuery.Coercion
import TableQuery.Proofs.Runs

/-! The plain text of a number is a numeral, read to its end. It has a sign at most, digits, and a
point between digits or none. -/
namespace TableQuery

section Characters

variable {c : Char}

theorem isScriptDigit_of_isDigit (digit : c.isDigit) : isScriptDigit c := by
  simp [isScriptDigit, digit]

theorem not_isBlank_of_isDigit (digit : c.isDigit) : isBlank c = false := by
  have bounds : 48 ≤ c.toNat ∧ c.toNat ≤ 57 := by
    simpa [Char.isDigit, UInt32.le_iff_toNat_le] using digit
  simp [isBlank]
  omega

theorem trim_of_not_isBlank {text : List Char} (solid : ∀ c ∈ text, isBlank c = false) :
    trim text = text := by
  have kept {cs : List Char} (solid : ∀ c ∈ cs, isBlank c = false) : trimStart cs = cs := by
    rw [trimStart, List.dropWhile_eq_self_iff]
    intro nonempty
    simp [solid _ (List.getElem_mem nonempty)]
  have turned : ∀ c ∈ text.reverse, isBlank c = false := fun c mem =>
    solid c (List.mem_reverse.mp mem)
  rw [trim, kept solid, kept turned, List.reverse_reverse]

end Characters

/-- A fraction with the point before it, or nothing at all. -/
def pointed : List Char → List Char
  | [] => []
  | fraction => '.' :: fraction

theorem pointed_of_ne_nil {fraction : List Char} (given : fraction ≠ []) :
    pointed fraction = '.' :: fraction := by
  obtain ⟨c, rest, rfl⟩ := List.exists_cons_of_ne_nil given
  rfl

structure PointedDigits (whole fraction : List Char) : Prop where
  someWhole : whole ≠ []
  whole : ∀ c ∈ whole, c.isDigit
  fraction : ∀ c ∈ fraction, c.isDigit

theorem PointedDigits.eq_or_isDigit {whole fraction : List Char} {c : Char}
    (digits : PointedDigits whole fraction) (mem : c ∈ whole ++ pointed fraction) :
    c = '.' ∨ c.isDigit := by
  rcases List.mem_append.mp mem with mem | mem
  · exact .inr (digits.whole c mem)
  · cases fraction with
    | nil => cases mem
    | cons first rest => exact (List.mem_cons.mp mem).imp id (digits.fraction c)

namespace Decimal

/-- The digits before the point of positional writing and those after it. -/
def parts (d : Decimal) : List Char × List Char :=
  let cs := d.digitChars
  match d.exponent with
  | .ofNat e => (cs ++ List.replicate e '0', [])
  | .negSucc e =>
    let places := e + 1
    if places < cs.length then (cs.take (cs.length - places), cs.drop (cs.length - places))
    else (['0'], List.replicate (places - cs.length) '0' ++ cs)

theorem digitChars_ne_nil (d : Decimal) : d.digitChars ≠ [] := Nat.toDigits_ne_nil

theorem isDigit_of_mem_digitChars {d : Decimal} {c : Char} (mem : c ∈ d.digitChars) : c.isDigit :=
  Nat.isDigit_of_mem_toDigits (by decide) (by decide) mem

theorem positional_eq (d : Decimal) : d.positional = d.parts.1 ++ pointed d.parts.2 := by
  cases exponent : d.exponent with
  | ofNat e =>
    simp only [positional, parts, exponent]
    exact (List.append_nil _).symm
  | negSucc e =>
    by_cases fewer : e + 1 < d.digitChars.length
    · have given : d.digitChars.drop (d.digitChars.length - (e + 1)) ≠ [] := by
        rw [ne_eq, List.drop_eq_nil_iff]
        omega
      simp only [positional, parts, exponent, fewer, if_true, pointed_of_ne_nil given]
    · have given : List.replicate (e + 1 - d.digitChars.length) '0' ++ d.digitChars ≠ [] :=
        List.append_ne_nil_of_right_ne_nil _ d.digitChars_ne_nil
      simp only [positional, parts, exponent, fewer, if_false, pointed_of_ne_nil given]
      rfl

theorem pointedDigits_parts (d : Decimal) : PointedDigits d.parts.1 d.parts.2 := by
  have zeros {n : Nat} {c : Char} (mem : c ∈ List.replicate n '0') : c.isDigit := by
    rw [List.eq_of_mem_replicate mem]
    decide
  cases exponent : d.exponent with
  | ofNat e =>
    simp only [parts, exponent]
    refine ⟨List.append_ne_nil_of_left_ne_nil d.digitChars_ne_nil _, fun c mem => ?_, by simp⟩
    rcases List.mem_append.mp mem with mem | mem
    · exact isDigit_of_mem_digitChars mem
    · exact zeros mem
  | negSucc e =>
    by_cases fewer : e + 1 < d.digitChars.length
    · simp only [parts, exponent, fewer, if_true]
      refine ⟨?_, fun c mem => ?_, fun c mem => ?_⟩
      · rw [← List.length_pos_iff, List.length_take]
        omega
      · exact isDigit_of_mem_digitChars (List.mem_of_mem_take mem)
      · exact isDigit_of_mem_digitChars (List.mem_of_mem_drop mem)
    · simp only [parts, exponent, fewer, if_false]
      refine ⟨List.cons_ne_nil _ _, List.forall_mem_singleton.mpr rfl, fun c mem => ?_⟩
      rcases List.mem_append.mp mem with mem | mem
      · exact zeros mem
      · exact isDigit_of_mem_digitChars mem

end Decimal

namespace Numeral

variable {negative : Bool} {whole fraction rest : List Char}

theorem scanDigits_append (digits : ∀ c ∈ whole, c.isDigit)
    (stop : ∀ c ∈ rest.head?, isScriptDigit c = false) :
    scanDigits (whole ++ rest) = (whole, rest) := by
  have run : ∀ c ∈ whole, isScriptDigit c := fun c mem => isScriptDigit_of_isDigit (digits c mem)
  rw [scanDigits, takeWhile_append_of_stop run stop, dropWhile_append_of_stop run stop]

theorem scanDigits_of_digits (digits : ∀ c ∈ whole, c.isDigit) :
    scanDigits whole = (whole, []) := by
  have scanned : scanDigits (whole ++ []) = (whole, []) := scanDigits_append digits (by simp)
  rwa [List.append_nil] at scanned

theorem scanMantissa_pointed (digits : PointedDigits whole fraction) :
    scanMantissa (whole ++ pointed fraction) = some (whole, fraction, []) := by
  have someWhole : whole.isEmpty = false := by simpa using digits.someWhole
  unfold scanMantissa
  cases fraction with
  | nil =>
    rw [pointed, List.append_nil, scanDigits_of_digits digits.whole]
    simp [someWhole]
  | cons c rest =>
    have stop : ∀ c' ∈ ('.' :: c :: rest).head?, isScriptDigit c' = false := by
      rintro _ ⟨⟩
      decide
    rw [pointed_of_ne_nil (List.cons_ne_nil c rest), scanDigits_append digits.whole stop]
    simp [scanDigits_of_digits digits.fraction, someWhole]

/-- The first character is a digit, and so neither a sign nor a letter. -/
theorem head_pointed (digits : PointedDigits whole fraction) :
    ∃ c text, whole ++ pointed fraction = c :: text ∧ c.isDigit := by
  obtain ⟨c, text, rfl⟩ := List.exists_cons_of_ne_nil digits.someWhole
  exact ⟨c, _, rfl, digits.whole c List.mem_cons_self⟩

theorem scanSign_withSign (digits : PointedDigits whole fraction) :
    scanSign (Number.withSign negative (whole ++ pointed fraction)) =
      (negative, whole ++ pointed fraction) := by
  cases negative with
  | true => rfl
  | false =>
    obtain ⟨c, text, same, digit⟩ := head_pointed digits
    change scanSign (whole ++ pointed fraction) = _
    rw [same]
    unfold scanSign
    split
    · rename_i sign
      obtain ⟨rfl, -⟩ := List.cons.inj sign
      cases digit
    · rename_i sign
      obtain ⟨rfl, -⟩ := List.cons.inj sign
      cases digit
    · rfl

/-- Digits with a sign at most are one decimal numeral. -/
theorem scan?_pointed (digits : PointedDigits whole fraction) :
    scan? (Number.withSign negative (whole ++ pointed fraction)) =
      some (.decimal negative whole fraction false [], []) := by
  have letterless : "Infinity".toList.isPrefixOf (whole ++ pointed fraction) = false := by
    obtain ⟨c, text, same, digit⟩ := head_pointed digits
    have letters : "Infinity".toList = ['I', 'n', 'f', 'i', 'n', 'i', 't', 'y'] := by decide
    have unlike : ('I' == c) = false := by
      rw [beq_eq_false_iff_ne]
      rintro rfl
      cases digit
    rw [same, letters, List.isPrefixOf_cons_cons, unlike, Bool.false_and]
  simp only [scan?, scanSign_withSign digits, letterless, Bool.false_eq_true, if_false,
    scanMantissa_pointed digits]
  rfl

theorem value?_pointed (digits : PointedDigits whole fraction) :
    value? (.decimal negative whole fraction false []) =
      some (Decimal.toNumber negative ⟨ofDigits 10 (whole ++ fraction), -fraction.length⟩) := by
  have ascii : (whole ++ fraction ++ []).all Char.isDigit := by
    simp only [List.append_nil, List.all_append, Bool.and_eq_true, List.all_eq_true]
    exact ⟨digits.whole, digits.fraction⟩
  have unmoved : ((ofDigits 10 [] : Nat) : Int) - fraction.length = -fraction.length :=
    Int.zero_sub _
  simp only [value?, ascii, if_true, Bool.false_eq_true, if_false, unmoved]

/-- Digits with a sign at most are read as the number that they count, in units of the last. -/
theorem read?_pointed (digits : PointedDigits whole fraction) :
    read? (Number.withSign negative (whole ++ pointed fraction)) =
      some (Decimal.toNumber negative ⟨ofDigits 10 (whole ++ fraction), -fraction.length⟩) := by
  rw [read?, scan?_pointed digits]
  exact value?_pointed digits

end Numeral

namespace Number

/-- The text of a finite number: digits with a point between them or with none, after a sign or
none. -/
theorem exists_finitePlain_eq (negative : Bool) (size : Magnitude) :
    ∃ sign whole fraction, finitePlain negative size = withSign sign (whole ++ pointed fraction) ∧
      PointedDigits whole fraction := by
  have shortest : ∃ sign whole fraction,
      withSign negative (Decimal.shortest .upper size).positional =
        withSign sign (whole ++ pointed fraction) ∧ PointedDigits whole fraction :=
    ⟨negative, _, _, by rw [Decimal.positional_eq], Decimal.pointedDigits_parts _⟩
  have wholeDigits (n : Nat) : PointedDigits (Nat.toDigits 10 n) [] :=
    ⟨Nat.toDigits_ne_nil, fun c mem => Nat.isDigit_of_mem_toDigits (by decide) (by decide) mem,
      by simp⟩
  unfold finitePlain
  split
  · rename_i n _
    split
    · refine ⟨negative && n != 0, _, [], ?_, wholeDigits n⟩
      rw [wholeText, withSign, pointed, List.append_nil]
    · exact shortest
  · exact shortest

/-- The characters of a finite number's text are those of its digits, its sign and its point. -/
theorem mem_finitePlain {negative : Bool} {size : Magnitude} {c : Char}
    (mem : c ∈ finitePlain negative size) : c = '-' ∨ c = '.' ∨ c.isDigit := by
  obtain ⟨sign, whole, fraction, same, digits⟩ := exists_finitePlain_eq negative size
  rw [same] at mem
  cases sign with
  | false => exact .inr (digits.eq_or_isDigit mem)
  | true => exact (List.mem_cons.mp mem).imp id digits.eq_or_isDigit

theorem not_isBlank_of_mem_finitePlain {negative : Bool} {size : Magnitude} {c : Char}
    (mem : c ∈ finitePlain negative size) : isBlank c = false := by
  obtain rfl | rfl | digit := mem_finitePlain mem
  · rfl
  · rfl
  · exact not_isBlank_of_isDigit digit

theorem parseNumeric?_plain (negative : Bool) (size : Magnitude) :
    parseNumeric? (finite negative size).plain = Numeral.read? (finitePlain negative size) := by
  have bare : trim (finitePlain negative size) = finitePlain negative size :=
    trim_of_not_isBlank fun c mem => not_isBlank_of_mem_finitePlain mem
  rw [plain, parseNumeric?, String.toList_ofList, bare]

/-- The plain text of a number that is one is a numeral from end to end. -/
theorem isSome_parseNumeric?_plain {x : Number} (proper : x.isNaN = false) :
    (parseNumeric? x.plain).isSome := by
  cases x with
  | nan => cases proper
  | infinite negative =>
    cases negative with
    | false => decide
    | true => decide
  | finite negative size =>
    obtain ⟨sign, whole, fraction, same, digits⟩ := exists_finitePlain_eq negative size
    rw [parseNumeric?_plain, same, Numeral.read?_pointed digits]
    rfl

end Number

end TableQuery
