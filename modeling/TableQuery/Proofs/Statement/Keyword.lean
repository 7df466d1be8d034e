import TableQuery.Proofs.Statement.Language

/-! Where keywords stand. -/
namespace TableQuery

theorem not_isWordChar_of_isBlank {c : Char} (h : isBlank c) : isWordChar c = false := by
  have codes : ∀ n ∈ blankCodes, isWordChar (Char.ofNat n) = false := by decide +kernel
  simpa only [Char.ofNat_toNat] using codes c.toNat (mem_blankCodes h)

theorem not_isBlank_of_isWordChar {c : Char} (h : isWordChar c) : isBlank c = false :=
  eq_false_of_apart not_isWordChar_of_isBlank h

theorem isLower_or_toUpper_eq (c : Char) : c.isLower ∨ c.toUpper = c := by
  by_cases h : 'a'.val ≤ c.val ∧ c.val ≤ 'z'.val
  · exact .inl (by simpa [Char.isLower] using h)
  · exact .inr (by simp only [Char.toUpper, dif_neg h])

theorem isWordChar_of_isAlpha {c : Char} (h : c.isAlpha) : isWordChar c := by
  have small : c.toNat < 0x80 := by
    simp only [Char.isAlpha, Char.isUpper, Char.isLower, Bool.or_eq_true, Bool.and_eq_true,
      decide_eq_true_eq, ge_iff_le, UInt32.le_iff_toNat_le] at h
    change c.val.toNat < 0x80
    have hA : 'Z'.val.toNat = 90 := rfl
    have ha : 'z'.val.toNat = 122 := rfl
    omega
  simp [isWordChar, isAlphanumeric, small, Char.isAlphanum, h]

theorem isWordChar_of_isUpper_toUpper {c : Char} (h : c.toUpper.isUpper) : isWordChar c := by
  apply isWordChar_of_isAlpha
  rcases isLower_or_toUpper_eq c with lower | same
  · simp [Char.isAlpha, lower]
  · rw [same] at h
    simp [Char.isAlpha, h]

theorem isUpper_toUpper {c : Char} (h : c.isLower) : c.toUpper.isUpper := by
  have codes : ∀ n < 123, (Char.ofNat n).isLower → (Char.ofNat n).toUpper.isUpper := by decide +kernel
  have small : c.toNat < 123 := by
    simp only [Char.isLower, Bool.and_eq_true, decide_eq_true_eq, UInt32.le_iff_toNat_le] at h
    have ha : 'z'.val.toNat = 122 := rfl
    change c.val.toNat < 123
    omega
  have := codes c.toNat small
  rw [Char.ofNat_toNat] at this
  exact this h

/-- Only lower case letters are changed, and they become upper case letters. -/
theorem eq_of_toUpper_eq {c d : Char} (h : c.toUpper = d) (plain : d.isUpper = false) : c = d := by
  rcases isLower_or_toUpper_eq c with lower | same
  · have := isUpper_toUpper lower
    simp [h, plain] at this
  · exact same.symm.trans h

namespace Keyword

theorem after?_eq_some_iff {word text rest : List Char} :
    after? word text = some rest ↔ ∃ w, text = w ++ rest ∧ w.map Char.toUpper = word := by
  induction word generalizing text with
  | nil =>
    simp only [after?, Option.some.injEq, List.map_eq_nil_iff]
    constructor
    · intro h
      exact ⟨[], by simp [h]⟩
    · rintro ⟨w, rfl, rfl⟩
      rfl
  | cons expected word ih =>
    cases text with
    | nil =>
      simp only [after?, reduceCtorEq, false_iff, not_exists]
      rintro w ⟨empty, upper⟩
      simp [(List.append_eq_nil_iff.mp empty.symm).1] at upper
    | cons c text =>
      simp only [after?, Option.ite_none_right_eq_some, ih]
      constructor
      · rintro ⟨same, w, rfl, upper⟩
        exact ⟨c :: w, rfl, by simp [same, upper]⟩
      · rintro ⟨w, split, upper⟩
        cases w with
        | nil => simp at upper
        | cons d w =>
          simp only [List.cons_append, List.cons.injEq, List.map_cons] at split upper
          obtain ⟨rfl, rfl⟩ := split
          exact ⟨upper.1, w, rfl, upper.2⟩

def mayPrecede (keyword : Keyword) : List Char → Bool
  | [] => keyword.endAfter
  | next :: _ => (!keyword.blankAfter && keyword.marksAfter.isEmpty) ||
      (keyword.blankAfter && isBlank next) || keyword.marksAfter.contains next

theorem isFront_iff {keyword : Keyword} {text : List Char} :
    keyword.isFront text ↔
      ∃ w ∈ keyword.spellings, ∃ rest, text = w ++ rest ∧ keyword.mayPrecede rest := by
  have step : keyword.isFront text ↔
      ∃ rest, after? keyword.word text = some rest ∧ keyword.mayPrecede rest := by
    unfold isFront
    cases after? keyword.word text with
    | none => simp
    | some rest => cases rest <;> simp [mayPrecede]
  rw [step]
  simp only [after?_eq_some_iff]
  constructor
  · rintro ⟨rest, ⟨w, split, upper⟩, fits⟩
    exact ⟨w, upper, rest, split, fits⟩
  · rintro ⟨w, upper, rest, split, fits⟩
    exact ⟨rest, ⟨w, split, upper⟩, fits⟩

end Keyword
end TableQuery
