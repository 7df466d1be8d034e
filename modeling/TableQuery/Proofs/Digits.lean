import Mathlib
import TableQuery.Text.Digit

/-! The numbers that digits spell: digits one after another, and the digits of a number. -/
namespace TableQuery

/-- The number that digits spell goes on from the digits before. -/
theorem ofDigits_append (base : Nat) (digits more : List Char) :
    ofDigits base (digits ++ more) =
      ofDigits base digits * base ^ more.length + ofDigits base more := by
  have from_ (start : Nat) : more.foldl (fun n c => n * base + digitValue c) start =
      start * base ^ more.length + ofDigits base more := by
    unfold ofDigits
    induction more using List.reverseRecOn with
    | nil => simp
    | append_singleton more c ih =>
      rw [List.foldl_append, List.foldl_append, ih]
      simp only [List.foldl_cons, List.foldl_nil, List.length_append, List.length_singleton]
      ring
  rw [ofDigits, List.foldl_append, from_]
  rfl

theorem ofDigits_zeros (base count : Nat) : ofDigits base (List.replicate count '0') = 0 := by
  induction count with
  | zero => rfl
  | succ count ih =>
    rw [List.replicate_succ', ofDigits_append, ih]
    simp [ofDigits, digitValue]

theorem ofDigits_eq_ofDigitChars {digits : List Char} (all : digits.all Char.isDigit) (n : Nat) :
    digits.foldl (fun n c => n * 10 + digitValue c) n = Nat.ofDigitChars 10 digits n := by
  induction digits generalizing n with
  | nil => rfl
  | cons c digits ih =>
    rw [List.all_cons, Bool.and_eq_true] at all
    rw [List.foldl_cons, Nat.ofDigitChars_cons, ih all.2, digitValue, if_pos all.1, Nat.mul_comm]

theorem all_isDigit_toDigits (n : Nat) : (Nat.toDigits 10 n).all Char.isDigit :=
  List.all_eq_true.mpr fun _ mem => Nat.isDigit_of_mem_toDigits (by decide) (by decide) mem

/-- The digits of a number spell it. -/
theorem ofDigits_toDigits (n : Nat) : ofDigits 10 (Nat.toDigits 10 n) = n := by
  rw [ofDigits, ofDigits_eq_ofDigitChars (all_isDigit_toDigits n), Nat.ofDigitChars_ten_toDigits]

end TableQuery
