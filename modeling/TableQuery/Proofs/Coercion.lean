import TableQuery.Proofs.Number.Reading

/-! What text stands for. A condition takes a literal that is wholly a numeral as the number nearest
to it, and any other as text; an aggregate takes the longest numeral in front. The two agree on text
that is wholly a decimal numeral. -/
namespace TableQuery

section Quotes

variable {quote : Char} {text inner : List Char}

inductive Unquoted : List Char → List Char → Prop where
  | layer {quote : Char} (mark : quote = '\'' ∨ quote = '"') (inner : List Char) :
      Unquoted (quote :: (inner ++ [quote])) inner
  | lone {quote : Char} (mark : quote = '\'' ∨ quote = '"') : Unquoted [quote] []
  | bare {text : List Char} (unmatched : ∀ quote, quote = '\'' ∨ quote = '"' →
      ¬ (text.head? = some quote ∧ text.getLast? = some quote)) : Unquoted text text

theorem isQuotedBy_iff :
    isQuotedBy quote text ↔ text.head? = some quote ∧ text.getLast? = some quote := by
  simp [isQuotedBy]

theorem unquoteChars_of_quoted (mark : quote = '\'' ∨ quote = '"')
    (quoted : isQuotedBy quote text) : unquoteChars text = text.tail.dropLast := by
  obtain rfl | rfl := mark
  · simp [unquoteChars, quoted]
  · simp [unquoteChars, quoted]

theorem unquoteChars_of_bare (unmatched : ∀ quote, quote = '\'' ∨ quote = '"' →
    ¬ (text.head? = some quote ∧ text.getLast? = some quote)) : unquoteChars text = text := by
  have single : ¬ isQuotedBy '\'' text := fun quoted =>
    unmatched _ (.inl rfl) (isQuotedBy_iff.mp quoted)
  have double : ¬ isQuotedBy '"' text := fun quoted =>
    unmatched _ (.inr rfl) (isQuotedBy_iff.mp quoted)
  simp [unquoteChars, single, double]

theorem unquoted_of_quoted (mark : quote = '\'' ∨ quote = '"') (quoted : isQuotedBy quote text) :
    Unquoted text text.tail.dropLast := by
  obtain ⟨first, last⟩ := isQuotedBy_iff.mp quoted
  cases text with
  | nil => cases first
  | cons c rest =>
    cases first
    rcases List.eq_nil_or_concat rest with rfl | ⟨inner, d, rfl⟩
    · exact .lone mark
    · rw [List.concat_eq_append, ← List.cons_append, List.getLast?_concat] at last
      cases last
      rw [List.concat_eq_append, List.tail_cons, List.dropLast_concat]
      exact .layer mark inner

/-- One layer of matching quotes is taken off, and nothing else. -/
theorem unquoted_iff : Unquoted text inner ↔ inner = unquoteChars text := by
  constructor
  · intro unquoted
    cases unquoted with
    | layer mark =>
      rename_i quote
      have quoted : isQuotedBy quote (quote :: (inner ++ [quote])) := by
        rw [isQuotedBy_iff, ← List.cons_append, List.getLast?_concat]
        exact ⟨rfl, rfl⟩
      rw [unquoteChars_of_quoted mark quoted, List.tail_cons, List.dropLast_concat]
    | lone mark => rw [unquoteChars_of_quoted mark (isQuotedBy_iff.mpr ⟨rfl, rfl⟩)]; rfl
    | bare unmatched => exact (unquoteChars_of_bare unmatched).symm
  · rintro rfl
    by_cases matched : ∃ quote, (quote = '\'' ∨ quote = '"') ∧ isQuotedBy quote text
    · obtain ⟨quote, mark, quoted⟩ := matched
      rw [unquoteChars_of_quoted mark quoted]
      exact unquoted_of_quoted mark quoted
    · have unmatched : ∀ quote, quote = '\'' ∨ quote = '"' →
          ¬ (text.head? = some quote ∧ text.getLast? = some quote) := fun quote mark both =>
        matched ⟨quote, mark, isQuotedBy_iff.mpr both⟩
      rw [unquoteChars_of_bare unmatched]
      exact .bare unmatched

end Quotes

section Blanks

variable {c : Char}

/-- Text without the blanks in front is what it is without those behind, and blanks. -/
theorem exists_blanks (text : List Char) :
    ∃ blanks, trimStart text = trim text ++ blanks ∧ ∀ c ∈ blanks, isBlank c := by
  refine ⟨((trimStart text).reverse.takeWhile isBlank).reverse, ?_, ?_⟩
  · rw [trim, ← List.reverse_append]
    simp only [trimStart, List.takeWhile_append_dropWhile, List.reverse_reverse]
  · intro c mem
    exact List.all_eq_true.mp List.all_takeWhile c (List.mem_reverse.mp mem)

/-- No numeral goes on with a blank. -/
theorem not_goesOn_of_isBlank (blank : isBlank c) : Numeral.goesOn c = false := by
  have codes : ∀ n ∈ blankCodes, Numeral.goesOn (Char.ofNat n) = false := by decide +kernel
  simpa only [Char.ofNat_toNat] using codes c.toNat (mem_blankCodes blank)

end Blanks

namespace Numeral

/-- Text that is wholly a number as written: a decimal numeral or a count in another base. -/
def NumericText (text : List Char) (x : Number) : Prop := DecimalText text x ∨ BasedText text x

end Numeral

open Numeral

theorem parseNumeric?_eq_some_iff {s : String} {x : Number} :
    parseNumeric? s = some x ↔ NumericText (trim s.toList) x :=
  read?_eq_some_iff

namespace Value

theorem ofLiteral_of_some {raw : String} {x : Number}
    (told : parseNumeric? (unquote raw) = some x) : ofLiteral raw = .number x := by
  unfold ofLiteral
  simp only [told]

theorem ofLiteral_of_none {raw : String} (told : parseNumeric? (unquote raw) = none) :
    ofLiteral raw = .text (unquote raw) := by
  unfold ofLiteral
  simp only [told]

/-- A literal stands for a number if it is one as written but for one layer of quotes and the blanks
within them, and then for the number nearest to it; else for the text that the quotes enclose. -/
theorem ofLiteral_eq_iff (raw : String) :
    (∀ inner, Unquoted raw.toList inner ↔ inner = (unquote raw).toList) ∧
      (∀ x, ofLiteral raw = .number x ↔ NumericText (trim (unquote raw).toList) x) ∧
      (ofLiteral raw = .text (unquote raw) ↔ ∀ x, ¬ NumericText (trim (unquote raw).toList) x) := by
  refine ⟨fun inner => ?_, ?_⟩
  · rw [unquoted_iff, unquote, String.toList_ofList]
  · simp only [← parseNumeric?_eq_some_iff]
    cases told : parseNumeric? (unquote raw) with
    | some y =>
      rw [ofLiteral_of_some told]
      refine ⟨fun x => ?_, ?_⟩
      · rw [number.injEq, Option.some.injEq]
      · exact ⟨fun same => (nomatch same), fun none => absurd rfl (none y)⟩
    | none =>
      rw [ofLiteral_of_none told]
      refine ⟨fun x => ?_, ?_⟩
      · exact ⟨fun same => (nomatch same), fun same => (nomatch same)⟩
      · exact ⟨fun _ _ same => (nomatch same), fun _ => rfl⟩

/-- An aggregate takes a decimal numeral as a condition takes it. -/
theorem amount_of_decimalText {s : String} {x : Number} (decimal : DecimalText (trim s.toList) x) :
    (text s).amount = x := by
  obtain ⟨blanks, shape, blank⟩ := exists_blanks s.toList
  obtain ⟨numeral, spelled, denotes⟩ := decimal
  have digits : ∀ c ∈ numeral.digits, c.isDigit := fun c mem => (spelled.mem_text c mem).1
  have stop : ∀ c ∈ blanks.head?, goesOn c = false := fun c head =>
    not_goesOn_of_isBlank (blank c (List.mem_of_mem_head? head))
  have scanned : scan? (trimStart s.toList) = some (numeral, blanks) := by
    rw [shape]
    exact scan?_append spelled.script stop
  simp only [amount, readFront, scanned, value?_eq_some_iff.mpr ⟨digits, denotes⟩]
  rfl

/-- An aggregate takes text whose digits are those of ASCII as the longest decimal numeral in front
of it, blanks aside, and as NaN when there is none. What a condition takes as a number that is no
count in another base it takes as the same number. -/
theorem amount_text_iff (s : String) (ascii : ∀ c ∈ s.toList, isScriptDigit c → c.isDigit) :
    (∀ x, (text s).amount = x ↔
        (∃ front, LongestInFront (trimStart s.toList) front x) ∨
          ((∀ front y, front <+: trimStart s.toList → ¬ DecimalText front y) ∧ x = .nan)) ∧
      ∀ x, parseNumeric? s = some x → (∀ y, ¬ BasedText (trim s.toList) y) →
        (text s).amount = x := by
  constructor
  · intro x
    exact readFront_eq_iff fun c mem => ascii c ((List.dropWhile_suffix isBlank).mem mem)
  · intro x told decimal
    rcases parseNumeric?_eq_some_iff.mp told with same | based
    · exact amount_of_decimalText same
    · exact absurd based (decimal x)

/-- With blanks on both sides. -/
theorem amount_padded :
    (∀ c ∈ " 1.5 ".toList, isScriptDigit c → c.isDigit) ∧
      ∃ x, parseNumeric? " 1.5 " = some x ∧ (text " 1.5 ").amount = x ∧
        ∃ front, LongestInFront (trimStart " 1.5 ".toList) front x := by
  have ascii : ∀ c ∈ " 1.5 ".toList, isScriptDigit c → c.isDigit := by
    have all : " 1.5 ".toList.all fun c => !isScriptDigit c || c.isDigit := by decide
    intro c mem digit
    simpa only [digit, Bool.not_true, Bool.false_or] using List.all_eq_true.mp all c mem
  obtain ⟨x, value⟩ : ∃ x, value? (.decimal false ['1'] ['5'] false []) = some x :=
    exists_value (List.all_eq_true.mp rfl)
  have told : parseNumeric? " 1.5 " = some x := value
  have unbased : ∀ y, ¬ BasedText (trim " 1.5 ".toList) y := by
    intro y based
    have trimmed : trim " 1.5 ".toList = ['1', '.', '5'] := by decide
    rw [trimmed] at based
    cases based
  have amount : (text " 1.5 ").amount = x := (amount_text_iff " 1.5 " ascii).2 x told unbased
  refine ⟨ascii, x, told, amount, ?_⟩
  rcases ((amount_text_iff " 1.5 " ascii).1 x).mp amount with longest | ⟨unread, -⟩
  · exact longest
  · obtain decimal | based := parseNumeric?_eq_some_iff.mp told
    · exact absurd decimal (unread _ x (by decide))
    · exact absurd based (unbased x)

end Value

end TableQuery
