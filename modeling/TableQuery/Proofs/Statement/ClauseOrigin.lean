import TableQuery.Proofs.Statement.Origin

/-! What the reader of a clause gives stood in the text, from the keyword of the clause up to the
next one. -/
namespace TableQuery
open Token

/-- Blanks were skipped where what follows them cannot stand before them. -/
theorem Cursor.mem_gap_of_stop {c : Cursor} {L : Language Char} {kind : Char → Bool} {ch : Char}
    {more : List Char} (stop : ∀ ch ∈ c.rest.head?, kind ch = false)
    (starts : c.skipBlanks.rest = ch :: more) (isKind : kind ch) (mem : c.skipBlanks.rest ∈ L) :
    c.rest ∈ gap * L := by
  have split := c.takeWhile_append_skipBlanks
  refine ⟨_, ⟨?_, c.takeWhile_mem_blanks⟩, _, mem, split⟩
  intro empty
  rw [empty, List.nil_append, starts] at split
  simp [stop ch (by rw [← split]; rfl)] at isKind

namespace Reader

variable {c d e : Cursor} {L : Language Char}

section SortKeys

/-- A keyword does not touch the word before it. -/
theorem mem_gap_of_spelled {keyword : Keyword} {first : Char} {word : List Char}
    (shape : keyword.word = first :: word) (upper : first.isUpper)
    (stop : ∀ ch ∈ e.rest.head?, isWordChar ch = false)
    (mem : e.skipBlanks.rest ∈ keyword.spellings * L) :
    e.rest ∈ gap * (keyword.spellings * L) := by
  obtain ⟨ch, more, starts, letter⟩ := Keyword.letter_of_mem mem shape upper
  exact Cursor.mem_gap_of_stop stop starts letter mem

theorem not_isWordChar_of_mayPrecede {keyword : Keyword} (strict : keyword.blankAfter)
    (marks : keyword.marksAfter.any isWordChar = false) {t : List Char}
    (fits : keyword.mayPrecede t) : ∀ ch ∈ t.head?, isWordChar ch = false := by
  intro ch head
  cases t with
  | nil => cases head
  | cons b more =>
    obtain rfl : b = ch := by simpa using head
    simp only [Keyword.mayPrecede, strict, Bool.not_true, Bool.false_and, Bool.false_or,
      Bool.true_and, Bool.or_eq_true, List.contains_iff_mem] at fits
    rcases fits with blank | mark
    · exact not_isWordChar_of_isBlank blank
    · simpa using List.any_eq_false.mp marks b mark

/-- The direction of a sort key was left out, or stands apart from the field. -/
theorem direction_done {direction : Direction} (stop : ∀ ch ∈ e.rest.head?, isWordChar ch = false)
    (ran : readDirection.run e.skipBlanks = .done direction d) :
    direction = .ascending ∧ d = e.skipBlanks ∨
      d.phase = e.phase ∧ (∀ ch ∈ d.rest.head?, isWordChar ch = false) ∧
        ∀ {L : Language Char}, d.rest ∈ L → e.rest ∈ direction.texts * L := by
  obtain ⟨up, m, asked, rest⟩ := run_bind_done ran
  cases up with
  | true =>
    obtain ⟨rfl, rfl⟩ := pure_done rest
    obtain ⟨phase, w, spelled, split, fits⟩ := accept_true_done asked
    refine .inr ⟨phase, not_isWordChar_of_mayPrecede rfl (by decide) fits, fun mem => ?_⟩
    rw [Direction.texts, add_mul, mul_assoc]
    exact .inr (mem_gap_of_spelled rfl rfl stop ⟨w, spelled, m.rest, mem, split.symm⟩)
  | false =>
    obtain rfl := accept_false_done asked
    obtain ⟨down, m, asked, rest⟩ := run_bind_done rest
    cases down with
    | true =>
      obtain ⟨rfl, rfl⟩ := pure_done rest
      obtain ⟨phase, w, spelled, split, fits⟩ := accept_true_done asked
      refine .inr ⟨phase, not_isWordChar_of_mayPrecede rfl (by decide) fits, fun mem => ?_⟩
      rw [Direction.texts, mul_assoc]
      exact mem_gap_of_spelled rfl rfl stop ⟨w, spelled, m.rest, mem, split.symm⟩
    | false =>
      obtain rfl := accept_false_done asked
      obtain ⟨rfl, rfl⟩ := pure_done rest
      exact .inl ⟨rfl, rfl⟩

theorem sortKey_done {key : SortKey}
    (ran : (do skipBlanks; readSortKey : Reader SortKey).run c = .done key d) :
    TookItem SortKey.texts (fun key => IsItem key.field) c key d := by
  obtain ⟨field, e, read, rest⟩ := run_bind_done (skipBlanks_bind_done ran)
  split at rest
  · cases rest
  · rename_i full
    obtain ⟨isItem, phase, ends, memItem⟩ := readItem_done (by simpa using full) read
    have stop : ∀ ch ∈ e.rest.head?, isWordChar ch = false :=
      fun ch head => not_isWordChar_of_endsWord (ends ch head)
    obtain ⟨direction, m, read, rest⟩ := run_bind_done (skipBlanks_bind_done rest)
    obtain ⟨rfl, rfl⟩ := pure_done rest
    rcases direction_done stop read with ⟨rfl, rfl⟩ | ⟨phase', stop', memDirection⟩
    · have plain {M : Language Char} (mem : e.rest ∈ M) :
          c.skipBlanks.rest ∈ SortKey.texts ⟨field, .ascending⟩ * M := by
        rw [SortKey.texts, Direction.texts, mul_assoc, add_mul, one_mul]
        exact memItem (.inl mem)
      refine ⟨phase, isItem, fun {R} mem => plain ?_, fun leaves at_ => plain ?_⟩
      · have twice : e.rest ∈ blanks * (blanks * (mark ',' * R)) := Cursor.mem_blanks mem
        obtain ⟨g, blank, _, ⟨g', blank', t, mem, rfl⟩, split⟩ := twice
        refine ⟨g ++ g', ?_, t, mem, (List.append_assoc g g' t).trans split⟩
        intro ch memCh
        rcases List.mem_append.mp memCh with memCh | memCh
        · exact blank ch memCh
        · exact blank' ch memCh
      · exact leaves.of_skipBlanks.mem_lead stop at_
    · have written {M : Language Char} (mem : m.rest ∈ M) :
          c.skipBlanks.rest ∈ SortKey.texts ⟨field, direction⟩ * M := by
        rw [SortKey.texts, mul_assoc]
        exact memItem (memDirection mem)
      exact ⟨phase'.trans phase, isItem, written,
        fun leaves at_ => written (leaves.mem_lead stop' at_)⟩

end SortKeys

section Conditions

/-- A body that stops before the end of the text stops at its quote. -/
theorem exists_quote {quote : Char} {inner : List Char}
    (closed : (inner.takeWhile (· != quote)).length < inner.length) :
    quote ∉ inner.takeWhile (· != quote) ∧
      ∃ more, inner = inner.takeWhile (· != quote) ++ quote :: more := by
  have split := List.takeWhile_append_dropWhile (p := (· != quote)) (l := inner)
  constructor
  · intro mem
    simpa using List.all_eq_true.mp List.all_takeWhile quote mem
  · cases shape : inner.dropWhile (· != quote) with
    | nil =>
      rw [shape, List.append_nil] at split
      rw [split] at closed
      exact absurd closed (Nat.lt_irrefl _)
    | cons ch more =>
      have stop := List.head?_dropWhile_not (· != quote) inner
      rw [shape] at stop
      obtain rfl : ch = quote := by simpa using stop
      exact ⟨more, by rw [← shape, split]⟩

theorem readLiteral_done {literal : String} (some : literal ≠ "")
    (ran : readLiteral.run c = .done literal d) :
    IsLiteral literal ∧ d.phase = c.phase ∧
      (beginsQuoted literal = false → ∀ ch ∈ d.rest.head?, inBareLiteral ch = false) ∧
      ∀ {L : Language Char}, d.rest ∈ L → c.rest ∈ verbatim literal * L := by
  simp only [readLiteral] at ran
  split at ran
  · rename_i quote inner starts
    split at ran
    · rename_i quoted
      split at ran
      · rename_i closed
        cases ran
        obtain ⟨fresh, more, shape⟩ := exists_quote closed
        have text : c.rest = (quote :: inner.takeWhile (· != quote) ++ [quote]) ++ more := by
          rw [starts]
          conv_lhs => rw [shape]
          simp
        refine ⟨.inl ⟨quote, _, quoted, fresh, String.toList_ofList⟩, rfl, ?_, fun mem => ?_⟩
        · intro bare
          simp [beginsQuoted, quoted] at bare
        · have length : (inner.takeWhile (· != quote)).length + 2 =
            (quote :: inner.takeWhile (· != quote) ++ [quote]).length := by simp
          rw [Cursor.rest_forward, text, length, List.drop_left] at mem
          exact ⟨_, String.toList_ofList.symm, more, mem, text.symm⟩
      · cases ran
    · rename_i unquoted
      have took : TookRun inBareLiteral c literal d := by
        refine readWhile_done ?_
        rw [← ran]
        rfl
      have bare : beginsQuoted literal = false := by
        have text := took.mem rfl
        obtain ⟨_, rfl, t, rfl, same⟩ := text
        cases shape : literal.toList with
        | nil => exact absurd (String.toList_inj.mp (shape.trans rfl)) some
        | cons first more =>
          rw [shape, starts] at same
          obtain ⟨rfl, -⟩ := List.cons.inj same
          simpa [beginsQuoted, shape] using unquoted
      exact ⟨.inr ⟨⟨some, took.run⟩, bare⟩, took.phase, fun _ => took.stop, took.mem⟩
  · cases ran
    exact absurd rfl some

/-- A condition that was read, up to a blank or a semicolon if its literal has no quotes. -/
structure TookCondition (c : Cursor) (condition : Condition) (d : Cursor) : Prop where
  phase : d.phase = c.phase
  wellFormed : condition.WellFormed
  stop : beginsQuoted condition.literal = false → ∀ ch ∈ d.rest.head?, inBareLiteral ch = false
  mem : ∀ {L : Language Char}, d.rest ∈ L → c.skipBlanks.rest ∈ condition.texts * L

/-- An operator and a literal that goes on like one are kept apart. -/
theorem mem_space_literal {literal : String} (stop : ∀ ch ∈ e.rest.head?, isOperatorChar ch = false)
    (mem : e.skipBlanks.rest ∈ verbatim literal * L) :
    e.rest ∈ space (!beginsOperator literal) * (verbatim literal * L) := by
  cases begins : beginsOperator literal with
  | false => exact Cursor.mem_blanks mem
  | true =>
    obtain ⟨_, rfl, t, memL, split⟩ := mem
    cases shape : literal.toList with
    | nil => simp [beginsOperator, shape] at begins
    | cons ch more =>
      have operator : isOperatorChar ch := by simpa [beginsOperator, shape] using begins
      have starts : e.skipBlanks.rest = ch :: (more ++ t) := by
        rw [← split, shape]
        rfl
      exact Cursor.mem_gap_of_stop stop starts operator ⟨_, rfl, t, memL, split⟩

theorem readCondition_done {condition : Condition}
    (ran : readCondition.run c = .done condition d) : TookCondition c condition d := by
  obtain ⟨field, m₁, ran₁, rest⟩ := run_bind_done ran
  obtain ⟨operator, m₂, ran₂, rest⟩ := run_bind_done rest
  obtain ⟨literal, m₃, ran₃, rest⟩ := run_bind_done rest
  obtain ⟨rfl, rfl⟩ := pure_done rest
  obtain ⟨someField, read₁⟩ := nonempty_done ran₁
  obtain ⟨someOperator, read₂⟩ := nonempty_done ran₂
  obtain ⟨someLiteral, read₃⟩ := nonempty_done ran₃
  have took₁ := readWhile_done read₁
  have took₂ := readWhile_done read₂
  obtain ⟨isLiteral, phase₃, stop, memLiteral⟩ := readLiteral_done someLiteral read₃
  refine ⟨phase₃.trans (took₂.phase.trans took₁.phase),
    ⟨⟨someField, took₁.run⟩, ⟨someOperator, took₂.run⟩, isLiteral⟩, stop, fun mem => ?_⟩
  simp only [Condition.texts, mul_assoc]
  have literalText := mem_space_literal took₂.stop (memLiteral mem)
  exact took₁.mem (Cursor.mem_blanks (took₂.mem literalText))

theorem nextOrAnd_false_done (ran : nextOrAnd.run c = .done false d) : c.Leaves d := by
  obtain ⟨next, m, asked, rest⟩ := run_bind_done ran
  cases next with
  | true =>
    cases rest
    exact nextClause_true_done asked
  | false =>
    obtain ⟨u, e, expected, rest⟩ := run_bind_done rest
    cases rest

theorem nextOrAnd_true_done (ran : nextOrAnd.run c = .done true d) :
    TookKeyword .and c.skipBlanks d := by
  obtain ⟨next, m, asked, rest⟩ := run_bind_done ran
  cases next with
  | true => cases rest
  | false =>
    obtain rfl := nextClause_false_done asked
    obtain ⟨u, e, expected, rest⟩ := run_bind_done rest
    obtain ⟨-, rfl⟩ := pure_done rest
    exact expect_done Keyword.plain_and expected

theorem not_isWordChar_of_not_inBareLiteral {ch : Char} (ends : inBareLiteral ch = false) :
    isWordChar ch = false := by
  simp only [inBareLiteral, Bool.not_eq_false', Bool.or_eq_true, beq_iff_eq] at ends
  rcases ends with blank | rfl
  · exact not_isWordChar_of_isBlank blank
  · decide

/-- A bare literal and the word after it are kept apart. -/
theorem mem_space_and {quoted : Bool}
    (stop : quoted = false → ∀ ch ∈ e.rest.head?, inBareLiteral ch = false)
    (mem : e.skipBlanks.rest ∈ Keyword.and.spellings * L) :
    e.rest ∈ space quoted * (Keyword.and.spellings * L) := by
  cases quoted with
  | true => exact Cursor.mem_blanks mem
  | false =>
    exact mem_gap_of_spelled rfl rfl
      (fun ch head => not_isWordChar_of_not_inBareLiteral (stop rfl ch head)) mem

theorem conditionList_done {conditions : List Condition}
    (ran : (list readCondition nextOrAnd nextOrAnd_advances).run c = .done conditions d) :
    TookList (fun xs place => conditionList xs * place.lead (endsQuoted xs)) Condition.WellFormed c
      conditions d := by
  refine runList_induct ?_ ?_ ran
  · intro c x m d read asked
    have item := readCondition_done read
    have leaves := nextOrAnd_false_done asked
    refine ⟨List.cons_ne_nil x [], ?_, item.phase ▸ leaves.reached, fun {place} at_ => item.mem ?_⟩
    · intro y mem
      exact List.mem_singleton.mp mem ▸ item.wellFormed
    · change m.rest ∈ place.lead (beginsQuoted x.literal)
      cases quoted : beginsQuoted x.literal with
      | true => exact leaves.mem_lead_true at_
      | false =>
        exact leaves.mem_lead
          (fun ch head => not_isWordChar_of_not_inBareLiteral (item.stop quoted ch head)) at_
  · intro c x m e xs d read asked rest
    have item := readCondition_done read
    have joined := nextOrAnd_true_done asked
    refine ⟨List.cons_ne_nil x xs, ?_, ?_, fun at_ => ?_⟩
    · intro y mem
      rcases List.mem_cons.mp mem with rfl | mem
      · exact item.wellFormed
      · exact rest.wellFormed y mem
    · have phase : e.phase = c.phase := joined.phase.trans item.phase
      exact phase ▸ rest.reached
    · have whole := item.mem (mem_space_and item.stop (joined.mem (rest.mem at_)))
      obtain ⟨y, ys, rfl⟩ := List.exists_cons_of_ne_nil rest.some
      have ends : endsQuoted (x :: y :: ys) = endsQuoted (y :: ys) := by simp [endsQuoted]
      simpa only [conditionList, mul_assoc, ends] using whole

end Conditions

section Clauses

/-- Text by text, how a keyword that begins a join was found. -/
theorem of_joinKeyword? {text : List Char} {kind : String} {n : Nat}
    (found : joinKeyword? text = some (kind, n)) :
    IsRun isWordChar kind ∧ upperAscii kind ≠ "JOIN" ∧
      ∃ w ∈ joinTexts kind, ∃ rest, text = w ++ rest ∧ w.length = n ∧
        Keyword.join.mayPrecede rest := by
  unfold joinKeyword? at found
  split at found
  · rename_i front
    obtain ⟨rfl, rfl⟩ := Prod.mk.inj (Option.some.inj found)
    obtain ⟨w, spelled, rest, rfl, fits⟩ := Keyword.isFront_iff.mp front
    refine ⟨by decide, by decide, w, .inl ⟨rfl, spelled⟩, rest, rfl, ?_, fits⟩
    rw [← spelled, List.length_map]
  · rename_i bare
    simp only [Option.ite_none_right_eq_some, Bool.and_eq_true, Bool.not_eq_true'] at found
    obtain ⟨⟨some, front⟩, same⟩ := found
    obtain ⟨rfl, rfl⟩ := Prod.mk.inj (Option.some.inj same)
    obtain ⟨kind, u, rfl, takeKind, word, stopKind⟩ := exists_takeWhile isWordChar text
    rw [takeKind] at some front ⊢
    rw [List.drop_left] at front ⊢
    obtain ⟨g, v, rfl, takeGap, blank, stopGap⟩ := exists_takeWhile isBlank u
    rw [takeGap] at front ⊢
    rw [← List.drop_drop, List.drop_left, List.drop_left] at front
    obtain ⟨j, spelled, rest, rfl, fits⟩ := Keyword.isFront_iff.mp front
    have apart : g ≠ [] := by
      rintro rfl
      obtain ⟨ch, w, rfl, letter⟩ := Keyword.letter_of_spelled spelled rfl rfl
      simp [stopKind ch rfl] at letter
    refine ⟨⟨?_, ?_⟩, ?_, kind ++ (g ++ j), .inr ?_, rest, ?_, ?_, fits⟩
    · intro empty
      rw [← String.toList_inj, String.toList_ofList] at empty
      rw [empty] at some
      cases some
    · rw [String.toList_ofList]
      exact word
    · intro same
      have text : kind ++ (g ++ (j ++ rest)) ∈ verbatim (String.ofList kind) * (gap * ⊤) :=
        ⟨kind, String.toList_ofList.symm, _, ⟨g, ⟨apart, blank⟩, _, trivial, rfl⟩, rfl⟩
      exact bare (isFront_of_kind Keyword.plain_join (by rw [same]; rfl) text)
    · exact ⟨kind, String.toList_ofList.symm, _, ⟨g, ⟨apart, blank⟩, j, spelled, rfl⟩, rfl⟩
    · simp
    · rw [List.length_append, List.length_append, Nat.add_assoc, ← spelled, List.length_map]

/-- Where neither `LIMIT` nor `WHERE` stands, no kind of a join is one of them. -/
theorem unreserved_of_free {t : List Char} {kind : String} (noJoin : upperAscii kind ≠ "JOIN")
    (free : Keyword.limit.isFront t = false ∧ Keyword.whereRows.isFront t = false)
    (mem : t ∈ joinTexts kind * L) : upperAscii kind ∉ reservedKinds := by
  obtain ⟨_, ⟨rfl, -⟩ | ⟨_, rfl, _, ⟨g, space, j, -, rfl⟩, rfl⟩, rest, -, rfl⟩ := mem
  · decide
  · have text : (kind.toList ++ (g ++ j)) ++ rest ∈ verbatim kind * (gap * ⊤) :=
      ⟨_, rfl, g ++ (j ++ rest), ⟨g, space, _, trivial, rfl⟩, by simp⟩
    simp only [reservedKinds, List.mem_cons, List.not_mem_nil, or_false, not_or]
    refine ⟨noJoin, ?_, ?_⟩
    · intro same
      have front := isFront_of_kind Keyword.plain_limit (by rw [same]; rfl) text
      rw [free.1] at front
      cases front
    · intro same
      have front := isFront_of_kind Keyword.plain_where (by rw [same]; rfl) text
      rw [free.2] at front
      cases front

theorem readJoinKeyword_done {kind : String} (ran : readJoinKeyword.run c = .done kind d) :
    IsRun isWordChar kind ∧ upperAscii kind ≠ "JOIN" ∧ d.phase = c.phase ∧
      ∀ {L : Language Char}, d.skipBlanks.rest ∈ L → c.rest ∈ joinTexts kind * (gap * L) := by
  simp only [readJoinKeyword] at ran
  split at ran
  · rename_i n found
    cases ran
    obtain ⟨run, noJoin, w, mem, rest, split, length, fits⟩ := of_joinKeyword? found
    obtain ⟨b, more, rfl, blank⟩ := Keyword.plain_join.mayPrecede_iff.mp fits
    refine ⟨run, noJoin, rfl, fun memL => ⟨w, mem, b :: more, ?_, split.symm⟩⟩
    have left : (c.forward n).rest = b :: more := by
      rw [Cursor.rest_forward, ← length, split, List.drop_left]
    rw [← left]
    exact Cursor.mem_gap left blank memL
  · cases ran

structure TookClause {α : Type} (WellFormed : α → Prop) (clause : Place → α → Place) (c : Cursor)
    (x : α) (d : Cursor) : Prop where
  wellFormed : WellFormed x
  reached : d.Reached c.phase
  mem : ∀ {next : Place}, d.At next → c.rest ∈ (clause next x).texts

theorem readFields_done {fields : List String} (ran : readFields.run c = .done fields d)
    (now : c.phase = .fields) :
    TookList (fun xs place => commaList (xs.map itemTexts) * place.lead false) IsItem c fields d :=
  commaList_done field_done (listWithin_done ran now)

theorem readTable_done {table : String} (ran : readTable.run c = .done table d) :
    TookClause IsWord Place.ofTable c table d := by
  obtain ⟨u, m, expected, rest⟩ := run_bind_done ran
  obtain ⟨name, e, read, rest⟩ := run_bind_done rest
  obtain ⟨u, f, ended, rest⟩ := run_bind_done rest
  obtain ⟨rfl, rfl⟩ := pure_done rest
  have keyword := expect_done Keyword.plain_from expected
  have item := word_done read
  have leaves := endClause_done ended
  have phase : e.phase = c.phase := item.phase.trans keyword.phase
  exact ⟨item.wellFormed, phase ▸ leaves.reached, fun at_ => keyword.mem (item.lead leaves at_)⟩

theorem not_isWordChar_of_not_inOperand {ch : Char} (ends : inOperand ch = false) :
    isWordChar ch = false := by
  have unlike (mark : Char) (other : isWordChar mark = false) (same : ch = mark) :
      isWordChar ch = false := same ▸ other
  simp only [inOperand, isOperatorChar, Bool.not_eq_false', Bool.or_eq_true, beq_iff_eq] at ends
  rcases ends with (blank | ((mark | mark) | mark) | mark) | mark
  · exact not_isWordChar_of_isBlank blank
  all_goals exact unlike _ (by decide) mark

theorem mark_equals : mark '=' = verbatim "=" := rfl

/-- What every join that was read is made of, wherever it stood. -/
structure IsReadJoin (join : Join) : Prop where
  kind : IsRun isWordChar join.kind
  named : upperAscii join.kind ≠ "JOIN"
  table : IsWord join.table
  left : IsOperand join.left
  right : IsOperand join.right

theorem readJoin_took {join : Join} (ran : readJoin.run c = .done join d) :
    TookClause IsReadJoin (fun next join => .ofJoin next (some join)) c join d := by
  obtain ⟨kind, m₁, readKind, rest⟩ := run_bind_done ran
  obtain ⟨run, noJoin, phase₁, memKind⟩ := readJoinKeyword_done readKind
  obtain ⟨table, m₂, readTable, rest⟩ := run_bind_done (skipBlanks_bind_done rest)
  have took₂ := readWhile_done readTable
  split at rest
  · cases rest
  rename_i someTable
  obtain ⟨u, m₃, expected, rest⟩ := run_bind_done (skipBlanks_bind_done rest)
  have took₃ := expect_done Keyword.plain_on expected
  obtain ⟨left, m₄, readLeft, rest⟩ := run_bind_done (skipBlanks_bind_done rest)
  have took₄ := readWhile_done readLeft
  replace rest := position_bind_done (skipBlanks_bind_done rest)
  obtain ⟨operator, m₅, readOperator, rest⟩ := run_bind_done rest
  have took₅ := readWhile_done readOperator
  split at rest
  · cases rest
  rename_i equality
  simp only [Bool.or_eq_true, bne_iff_ne, not_or, ne_eq, not_not] at equality
  obtain ⟨someLeft, rfl⟩ := equality
  obtain ⟨right, m₆, readRight, rest⟩ := run_bind_done (skipBlanks_bind_done rest)
  have took₆ := readWhile_done readRight
  split at rest
  · cases rest
  rename_i someRight
  obtain ⟨u, m₇, ended, rest⟩ := run_bind_done rest
  obtain ⟨rfl, rfl⟩ := pure_done rest
  have leaves := endClause_done ended
  have phase : m₆.phase = c.phase := took₆.phase.trans (took₅.phase.trans (took₄.phase.trans
    (took₃.phase.trans (took₂.phase.trans phase₁))))
  have endsTable : ∀ ch ∈ m₂.rest.head?, isWordChar ch = false := by
    intro ch head
    exact not_isWordChar_of_endsWord (by simpa using took₂.stop ch head)
  have endsRight : ∀ ch ∈ m₆.rest.head?, isWordChar ch = false :=
    fun ch head => not_isWordChar_of_not_inOperand (took₆.stop ch head)
  have mem {next : Place} (at_ : m₇.At next) :
      c.rest ∈ (Place.ofJoin next (some ⟨kind, table, left, right⟩)).texts := by
    have sides := took₄.mem (Cursor.mem_blanks (took₅.mem (Cursor.mem_blanks
      (took₆.mem (leaves.mem_lead endsRight at_)))))
    have condition := mem_gap_of_spelled rfl rfl endsTable (took₃.mem sides)
    rw [Place.ofJoin, mark_equals]
    exact memKind (took₂.mem condition)
  refine ⟨⟨run, noJoin, ⟨?_, took₂.run⟩, ⟨?_, took₄.run⟩, ⟨?_, took₆.run⟩⟩,
    phase ▸ leaves.reached, mem⟩
  · simpa using someTable
  · simpa using someLeft
  · simpa using someRight

theorem readJoin_done {join : Join} (ran : readJoin.run c = .done join d)
    (free : Keyword.limit.isFront c.rest = false ∧ Keyword.whereRows.isFront c.rest = false) :
    TookClause Join.WellFormed (fun next join => .ofJoin next (some join)) c join d := by
  obtain ⟨made, reached, mem⟩ := readJoin_took ran
  have here : d.At ⟨d.phase, {d.rest}⟩ := ⟨rfl, rfl⟩
  have text := mem here
  exact ⟨⟨made.kind, unreserved_of_free made.named free text, made.table, made.left, made.right⟩,
    reached, mem⟩

/-- A list behind a keyword stood in the text as the keyword and the texts of the list. -/
theorem keywordList_done {α : Type} {item : Reader α} {more : Reader Bool}
    {advances : more.Advances} {listTexts : List α → Place → Language Char} {WellFormed : α → Prop}
    {keyword : Keyword} {problem : SyntaxProblem} {clause : Phase} {xs : List α}
    (plain : keyword.Plain)
    (took : ∀ {m : Cursor}, (list item more advances).run m = .done xs d →
      TookList listTexts WellFormed m xs d)
    (ran : (do expect keyword problem; listWithin clause item more advances :
      Reader (List α)).run c = .done xs d) (now : c.phase = clause) :
    TookClause (fun xs => xs ≠ [] ∧ ∀ x ∈ xs, WellFormed x)
      (fun next xs => ⟨clause, keyword.spellings * (gap * listTexts xs next)⟩) c xs d := by
  obtain ⟨u, m, expected, rest⟩ := run_bind_done ran
  have behind := expect_done plain expected
  have read := took (listWithin_done rest (behind.phase.trans now))
  exact ⟨⟨read.some, read.wellFormed⟩, behind.phase ▸ read.reached,
    fun at_ => behind.mem (read.mem at_)⟩

theorem readConditions_done {conditions : List Condition}
    (ran : readConditions.run c = .done conditions d) (now : c.phase = .conditions) :
    TookClause (fun xs => xs ≠ [] ∧ ∀ x ∈ xs, Condition.WellFormed x) Place.ofConditions c conditions
      d := by
  have took := keywordList_done Keyword.plain_where conditionList_done ran now
  refine ⟨took.wellFormed, took.reached, fun at_ => ?_⟩
  rw [Place.ofConditions, if_neg took.wellFormed.1]
  exact took.mem at_

theorem readGrouping_done {fields : List String} (ran : readGrouping.run c = .done fields d)
    (now : c.phase = .grouping) :
    TookClause (fun xs => xs ≠ [] ∧ ∀ x ∈ xs, IsWord x) (fun next xs => .ofGrouping next (some xs)) c
      fields d :=
  keywordList_done Keyword.plain_groupBy (commaList_done word_done) ran now

theorem readOrdering_done {keys : List SortKey} (ran : readOrdering.run c = .done keys d)
    (now : c.phase = .ordering) :
    TookClause (fun xs => xs ≠ [] ∧ ∀ x ∈ xs, IsItem x.field)
      (fun next xs => .ofOrdering next (some xs)) c keys d :=
  keywordList_done Keyword.plain_orderBy (commaList_done sortKey_done) ran now

theorem numeral_of_parseLimit? {s : String} {n : Nat} (parsed : parseLimit? s = some n) :
    n < 2 ^ 64 ∧ s.toList ∈ numerals n := by
  unfold parseLimit? at parsed
  simp only [Option.ite_none_right_eq_some, Bool.and_eq_true, Bool.not_eq_true',
    decide_eq_true_eq, Option.some.injEq] at parsed
  obtain ⟨⟨⟨some, digits⟩, small⟩, rfl⟩ := parsed
  refine ⟨small, _, ?_, by simpa using some, digits, rfl⟩
  split
  · rename_i rest shape
    exact .inr shape
  · exact .inl rfl

theorem readLimit_done {n : Nat} (ran : readLimit.run c = .done n d) (now : c.phase = .limit) :
    TookClause (· < 2 ^ 64) (fun _ n => .ofLimit (some n)) c n d := by
  obtain ⟨u, m, expected, rest⟩ := run_bind_done ran
  have keyword := expect_done Keyword.plain_limit expected
  have rest := position_bind_done (skipBlanks_bind_done rest)
  obtain ⟨word, e, read, rest⟩ := run_bind_done rest
  split at rest
  · rename_i limit parsed
    obtain ⟨u, f, ended, rest⟩ := run_bind_done rest
    obtain ⟨rfl, rfl⟩ := pure_done rest
    obtain ⟨small, digits⟩ := numeral_of_parseLimit? parsed
    have took := readWhile_done read
    have leaves := endClause_done ended
    have reached : f.Reached .limit := by
      have phase : e.phase = .limit := took.phase.trans (keyword.phase.trans now)
      exact phase ▸ leaves.reached
    refine ⟨small, now ▸ reached, fun _ => ?_⟩
    have stop : ∀ ch ∈ e.rest.head?, isWordChar ch = false := by
      intro ch head
      exact not_isWordChar_of_endsWord (by simpa using took.stop ch head)
    have finish : f.At .finish := by
      rcases reached with ⟨finished, rest⟩ | ⟨unfinished, following⟩
      · exact ⟨finished, rest⟩
      · have later := (follows_of_following? following).later
        cases phase : f.phase with
        | done => exact absurd phase unfinished
        | _ => exact absurd later (by rw [phase]; decide)
    obtain ⟨_, rfl, t, mem, rest⟩ := took.mem (leaves.mem_lead stop finish)
    exact keyword.mem ⟨word.toList, digits, t, mem, rest⟩
  · cases rest

end Clauses

end Reader
end TableQuery
