import TableQuery.Proofs.Statement.Origin

/-! Which items are aggregates, and how such an item is read where blanks stand between its
parentheses. -/
namespace TableQuery
open Token

theorem ne_of_isWordChar {ch mark : Char} (letter : isWordChar ch)
    (other : isWordChar mark = false) : ch ≠ mark := by
  rintro rfl
  rw [other] at letter
  cases letter

def callText (name inside : List Char) : List Char := name ++ '(' :: (inside ++ [')'])

def AggregateFunction.word : AggregateFunction → String
  | .count => "COUNT"
  | .sum => "SUM"
  | .average => "AVG"
  | .minimum => "MIN"
  | .maximum => "MAX"

theorem AggregateFunction.ofName?_eq_some_iff {name : String} {function : AggregateFunction} :
    ofName? name = some function ↔ upperAscii name = function.word := by
  constructor
  · intro found
    unfold ofName? at found
    split at found <;> cases found <;> assumption
  · intro same
    unfold ofName?
    rw [same]
    cases function <;> rfl

/-- The letters of a function's name, in any case. -/
theorem AggregateFunction.isWordChar_of_spelled {function : AggregateFunction} {name : List Char}
    (upper : name.map Char.toUpper = function.word.toList) : ∀ ch ∈ name, isWordChar ch := by
  refine run_of_upper upper ?_
  cases function <;> decide

namespace Aggregate

def IsNameWord (text : List Char) : Prop := text ≠ [] ∧ ∀ ch ∈ text, isWordChar ch

/-- What spells a field name: a word, or two words with a point between them. -/
inductive SpellsField : List Char → Prop where
  | word {text : List Char} (word : IsNameWord text) : SpellsField text
  | qualified {table field : List Char} (first : IsNameWord table) (second : IsNameWord field) :
      SpellsField (table ++ '.' :: field)

/-- What spells an argument: a star for no field, or the name of a field. -/
inductive Spells : Option String → List Char → Prop where
  | star : Spells none ['*']
  | field {text : List Char} (spells : SpellsField text) : Spells (some (String.ofList text)) text

/-- The expression of an aggregate is the name of its function in any case and, between parentheses,
what spells its argument. -/
structure Written (aggregate : Aggregate) (name inner : List Char) : Prop where
  spelled : name.map Char.toUpper = aggregate.function.word.toList
  argument : Spells aggregate.field inner
  expression : aggregate.expression.toList = callText name inner

section Recognition

variable {aggregate : Aggregate} {item : String} {field : Option String} {text : List Char}

theorem isWord_iff : isWord text ↔ IsNameWord text := by
  simp [isWord, IsNameWord]

theorem IsNameWord.notMem {mark : Char} (word : IsNameWord text)
    (other : isWordChar mark = false) : mark ∉ text := by
  intro mem
  exact ne_of_isWordChar (word.2 mark mem) other rfl

/-- A field name is cut at its first point, and a word has none. -/
theorem isFieldName_iff : isFieldName text ↔ SpellsField text := by
  unfold isFieldName
  constructor
  · intro holds
    split at holds
    · rename_i cut
      obtain ⟨rfl, -⟩ := splitFirst?_eq_some cut
      simp only [Bool.and_eq_true, isWord_iff] at holds
      exact .qualified holds.1 holds.2
    · exact .word (isWord_iff.mp holds)
  · intro spells
    cases spells with
    | word word =>
      split
      · rename_i cut
        obtain ⟨rfl, -⟩ := splitFirst?_eq_some cut
        have pointless : '.' ∉ _ := word.notMem (by decide)
        exact absurd (by simp) pointless
      · exact isWord_iff.mpr word
    | qualified first second =>
      rw [splitFirst?_append (first.notMem (by decide))]
      exact Bool.and_eq_true_iff.mpr ⟨isWord_iff.mpr first, isWord_iff.mpr second⟩

theorem SpellsField.plain (spells : SpellsField text) :
    ∀ ch ∈ text, isWordChar ch ∨ ch = '.' := by
  cases spells with
  | word word => exact fun ch mem => .inl (word.2 ch mem)
  | qualified first second =>
    intro ch mem
    rcases List.mem_append.mp mem with mem | mem
    · exact .inl (first.2 ch mem)
    · rcases List.mem_cons.mp mem with rfl | mem
      · exact .inr rfl
      · exact .inl (second.2 ch mem)

theorem argument?_eq_some_iff : argument? text = some field ↔ Spells field text := by
  unfold argument?
  constructor
  · intro found
    split at found
    · rename_i star
      cases found
      exact star ▸ .star
    · split at found
      · rename_i name
        cases found
        exact .field (isFieldName_iff.mp name)
      · cases found
  · intro spells
    cases spells with
    | star => rfl
    | field spells =>
      have other : text ≠ ['*'] := by
        rintro rfl
        rcases spells.plain '*' (List.mem_singleton_self _) with letter | point
        · exact ne_of_isWordChar letter (by decide) rfl
        · exact absurd point (by decide)
      rw [if_neg other, if_pos (isFieldName_iff.mpr spells)]

/-- No parenthesis and no blank stands in an argument. -/
theorem Spells.plain (spells : Spells field text) :
    ∀ ch ∈ text, ch ≠ '(' ∧ ch ≠ ')' ∧ isBlank ch = false := by
  intro ch mem
  cases spells with
  | star =>
    rw [List.mem_singleton.mp mem]
    decide
  | field spells =>
    rcases spells.plain ch mem with letter | rfl
    · exact ⟨ne_of_isWordChar letter (by decide), ne_of_isWordChar letter (by decide),
        not_isBlank_of_isWordChar letter⟩
    · decide

theorem ofItem?_eq_some_iff : ofItem? item = some aggregate ↔
    aggregate.expression = item ∧ ∃ name inner, aggregate.Written name inner := by
  unfold ofItem?
  constructor
  · intro found
    split at found
    · rename_i last
      simp only [Option.bind_eq_bind, Option.bind_eq_some_iff] at found
      obtain ⟨⟨name, inner⟩, cut, function, named, field, argument, same⟩ := found
      cases same
      obtain ⟨text, -⟩ := splitFirst?_eq_some cut
      refine ⟨rfl, name, inner, ?_, argument?_eq_some_iff.mp argument, ?_⟩
      · have upper := AggregateFunction.ofName?_eq_some_iff.mp named
        rw [← upper, upperAscii, String.toList_ofList, String.toList_ofList]
      · have whole := List.dropLast_append_getLast? ')' last
        rw [text] at whole
        simpa [callText] using whole.symm
    · cases found
  · rintro ⟨rfl, name, inner, written⟩
    have shape : aggregate.expression.toList = (name ++ '(' :: inner) ++ [')'] := by
      rw [written.expression]
      simp [callText]
    have fresh : '(' ∉ name := by
      intro mem
      have letter := AggregateFunction.isWordChar_of_spelled written.spelled '(' mem
      exact ne_of_isWordChar letter (by decide) rfl
    have named : AggregateFunction.ofName? (String.ofList name) = some aggregate.function := by
      rw [AggregateFunction.ofName?_eq_some_iff, upperAscii, String.toList_ofList, written.spelled,
        String.ofList_toList]
    rw [shape, List.getLast?_concat, if_pos rfl, List.dropLast_concat, splitFirst?_append fresh]
    simp [named, argument?_eq_some_iff.mpr written.argument]

end Recognition

section Reading

variable {aggregate : Aggregate} {name inner loose text rest : List Char} {c : Cursor}

/-- Characters that are no parentheses leave what is open as it is. -/
theorem closing_append {depth : Nat} (plain : ∀ ch ∈ text, ch ≠ '(' ∧ ch ≠ ')')
    (inside : ∀ ch ∈ text, ¬ (depth = 0 ∧ endsWord ch)) (closing : Closing depth rest) :
    Closing depth (text ++ rest) := by
  induction text with
  | nil => exact closing
  | cons ch text ih =>
    obtain ⟨left, right⟩ := plain ch List.mem_cons_self
    have same : depthAfter depth ch = depth := by rw [depthAfter, if_neg left, if_neg right]
    refine closing_cons_iff.mpr ⟨inside ch List.mem_cons_self, fun shut => right shut.2, ?_⟩
    rw [List.append_eq, same]
    exact ih (fun d mem => plain d (List.mem_cons_of_mem _ mem))
      fun d mem => inside d (List.mem_cons_of_mem _ mem)

/-- The parenthesis after a name is closed by the one at the end. -/
theorem closing_callText (letters : ∀ ch ∈ name, isWordChar ch)
    (plain : ∀ ch ∈ loose, ch ≠ '(' ∧ ch ≠ ')') : Closing 0 (callText name loose) := by
  have shut : Closing 1 [')'] :=
    closing_cons_iff.mpr ⟨by decide, by decide, closing_nil_iff.mpr (by decide)⟩
  have argument : Closing 1 (loose ++ [')']) := by
    apply closing_append plain _ shut
    intro ch mem ends
    exact absurd ends.1 (by decide)
  apply closing_append
  · intro ch mem
    have letter := letters ch mem
    exact ⟨ne_of_isWordChar letter (by decide), ne_of_isWordChar letter (by decide)⟩
  · intro ch mem ends
    rw [Reader.not_endsWord_of_isWordChar (letters ch mem)] at ends
    exact absurd ends.2 (by decide)
  · exact closing_cons_iff.mpr ⟨by decide, by decide, argument⟩

/-- Without the blanks between its parentheses the text is the expression again. -/
theorem Written.filter_eq (written : aggregate.Written name inner)
    (spread : loose.filter (!isBlank ·) = inner) :
    (callText name loose).filter (!isBlank ·) = aggregate.expression.toList := by
  have whole : name.filter (!isBlank ·) = name := by
    rw [List.filter_eq_self]
    intro ch mem
    have letter := AggregateFunction.isWordChar_of_spelled written.spelled ch mem
    simp [not_isBlank_of_isWordChar letter]
  have left : isBlank '(' = false := by decide
  have right : isBlank ')' = false := by decide
  simp [written.expression, callText, whole, spread, left, right]

/-- Blanks are no parentheses. -/
theorem Spells.plain_of_filter {field : Option String} (spells : Spells field inner)
    (spread : loose.filter (!isBlank ·) = inner) : ∀ ch ∈ loose, ch ≠ '(' ∧ ch ≠ ')' := by
  intro ch mem
  cases blank : isBlank ch with
  | true =>
    constructor
    · rintro rfl
      exact absurd blank (by decide)
    · rintro rfl
      exact absurd blank (by decide)
  | false =>
    have kept : ch ∈ inner := by
      rw [← spread]
      exact List.mem_filter.mpr ⟨mem, by simp [blank]⟩
    obtain ⟨left, right, -⟩ := spells.plain ch kept
    exact ⟨left, right⟩

theorem Written.run_readItem (written : aggregate.Written name inner)
    (spread : loose.filter (!isBlank ·) = inner) (ends : ∀ ch ∈ rest.head?, endsWord ch)
    (here : c.rest = callText name loose ++ rest) :
    Reader.readItem.run c =
      .done aggregate.expression (c.forward (callText name loose).length) := by
  have letters := AggregateFunction.isWordChar_of_spelled written.spelled
  have closing := closing_callText letters (written.argument.plain_of_filter spread)
  have scan := scanItem_of_closing closing ends
  simp only [Reader.readItem, here, scan, if_true, written.filter_eq spread, String.ofList_toList]

end Reading

end Aggregate

def Direction.after (text : List Char) : Direction :=
  if Keyword.descending.isFront (trimStart text) then .descending else .ascending

namespace Reader

variable {c : Cursor} {item : String} {text rest : List Char}

theorem not_descending_of_ascending (up : Keyword.ascending.isFront text) :
    Keyword.descending.isFront text = false := by
  cases down : Keyword.descending.isFront text with
  | false => rfl
  | true =>
    obtain ⟨ch, more, rfl, first⟩ := Keyword.head_of_isFront up rfl
    obtain ⟨_, _, same, second⟩ := Keyword.head_of_isFront down rfl
    obtain ⟨rfl, -⟩ := List.cons.inj same
    exact absurd (first.symm.trans second) (by decide)

theorem run_readDirection (c : Cursor) :
    ∃ d, readDirection.run c.skipBlanks = .done (Direction.after c.rest) d := by
  have left : c.skipBlanks.rest = trimStart c.rest := c.rest_skipBlanks_eq
  rw [Direction.after, ← left]
  cases up : Keyword.ascending.isFront c.skipBlanks.rest with
  | true =>
    have other := not_descending_of_ascending up
    refine ⟨c.skipBlanks.forward Keyword.ascending.word.length, ?_⟩
    simp [readDirection, run_bind, run_accept, run_pure, up, other]
  | false =>
    cases down : Keyword.descending.isFront c.skipBlanks.rest with
    | true =>
      refine ⟨c.skipBlanks.forward Keyword.descending.word.length, ?_⟩
      simp [readDirection, run_bind, run_accept, run_pure, up, down]
    | false =>
      refine ⟨c.skipBlanks, ?_⟩
      simp [readDirection, run_bind, run_accept, run_pure, up, down]

/-- Blanks are skipped in front of a token that must not be empty. -/
theorem run_nonempty {token : Reader String} {d : Cursor} (some : item ≠ "")
    (read : token.run c.skipBlanks = .done item d) (problem : SyntaxProblem) :
    (nonempty token problem).run c = .done item d := by
  have full : item.isEmpty = false := by simpa using some
  change (token >>= fun text => _).run c.skipBlanks = _
  rw [run_bind, read]
  simp only [full]
  rfl

theorem run_sortKey {d : Cursor} (some : item ≠ "")
    (read : readItem.run c.skipBlanks = .done item d) :
    ∃ e, (do skipBlanks; readSortKey : Reader SortKey).run c = .done ⟨item, .after d.rest⟩ e := by
  have full : item.isEmpty = false := by simpa using some
  obtain ⟨e, ran⟩ := run_readDirection d
  refine ⟨e, ?_⟩
  change readSortKey.run c.skipBlanks = _
  simp only [readSortKey, run_bind, read, full, Bool.false_eq_true, if_false, skipBlanks, ran]
  rfl

end Reader

namespace Aggregate

theorem Written.expression_ne {aggregate : Aggregate} {name inner : List Char}
    (written : aggregate.Written name inner) : aggregate.expression ≠ "" := by
  intro empty
  have text := written.expression
  rw [empty] at text
  exact absurd text.symm (by simp [callText])

/-- An item is an aggregate exactly when it is written as one. With blanks anywhere between its
parentheses it is read as the same item, in the field list as in `ORDER BY`. -/
theorem recognised_and_read {item : String} {aggregate : Aggregate} :
    (ofItem? item = some aggregate ↔
      aggregate.expression = item ∧ ∃ name inner, aggregate.Written name inner) ∧
    ∀ name inner, aggregate.Written name inner → ∀ loose rest : List Char,
      loose.filter (!isBlank ·) = inner → (∀ ch ∈ rest.head?, endsWord ch) → ∀ c : Cursor,
        (c.rest = callText name loose ++ rest →
          Reader.readItem.run c =
            .done aggregate.expression (c.forward (callText name loose).length)) ∧
        (c.skipBlanks.rest = callText name loose ++ rest →
          (∀ problem, ∃ d, (Reader.nonempty Reader.readItem problem).run c =
            .done aggregate.expression d ∧ ofItem? aggregate.expression = some aggregate) ∧
          ∃ d, (do Reader.skipBlanks; Reader.readSortKey : Reader SortKey).run c =
            .done ⟨aggregate.expression, .after rest⟩ d) := by
  refine ⟨ofItem?_eq_some_iff, ?_⟩
  intro name inner written loose rest spread ends c
  refine ⟨written.run_readItem spread ends, ?_⟩
  intro here
  have read := written.run_readItem spread ends here
  have left : (c.skipBlanks.forward (callText name loose).length).rest = rest := by
    rw [Cursor.rest_forward, here, List.drop_left]
  constructor
  · intro problem
    refine ⟨_, Reader.run_nonempty written.expression_ne read problem, ?_⟩
    exact ofItem?_eq_some_iff.mpr ⟨rfl, name, inner, written⟩
  · obtain ⟨d, ran⟩ := Reader.run_sortKey written.expression_ne read
    rw [left] at ran
    exact ⟨d, ran⟩

/-- A tab and spaces between the parentheses of an average are dropped. -/
theorem spread_average_read :
    ofItem? "Avg(é.x_1)" = some ⟨.average, some "é.x_1", "Avg(é.x_1)"⟩ ∧
      ∃ d, (do Reader.skipBlanks; Reader.readSortKey : Reader SortKey).run
        (Cursor.ofString " Avg(\t é.x_1 ) desc, b") = .done ⟨"Avg(é.x_1)", .descending⟩ d := by
  have written : Written ⟨.average, some "é.x_1", "Avg(é.x_1)"⟩ "Avg".toList "é.x_1".toList :=
    ⟨by decide, argument?_eq_some_iff.mp (by decide +kernel), by decide⟩
  have begins : (Cursor.ofString " Avg(\t é.x_1 ) desc, b").skipBlanks.rest =
      callText "Avg".toList "\t é.x_1 ".toList ++ " desc, b".toList := by decide +kernel
  have spread : "\t é.x_1 ".toList.filter (!isBlank ·) = "é.x_1".toList := by decide +kernel
  have ends : ∀ ch ∈ " desc, b".toList.head?, endsWord ch := by
    intro ch head
    obtain rfl : ' ' = ch := by simpa using head
    decide
  have direction : Direction.after " desc, b".toList = .descending := by decide +kernel
  obtain ⟨recognised, reads⟩ :=
    @recognised_and_read "Avg(é.x_1)" ⟨.average, some "é.x_1", "Avg(é.x_1)"⟩
  have read := ((reads _ _ written _ _ spread ends _).2 begins).2
  rw [direction] at read
  exact ⟨recognised.mpr ⟨rfl, _, _, written⟩, read⟩

end Aggregate
end TableQuery
