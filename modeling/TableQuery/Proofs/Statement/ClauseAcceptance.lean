import TableQuery.Proofs.Statement.Acceptance

/-! Each clause is read from its place on, up to the place after it. -/
namespace TableQuery
open Token

namespace Reader

variable {phase : Phase} {place : Place} {L M : Language Char}

theorem blanks_of_gap : ∀ t ∈ gap * M, t ∈ blanks * M := by
  rintro _ ⟨g, space, t, mem, rfl⟩
  exact ⟨g, gap_subset_blanks space, t, mem, rfl⟩

section Conditions

variable {condition : Condition}

theorem not_inOperand_of_isBlank {c : Char} (blank : isBlank c) : inOperand c = false := by
  simp [inOperand, blank]

theorem not_inOperand_of_isOperatorChar {c : Char} (operator : isOperatorChar c) :
    inOperand c = false := by
  simp [inOperand, operator]

theorem isBlank_of_inOperand {c : Char} (h : inOperand c) : isBlank c = false :=
  eq_false_of_apart not_inOperand_of_isBlank h

theorem isBlank_of_isOperatorChar {c : Char} (h : isOperatorChar c) : isBlank c = false := by
  simp only [isOperatorChar, Bool.or_eq_true, beq_iff_eq] at h
  rcases h with ((rfl | rfl) | rfl) | rfl <;> decide

theorem not_isOperatorChar_of_isBlank {c : Char} (h : isBlank c) : isOperatorChar c = false :=
  eq_false_of_apart isBlank_of_isOperatorChar h

/-- A token ends before any blanks and a run that goes on with none of its characters. -/
theorem ends_run {inToken inRun : Char → Bool} {s : String} (run : IsRun inRun s)
    (notBlank : ∀ c, isBlank c → inToken c = false) (apart : ∀ c, inRun c → inToken c = false) :
    ∀ t ∈ blanks * (verbatim s * M), ∀ c ∈ t.head?, inToken c = false := by
  have begins : Begins (fun c => isBlank c || inRun c) (blanks * (verbatim s * M)) := by
    refine (begins_blanks.mono (by simp +contextual)).mul' ?_
    intro t mem c head
    simp [head_verbatim run t mem c head]
  intro t mem c head
  have := begins t mem c head
  simp only [Bool.or_eq_true] at this
  rcases this with blank | kept
  · exact notBlank c blank
  · exact apart c kept

/-- The characters that may follow an operand in a condition end it. -/
theorem endsOperand {operator : String} (isOperator : IsOperator operator) :
    ∀ t ∈ blanks * (verbatim operator * M), ∀ c ∈ t.head?, inOperand c = false :=
  ends_run isOperator (fun _ => not_inOperand_of_isBlank) fun _ => not_inOperand_of_isOperatorChar

theorem unblank_literal {literal : String} (isLiteral : IsLiteral literal) :
    ∀ t ∈ verbatim literal * M, ∀ c ∈ t.head?, isBlank c = false := by
  rcases isLiteral with ⟨quote, body, isQuote, -, shape⟩ | ⟨run, -⟩
  · rintro _ ⟨_, rfl, t, -, rfl⟩ c head
    rw [shape] at head
    obtain rfl : quote = c := by simpa using head
    simp only [Token.isQuote, Bool.or_eq_true, beq_iff_eq] at isQuote
    rcases isQuote with rfl | rfl <;> decide
  · intro t mem c head
    exact eq_false_of_apart (fun blank => by simp [inBareLiteral, blank])
      (head_verbatim run t mem c head)

/-- What stands between an operator and its literal keeps the two apart. -/
theorem endsOperator {literal : String} (isLiteral : IsLiteral literal) :
    ∀ t ∈ space (!beginsOperator literal) * (verbatim literal * M), ∀ c ∈ t.head?,
      isOperatorChar c = false := by
  cases begins : beginsOperator literal with
  | true =>
    intro t mem c head
    exact not_isOperatorChar_of_isBlank (begins_gap.mul nil_notMem_gap t mem c head)
  | false =>
    rintro _ ⟨g, blank, _, ⟨_, rfl, t, -, rfl⟩, rfl⟩ c head
    cases g with
    | cons d g =>
      obtain rfl : d = c := by simpa using head
      exact not_isOperatorChar_of_isBlank (blank d List.mem_cons_self)
    | nil =>
      have some : literal.toList ≠ [] := by
        rcases isLiteral with ⟨quote, body, -, -, shape⟩ | ⟨run, -⟩
        · simp [shape]
        · simp [run.1]
      obtain ⟨d, more, shape⟩ := List.exists_cons_of_ne_nil some
      obtain rfl : d = c := by simpa [shape] using head
      simpa [beginsOperator, shape] using begins

theorem takes_condition (wf : condition.WellFormed)
    (stop : beginsQuoted condition.literal = false →
      ∀ t ∈ L, ∀ c ∈ t.head?, inBareLiteral c = false) :
    readCondition.Takes ⟨phase, blanks * (condition.texts * L)⟩ condition ⟨phase, L⟩ := by
  have some : condition.literal ≠ "" := by
    rcases wf.literal with ⟨quote, body, -, -, shape⟩ | ⟨run, -⟩
    · intro empty
      rw [empty] at shape
      cases shape
    · exact run.1
  simp only [Condition.texts, mul_assoc]
  refine (takes_nonempty _ wf.field.1 ?_ (takes_readWhile wf.field (endsOperand wf.operator))).bind
    ((takes_nonempty _ wf.operator.1 ?_ (takes_readWhile wf.operator (endsOperator wf.literal))).bind
      (Takes.bind (Takes.of_subset (takes_nonempty _ some (unblank_literal wf.literal)
        (takes_readLiteral wf.literal stop)) ?_) (Takes.pure condition _)))
  · exact fun t mem c head => isBlank_of_inOperand (head_verbatim wf.field t mem c head)
  · exact fun t mem c head => isBlank_of_isOperatorChar (head_verbatim wf.operator t mem c head)
  · rintro _ ⟨g, space, t, mem, rfl⟩
    exact ⟨g, space_subset_blanks space, t, mem, rfl⟩

theorem takes_nextOrAnd_and (loose : Bool) :
    nextOrAnd.Takes ⟨.conditions, space loose * (Keyword.and.spellings * (gap * M))⟩ true
      ⟨.conditions, gap * M⟩ := by
  have unled : nextClause.Takes ⟨.conditions, space loose * (Keyword.and.spellings * (gap * M))⟩
      false ⟨.conditions, Keyword.and.spellings * (gap * M)⟩ :=
    takes_nextClause_none loose (fun t mem => Keyword.letter_of_mem mem rfl rfl)
      fun t mem => following?_and mem
  exact unled.bind ((takes_expect Keyword.plain_and _).bind (Takes.pure true _))

theorem takes_nextOrAnd_next (loose : Bool) (after : place.After .conditions) :
    nextOrAnd.Takes ⟨.conditions, place.lead loose⟩ false place :=
  (takes_nextClause loose after).bind (Takes.pure false _)

theorem endsBare {c : Char} (blank : isBlank c ∨ c = ';') : inBareLiteral c = false := by
  rcases blank with blank | rfl
  · simp [inBareLiteral, blank]
  · decide

theorem goesOn_conditionList {conditions : List Condition} (some : conditions ≠ [])
    (wf : ∀ condition ∈ conditions, condition.WellFormed) (place : Place) :
    (list readCondition nextOrAnd nextOrAnd_advances).GoesOn
      ⟨.conditions, blanks * (conditionList conditions * place.lead (endsQuoted conditions))⟩
      (listAfter readCondition nextOrAnd nextOrAnd_advances conditions)
      ⟨.conditions, place.lead (endsQuoted conditions)⟩ := by
  induction conditions with
  | nil => exact absurd rfl some
  | cons condition rest ih =>
    have head := wf condition List.mem_cons_self
    cases rest with
    | nil =>
      refine goesOn_list_last (takes_condition head ?_)
      intro bare t mem c first
      rw [show endsQuoted [condition] = false from bare] at mem
      have := place.begins_lead t mem c first
      simp only [Bool.or_eq_true, beq_iff_eq] at this
      exact endsBare this
    | cons next rest =>
      have others := ih (List.cons_ne_nil next rest)
        (fun other mem => wf other (List.mem_cons_of_mem condition mem))
      have ends : endsQuoted (condition :: next :: rest) = endsQuoted (next :: rest) := by
        simp [endsQuoted]
      simp only [conditionList, mul_assoc, ends]
      refine goesOn_list_cons (takes_condition head ?_) (takes_nextOrAnd_and _)
        (others.of_subset blanks_of_gap)
      intro bare t mem c head
      rw [bare] at mem
      exact endsBare (.inl (begins_gap.mul nil_notMem_gap t mem c head))

end Conditions

section Clauses

variable {query : Query}

theorem takes_fields {fields : List String} (some : fields ≠ []) (wf : ∀ field ∈ fields, IsItem field)
    (after : place.After .fields) :
    readFields.Takes ⟨.fields, gap * (commaList (fields.map itemTexts) * place.lead false)⟩ fields
      place := by
  refine GoesOn.takes (goesOn_listWithin (GoesOn.of_subset (goesOn_commaList _ some ?_ ?_)
    blanks_of_gap)) (takes_listAfter (takes_commaOrNext_next _ after))
  · exact fun field mem R => takes_field (wf field mem) _ (endsWord_of_comma R)
  · exact fun field mem => (takes_field (wf field mem) _ (endsWord_of_lead place)).lead

/-- What a clause does after its last token: the next clause is entered. -/
def finishing {α : Type} (problem : SyntaxProblem) (value : α) : Reader α := do
  endClause problem
  return value

theorem takes_finishing {α : Type} (problem : SyntaxProblem) (value : α) (loose : Bool)
    (after : place.After phase) :
    (finishing problem value).Takes ⟨phase, place.lead loose⟩ value place :=
  (takes_endClause problem loose after).bind (Takes.pure value _)

theorem goesOn_table {table : String} (wf : IsWord table) (place : Place) :
    readTable.GoesOn (.ofTable place table) (finishing .tokenAfterTable table)
      ⟨.table, place.lead false⟩ := by
  refine GoesOn.bind (takes_expect Keyword.plain_from _) ?_
  refine GoesOn.bind (Takes.of_subset ?_ blanks_of_gap) (GoesOn.refl _ _)
  exact takes_word wf _ (endsWord_of_lead place)

theorem takes_table {table : String} (wf : IsWord table) (after : place.After .table) :
    readTable.Takes (.ofTable place table) table place :=
  (goesOn_table wf place).takes (takes_finishing _ _ _ after)

theorem isOperator_equals : IsOperator "=" := by decide

theorem not_isOperatorChar_of_inOperand {c : Char} (h : inOperand c) : isOperatorChar c = false :=
  eq_false_of_apart not_inOperand_of_isOperatorChar h

theorem isBlank_of_word {c : Char} (h : (!endsWord c) = true) : isBlank c = false :=
  eq_false_of_apart (fun blank => by simp [endsWord, blank]) h

/-- After the equality sign of a join comes its right side, which is no part of the sign. -/
theorem endsEquals {right : String} (isOperand : IsOperand right) :
    ∀ t ∈ blanks * (verbatim right * M), ∀ c ∈ t.head?, isOperatorChar c = false :=
  ends_run isOperand (fun _ => not_isOperatorChar_of_isBlank)
    fun _ => not_isOperatorChar_of_inOperand

theorem goesOn_join {join : Join} (wf : join.WellFormed) (place : Place) :
    readJoin.GoesOn (.ofJoin place (some join)) (finishing .tokenAfterJoin join)
      ⟨.join, place.lead false⟩ := by
  have free : upperAscii join.kind ≠ "JOIN" := by
    intro same
    exact wf.unreserved (by simp [same, reservedKinds])
  have fullTable : join.table.isEmpty = false := by simpa using wf.table.1
  have fullLeft : join.left.isEmpty = false := by simpa using wf.left.1
  have fullRight : join.right.isEmpty = false := by simpa using wf.right.1
  have beforeTable (M : Language Char) : ∀ t ∈ verbatim join.table * M, ∀ c ∈ t.head?,
      isBlank c = false := fun t mem c head => isBlank_of_word (head_verbatim wf.table t mem c head)
  have afterTable (M : Language Char) : Begins endsWord (gap * M) :=
    (begins_gap.mono (by simp +contextual [endsWord])).mul nil_notMem_gap
  have beforeOperand (M : Language Char) {operand : String} (isOperand : IsOperand operand) :
      ∀ t ∈ verbatim operand * M, ∀ c ∈ t.head?, isBlank c = false :=
    fun t mem c head => isBlank_of_inOperand (head_verbatim isOperand t mem c head)
  have beforeEquals (M : Language Char) : ∀ t ∈ verbatim "=" * M, ∀ c ∈ t.head?,
      isBlank c = false := fun t mem c head =>
    isBlank_of_isOperatorChar (head_verbatim isOperator_equals t mem c head)
  have afterRight : ∀ t ∈ place.lead false, ∀ c ∈ t.head?, inOperand c = false := by
    intro t mem c head
    have := place.begins_lead t mem c head
    simp only [Bool.or_eq_true, beq_iff_eq] at this
    rcases this with blank | rfl
    · exact not_inOperand_of_isBlank blank
    · decide
  refine GoesOn.bind (takes_readJoinKeyword wf.kind free) ?_
  refine GoesOn.bind (Takes.of_subset (takes_skipBlanks (beforeTable _)) blanks_of_gap) ?_
  refine GoesOn.bind (takes_readWhile wf.table (afterTable _).not) ?_
  simp only [fullTable, Bool.false_eq_true, if_false]
  refine GoesOn.bind (Takes.of_subset (takes_skipBlanks (Keyword.unblank_of_mem rfl rfl))
    blanks_of_gap) ?_
  refine GoesOn.bind (takes_expect Keyword.plain_on _) ?_
  refine GoesOn.bind (Takes.of_subset (takes_skipBlanks (beforeOperand _ wf.left)) blanks_of_gap) ?_
  refine GoesOn.bind (takes_readWhile wf.left (endsOperand isOperator_equals)) ?_
  refine GoesOn.bind (takes_skipBlanks (beforeEquals _)) (GoesOn.position_bind fun start => ?_)
  refine GoesOn.bind (takes_readWhile isOperator_equals (endsEquals wf.right)) ?_
  simp only [fullLeft, bne_self_eq_false, Bool.or_self, Bool.false_eq_true, if_false]
  refine GoesOn.bind (takes_skipBlanks (beforeOperand _ wf.right)) ?_
  refine GoesOn.bind (takes_readWhile wf.right afterRight) ?_
  simp only [fullRight, Bool.false_eq_true, if_false]
  exact GoesOn.refl _ _

theorem takes_join {join : Join} (wf : join.WellFormed) (after : place.After .join) :
    readJoin.Takes (.ofJoin place (some join)) join place :=
  (goesOn_join wf place).takes (takes_finishing _ _ _ after)

theorem goesOn_conditions {conditions : List Condition} (some : conditions ≠ [])
    (wf : ∀ condition ∈ conditions, condition.WellFormed) (place : Place) :
    readConditions.GoesOn (.ofConditions place conditions)
      (listAfter readCondition nextOrAnd nextOrAnd_advances conditions)
      ⟨.conditions, place.lead (endsQuoted conditions)⟩ := by
  rw [Place.ofConditions, if_neg some]
  refine GoesOn.bind (takes_expect Keyword.plain_where _)
    (goesOn_listWithin (GoesOn.of_subset ?_ blanks_of_gap))
  exact goesOn_conditionList some wf place

theorem takes_conditions {conditions : List Condition} (some : conditions ≠ [])
    (wf : ∀ condition ∈ conditions, condition.WellFormed) (after : place.After .conditions) :
    readConditions.Takes (.ofConditions place conditions) conditions place :=
  (goesOn_conditions some wf place).takes (takes_listAfter (takes_nextOrAnd_next _ after))

theorem goesOn_grouping {fields : List String} (some : fields ≠ [])
    (wf : ∀ field ∈ fields, IsWord field) (place : Place) :
    readGrouping.GoesOn (.ofGrouping place (Option.some fields))
      (listAfter (nonempty readWord .expectedGroupField) (commaOrNext .invalidGroupBy)
        (commaOrNext_advances _) fields) ⟨.grouping, place.lead true⟩ := by
  refine GoesOn.bind (takes_expect Keyword.plain_groupBy _)
    (goesOn_listWithin (GoesOn.of_subset (goesOn_commaList _ some ?_ ?_) blanks_of_gap))
  · exact fun field mem R => takes_word (wf field mem) _ (endsWord_of_comma R)
  · exact fun field mem => (takes_word (wf field mem) _ (endsWord_of_lead place)).lead

theorem takes_grouping {fields : List String} (some : fields ≠ [])
    (wf : ∀ field ∈ fields, IsWord field) (after : place.After .grouping) :
    readGrouping.Takes (.ofGrouping place (Option.some fields)) fields place :=
  (goesOn_grouping some wf place).takes (takes_listAfter (takes_commaOrNext_next _ after))

theorem endsKey_comma (R : Language Char) : EndsKey (mark ',' * R) := by
  refine ⟨?_, ?_, ?_⟩
  · rintro _ ⟨_, rfl, t, -, rfl⟩ c head
    obtain rfl : ',' = c := by simpa using head
    decide
  all_goals
    rintro _ ⟨_, rfl, t, -, rfl⟩
    rfl

theorem takes_ordering {keys : List SortKey} (some : keys ≠ [])
    (wf : ∀ key ∈ keys, IsItem key.field) (ends : EndsKey place.start)
    (after : place.After .ordering) :
    readOrdering.Takes (.ofOrdering place (Option.some keys)) keys place := by
  refine (takes_expect Keyword.plain_orderBy _).bind
    (GoesOn.takes (goesOn_listWithin (GoesOn.of_subset (goesOn_commaList _ some ?_ ?_)
      blanks_of_gap)) (takes_listAfter (takes_commaOrNext_next _ after)))
  · exact fun key mem R =>
      takes_sortKey (wf key mem) (endsKey_comma R) (endsWord_of_comma R) (fun t mem => mem)
  · intro key mem
    rw [Place.lead_true]
    refine takes_sortKey (wf key mem) ends (endsWord_of_lead place) fun t mem => ?_
    rw [← Place.lead_true]
    exact lead_false_subset place mem

theorem isWordChar_of_isDigit {c : Char} (digit : c.isDigit) : isWordChar c := by
  have small : c.toNat < 0x80 := by
    simp only [Char.isDigit, ge_iff_le, Bool.and_eq_true, decide_eq_true_eq,
      UInt32.le_iff_toNat_le] at digit
    have nine : '9'.val.toNat = 57 := rfl
    change c.val.toNat < 0x80
    omega
  simp [isWordChar, isAlphanumeric, small, Char.isAlphanum, digit]

theorem not_endsWord_of_isWordChar {c : Char} (letter : isWordChar c) : endsWord c = false := by
  cases ends : endsWord c with
  | false => rfl
  | true =>
    simp only [endsWord, Bool.or_eq_true, beq_iff_eq] at ends
    rcases ends with (blank | rfl) | rfl
    · simp [not_isBlank_of_isWordChar letter] at blank
    · exact absurd letter (by decide)
    · exact absurd letter (by decide)

theorem isWord_of_numeral {n : Nat} {w : List Char} (mem : w ∈ numerals n) :
    IsWord (String.ofList w) := by
  obtain ⟨digits, shape, some, all, -⟩ := mem
  have word : ∀ c ∈ digits, endsWord c = false := fun c mem =>
    not_endsWord_of_isWordChar (isWordChar_of_isDigit (List.all_eq_true.mp all c mem))
  refine ⟨?_, ?_⟩
  · intro empty
    rw [← String.toList_inj, String.toList_ofList] at empty
    rcases shape with rfl | rfl
    · exact some empty
    · cases empty
  · rw [String.toList_ofList]
    rcases shape with rfl | rfl
    · intro c mem
      simp [word c mem]
    · intro c mem
      rcases List.mem_cons.mp mem with rfl | mem
      · decide
      · simp [word c mem]

theorem parseLimit?_of_numeral {n : Nat} (small : n < 2 ^ 64) {w : List Char}
    (mem : w ∈ numerals n) : parseLimit? (String.ofList w) = some n := by
  obtain ⟨digits, shape, nonempty, all, rfl⟩ := mem
  have full : digits.isEmpty = false := by simpa using nonempty
  rcases shape with rfl | rfl
  · cases w with
    | nil => exact absurd rfl nonempty
    | cons c w =>
      have unsigned : c ≠ '+' := by
        rintro rfl
        simp at all
      simp only [parseLimit?, String.toList_ofList]
      split
      · rename_i same
        simp only [List.cons.injEq] at same
        exact absurd same.1 unsigned
      · simpa [all] using small
  · simpa [parseLimit?, full, all] using small

theorem after_finish : Place.finish.After phase := by
  simp [Place.After, Place.finish]

theorem Takes.choose {α : Type} {reader : Reader α} {A : Language Char} {there : Place} {x : α}
    (takes : ∀ w ∈ A, reader.Takes ⟨phase, verbatim (String.ofList w) * M⟩ x there) :
    reader.Takes ⟨phase, A * M⟩ x there := by
  rintro c ⟨same, w, mem, t, memT, rest⟩
  exact takes w mem c ⟨same, w, String.toList_ofList.symm, t, memT, rest⟩

theorem takes_limit {n : Nat} (small : n < 2 ^ 64) :
    readLimit.Takes (.ofLimit (some n)) n .finish := by
  have unblank : ∀ t ∈ numerals n * Place.finish.lead false, ∀ c ∈ t.head?, isBlank c = false := by
    rintro _ ⟨w, mem, t, memT, rfl⟩ c head
    refine isBlank_of_word (head_verbatim (isWord_of_numeral mem) _ ⟨w, ?_, t, memT, rfl⟩ c head)
    exact String.toList_ofList.symm
  refine (takes_expect Keyword.plain_limit _).bind
    (Takes.bind (Takes.of_subset (takes_skipBlanks unblank) blanks_of_gap) ?_)
  refine Takes.position_bind fun start => Takes.choose fun w mem => ?_
  refine (takes_readWhile (isWord_of_numeral mem) (endsWord_of_lead Place.finish).not).bind ?_
  simp only [parseLimit?_of_numeral small mem]
  exact (takes_endClause _ false after_finish).bind (Takes.pure n _)

end Clauses

end Reader
end TableQuery
