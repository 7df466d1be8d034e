import TableQuery.Proofs.Digits
import TableQuery.Proofs.Statement.Acceptance
import TableQuery.Statement.Printer

/-! The printed statement of a query is one of its texts. The clauses are put together from the last
one back, as the grammar has them. -/
namespace TableQuery

section Pieces

variable {L : Language Char} {t : List Char}

theorem cons_mem_gap (mem : t ∈ L) : ' ' :: t ∈ gap * L := ⟨[' '], blank_mem_gap, t, mem, rfl⟩

theorem cons_mem_blanks (mem : t ∈ L) : ' ' :: t ∈ blanks * L :=
  ⟨[' '], gap_subset_blanks blank_mem_gap, t, mem, rfl⟩

theorem cons_mem_space (loose : Bool) (mem : t ∈ L) : ' ' :: t ∈ space loose * L := by
  cases loose with
  | false => exact cons_mem_gap mem
  | true => exact cons_mem_blanks mem

theorem append_mem_verbatim (s : String) (mem : t ∈ L) : s.toList ++ t ∈ verbatim s * L :=
  ⟨s.toList, rfl, t, mem, rfl⟩

theorem word_mem_spellings {keyword : Keyword}
    (upper : keyword.word.map Char.toUpper = keyword.word) :
    keyword.word ∈ keyword.spellings := upper

/-- A keyword with a blank after it. -/
theorem keyword_mem {keyword : Keyword} (upper : keyword.word.map Char.toUpper = keyword.word)
    (mem : t ∈ L) : keyword.word ++ ' ' :: t ∈ keyword.spellings * (gap * L) :=
  ⟨_, word_mem_spellings upper, ' ' :: t, cons_mem_gap mem, rfl⟩

/-- Items with a comma and a blank between any two. -/
theorem separated_mem {α : Type} {texts : α → Language Char} {text : α → String} {xs : List α}
    (each : ∀ x ∈ xs, (text x).toList ∈ texts x) :
    (separated ", " (xs.map text)).toList ∈ commaList (xs.map texts) := by
  induction xs with
  | nil => rfl
  | cons x xs ih =>
    have first := each x List.mem_cons_self
    have rest := ih fun y mem => each y (List.mem_cons_of_mem x mem)
    cases xs with
    | nil => exact first
    | cons y ys =>
      simp only [List.map_cons, separated, commaList, String.toList_append,
        List.append_assoc] at rest ⊢
      exact ⟨_, first, _,
        ⟨[], nil_mem_blanks, _, ⟨[','], rfl, _, cons_mem_blanks rest, rfl⟩, rfl⟩, rfl⟩

theorem SortKey.text_mem {key : SortKey} (isItem : IsItem key.field) :
    key.text.toList ∈ key.texts := by
  unfold SortKey.text SortKey.texts
  cases key.direction with
  | ascending =>
    have direction : ' ' :: Keyword.ascending.word ∈ gap * Keyword.ascending.spellings :=
      cons_mem_gap (word_mem_spellings (by decide))
    rw [String.toList_append]
    exact ⟨_, isItem.mem_itemTexts, _, .inr direction, rfl⟩
  | descending =>
    have direction : ' ' :: Keyword.descending.word ∈ gap * Keyword.descending.spellings :=
      cons_mem_gap (word_mem_spellings (by decide))
    rw [String.toList_append]
    exact ⟨_, isItem.mem_itemTexts, _, direction, rfl⟩

theorem Condition.text_mem (condition : Condition) : condition.text.toList ∈ condition.texts := by
  simp only [Condition.text, String.toList_append, List.append_assoc]
  exact append_mem_verbatim _ (cons_mem_blanks (append_mem_verbatim _ (cons_mem_space _ rfl)))

theorem conditions_text_mem (conditions : List Condition) :
    (separated " AND " (conditions.map Condition.text)).toList ∈ conditionList conditions := by
  induction conditions with
  | nil => rfl
  | cons condition rest ih =>
    cases rest with
    | nil => exact condition.text_mem
    | cons next rest =>
      simp only [List.map_cons, separated, conditionList, String.toList_append,
        List.append_assoc] at ih ⊢
      have joined : Keyword.and.word ++ ' ' :: _ ∈ _ := keyword_mem (by decide) ih
      exact ⟨_, condition.text_mem, _, cons_mem_space _ joined, rfl⟩

theorem toDigits_mem_numerals (n : Nat) : Nat.toDigits 10 n ∈ numerals n :=
  ⟨Nat.toDigits 10 n, .inl rfl, Nat.toDigits_ne_nil, all_isDigit_toDigits n, ofDigits_toDigits n⟩

end Pieces

namespace Query

variable {query : Query}

theorem nil_mem_lead_finish : [] ∈ Place.finish.lead false := .inl nil_mem_blanks

theorem limitText_mem : query.limitText.toList ∈ query.limitPlace.lead false := by
  unfold limitText limitPlace
  cases query.limit with
  | none => exact nil_mem_lead_finish
  | some n =>
    have digits : Nat.toDigits 10 n ++ [] ∈ numerals n * Place.finish.lead false :=
      ⟨_, toDigits_mem_numerals n, [], nil_mem_lead_finish, rfl⟩
    have clause : Keyword.limit.word ++ ' ' :: (Nat.toDigits 10 n ++ []) ∈ _ :=
      keyword_mem (by decide) digits
    rw [List.append_nil] at clause
    simp only [String.toList_append, String.toList_ofList]
    exact cons_mem_gap clause

theorem orderingText_mem {t : List Char} (wf : query.WellFormed)
    (mem : t ∈ query.limitPlace.lead false) :
    query.orderingText.toList ++ t ∈ query.orderingPlace.lead false := by
  have ordering := wf.ordering
  unfold orderingText orderingPlace
  cases given : query.orderBy with
  | none => exact mem
  | some keys =>
    have list := separated_mem fun key mem => SortKey.text_mem (ordering keys given key mem)
    have clause : Keyword.orderBy.word ++ ' ' :: (_ ++ t) ∈ _ :=
      keyword_mem (by decide) (Language.append_mem_mul list mem)
    rw [String.toList_append, List.append_assoc]
    exact cons_mem_gap clause

theorem groupingText_mem {t : List Char} (mem : t ∈ query.orderingPlace.lead false) :
    query.groupingText.toList ++ t ∈ query.groupingPlace.lead false := by
  unfold groupingText groupingPlace
  cases query.groupBy with
  | none => exact mem
  | some fields =>
    have list : (separated ", " (fields.map id)).toList ∈ commaList (fields.map verbatim) :=
      separated_mem fun field _ => rfl
    rw [List.map_id] at list
    have clause : Keyword.groupBy.word ++ ' ' :: (_ ++ t) ∈ _ :=
      keyword_mem (by decide) (Language.append_mem_mul list mem)
    rw [String.toList_append, List.append_assoc]
    exact cons_mem_gap clause

theorem conditionsText_mem {t : List Char} (mem : t ∈ query.groupingPlace.lead false) :
    query.conditionsText.toList ++ t ∈ query.conditionsPlace.lead false := by
  have loosen : t ∈ query.groupingPlace.lead (endsQuoted query.conditions) := by
    cases endsQuoted query.conditions with
    | false => exact mem
    | true => exact Reader.lead_false_subset _ mem
  revert loosen
  unfold conditionsText conditionsPlace Place.ofConditions
  cases query.conditions with
  | nil => exact fun _ => mem
  | cons condition rest =>
    intro loosen
    have list := conditions_text_mem (condition :: rest)
    have clause : Keyword.whereRows.word ++ ' ' :: (_ ++ t) ∈ _ :=
      keyword_mem (by decide) (Language.append_mem_mul list loosen)
    rw [if_neg (List.cons_ne_nil condition rest), String.toList_append, List.append_assoc]
    exact cons_mem_gap clause

theorem joinText_mem {t : List Char} (mem : t ∈ query.conditionsPlace.lead false) :
    query.joinText.toList ++ t ∈ query.joinPlace.lead false := by
  unfold joinText joinPlace
  cases query.join with
  | none => exact mem
  | some join =>
    have sign : ['='] ∈ mark '=' := rfl
    have equality := Language.append_mem_mul sign
      (cons_mem_blanks (append_mem_verbatim join.right mem))
    have sides := append_mem_verbatim join.left (cons_mem_blanks equality)
    have condition : Keyword.on.word ++ ' ' :: _ ∈ _ := keyword_mem (by decide) sides
    have table := append_mem_verbatim join.table (cons_mem_gap condition)
    have word : Keyword.join.word ∈ Keyword.join.spellings := word_mem_spellings (by decide)
    have keyword : join.kind.toList ++ ' ' :: Keyword.join.word ∈ joinTexts join.kind :=
      .inr (append_mem_verbatim join.kind (cons_mem_gap word))
    have clause := cons_mem_gap (Language.append_mem_mul keyword (cons_mem_gap table))
    rw [List.append_assoc] at clause
    simp only [Join.text, String.toList_append, List.append_assoc]
    exact clause

theorem statement_mem_texts (wf : query.WellFormed) : query.statement.toList ∈ query.texts := by
  have rest :=
    joinText_mem (conditionsText_mem (groupingText_mem (orderingText_mem wf limitText_mem)))
  have table : Keyword.fromTable.word ++ ' ' :: _ ∈ _ :=
    keyword_mem (by decide) (append_mem_verbatim query.table rest)
  have list : (separated ", " (query.fields.map id)).toList ∈
      commaList (query.fields.map itemTexts) :=
    separated_mem fun field mem => (wf.fields field mem).mem_itemTexts
  rw [List.map_id] at list
  have text : Keyword.select.word ++ ' ' :: _ ∈ _ :=
    keyword_mem (by decide) (Language.append_mem_mul list (cons_mem_gap table))
  refine ⟨[], nil_mem_blanks, _, text, ?_⟩
  simp only [statement, String.toList_append, List.append_assoc]
  rfl

end Query
end TableQuery
