import TableQuery.Proofs.Statement.Refusal
import TableQuery.Proofs.Statement.RoundTrip

/-! Blanks between the two words of a clause keyword. Any may part those of a join; `GROUP BY` and
`ORDER BY` are read with one space only, and a statement that has other blanks there is refused. -/
namespace TableQuery

namespace Keyword

def groupWord : Keyword := { word := "GROUP".toList, blankAfter := true }
def orderWord : Keyword := { word := "ORDER".toList, blankAfter := true }
def byWord : Keyword := { word := "BY".toList, blankAfter := true }

end Keyword

/-- The clause keywords of two words. -/
inductive PairedKeyword where
  | join
  | groupBy
  | orderBy
deriving DecidableEq, Repr

namespace PairedKeyword

def clause : PairedKeyword → Phase
  | join => .join
  | groupBy => .grouping
  | orderBy => .ordering

theorem clause_ne_done (keyword : PairedKeyword) : keyword.clause ≠ .done := by
  cases keyword <;> decide

def second : PairedKeyword → Keyword
  | join => .join
  | groupBy => .byWord
  | orderBy => .byWord

/-- The blanks that the two words are read with between them. -/
def partings : PairedKeyword → Language Char
  | join => gap
  | groupBy => verbatim " "
  | orderBy => verbatim " "

end PairedKeyword

namespace Place

def followedBy (place : Place) (L : Language Char) : Place := ⟨place.phase, place.texts * L⟩

variable {place : Place} {L : Language Char}

theorem lead_followedBy (unfinished : place.phase ≠ .done) (loose : Bool) :
    (place.followedBy L).lead loose = place.lead loose * L := by
  have followed : (place.followedBy L).phase ≠ .done := unfinished
  rw [lead_clause followed, lead_clause unfinished, mul_assoc]
  rfl

theorem ofTable_followedBy (unfinished : place.phase ≠ .done) (table : String) :
    ofTable (place.followedBy L) table = (ofTable place table).followedBy L := by
  rw [ofTable, lead_followedBy unfinished]
  simp only [ofTable, followedBy, mul_assoc]

theorem ofJoin_followedBy (unfinished : place.phase ≠ .done) (join : Option Join) :
    ofJoin (place.followedBy L) join = (ofJoin place join).followedBy L := by
  cases join with
  | none => rfl
  | some join =>
    rw [ofJoin, lead_followedBy unfinished]
    simp only [ofJoin, followedBy, mul_assoc]

theorem ofConditions_followedBy (unfinished : place.phase ≠ .done) (conditions : List Condition) :
    ofConditions (place.followedBy L) conditions =
      (ofConditions place conditions).followedBy L := by
  by_cases none : conditions = []
  · rw [ofConditions, ofConditions, if_pos none, if_pos none]
  · rw [ofConditions, ofConditions, if_neg none, if_neg none, lead_followedBy unfinished]
    simp only [followedBy, mul_assoc]

theorem ofGrouping_followedBy (unfinished : place.phase ≠ .done) (fields : Option (List String)) :
    ofGrouping (place.followedBy L) fields = (ofGrouping place fields).followedBy L := by
  cases fields with
  | none => rfl
  | some fields =>
    rw [ofGrouping, lead_followedBy unfinished]
    simp only [ofGrouping, followedBy, mul_assoc]

theorem ofJoin_unfinished (unfinished : place.phase ≠ .done) (join : Option Join) :
    (ofJoin place join).phase ≠ .done := by
  cases join with
  | none => exact unfinished
  | some join => nofun

theorem ofConditions_unfinished (unfinished : place.phase ≠ .done) (conditions : List Condition) :
    (ofConditions place conditions).phase ≠ .done := by
  unfold ofConditions
  split
  · exact unfinished
  · nofun

theorem ofGrouping_unfinished (unfinished : place.phase ≠ .done) (fields : Option (List String)) :
    (ofGrouping place fields).phase ≠ .done := by
  cases fields with
  | none => exact unfinished
  | some fields => nofun

end Place

namespace Query

/-- The texts of a query with the clause of a keyword, and all that comes after, replaced by a
place. -/
def textsTo (query : Query) (keyword : PairedKeyword) (place : Place) : Language Char :=
  match keyword with
  | .join => query.textsOn (.ofTable place query.table)
  | .groupBy => query.textsOn (query.conditionsBefore place)
  | .orderBy => query.textsOn (query.conditionsBefore (.ofGrouping place query.groupBy))

def firstWord (query : Query) : PairedKeyword → Language Char
  | .join => query.join.elim 0 (verbatim ·.kind)
  | .groupBy => Keyword.groupWord.spellings
  | .orderBy => Keyword.orderWord.spellings

def textsAfter (query : Query) : PairedKeyword → Language Char
  | .join => query.join.elim 0 fun join =>
      gap * (verbatim join.table * (gap * (Keyword.on.spellings * (gap * (verbatim join.left *
        (blanks * (mark '=' * (blanks * (verbatim join.right *
          query.conditionsPlace.lead false)))))))))
  | .groupBy => query.groupBy.elim 0 fun fields =>
      gap * (commaList (fields.map verbatim) * query.orderingPlace.lead false)
  | .orderBy => query.orderBy.elim 0 fun keys =>
      gap * (commaList (keys.map SortKey.texts) * query.limitPlace.lead false)

def has (query : Query) : PairedKeyword → Bool
  | .join => query.join.isSome
  | .groupBy => query.groupBy.isSome
  | .orderBy => query.orderBy.isSome

end Query

/-- A text cut at the blanks between two of its words. -/
structure Cut where
  before : List Char
  first : List Char
  second : List Char
  after : List Char

def Cut.text (cut : Cut) (parting : List Char) : String :=
  String.ofList (cut.before ++ (cut.first ++ (parting ++ (cut.second ++ cut.after))))

/-- The two words are a clause keyword of a query: what comes before them is the beginning of a text
of the query up to that clause, and what comes after is the rest of the clause and of the text. -/
structure Query.IsCut (query : Query) (keyword : PairedKeyword) (cut : Cut) : Prop where
  before : cut.before ∈ query.textsTo keyword ⟨keyword.clause, 1⟩
  first : cut.first ∈ query.firstWord keyword
  second : cut.second ∈ keyword.second.spellings
  after : cut.after ∈ query.textsAfter keyword

/-- A text of a query whose join is the one word `JOIN`. -/
def Query.HasBareJoin (query : Query) (text : String) : Prop :=
  (∃ join ∈ query.join, join.kind = "INNER") ∧
    text.toList ∈ query.textsTo .join ⟨.join, 1⟩ *
      (Keyword.join.spellings * query.textsAfter .join)

namespace Query

variable {query : Query} {keyword : PairedKeyword} {cut : Cut} {parting : List Char}

/-- What a query has before a keyword does not depend on what comes after it: each clause before
keeps the texts of a place at the end of its own. -/
theorem textsTo_eq (query : Query) (keyword : PairedKeyword) (L : Language Char) :
    query.textsTo keyword ⟨keyword.clause, L⟩ = query.textsTo keyword ⟨keyword.clause, 1⟩ * L := by
  have place : (⟨keyword.clause, L⟩ : Place) = Place.followedBy ⟨keyword.clause, 1⟩ L := by
    rw [Place.followedBy, one_mul]
  have textsOn {place : Place} (unfinished : place.phase ≠ .done) :
      query.textsOn (place.followedBy L) = query.textsOn place * L := by
    simp only [textsOn, fieldsBefore, Place.lead_followedBy unfinished, mul_assoc]
  have before {place : Place} (unfinished : place.phase ≠ .done) :
      query.textsOn (query.conditionsBefore (place.followedBy L)) =
        query.textsOn (query.conditionsBefore place) * L := by
    have conditions := Place.ofConditions_unfinished unfinished query.conditions
    have join := Place.ofJoin_unfinished conditions query.join
    rw [conditionsBefore, Place.ofConditions_followedBy unfinished,
      Place.ofJoin_followedBy conditions, Place.ofTable_followedBy join]
    exact textsOn Phase.noConfusion
  have unfinished : (⟨keyword.clause, 1⟩ : Place).phase ≠ .done := keyword.clause_ne_done
  rw [place]
  cases keyword with
  | join =>
    rw [textsTo, Place.ofTable_followedBy unfinished]
    exact textsOn Phase.noConfusion
  | groupBy => exact before unfinished
  | orderBy =>
    rw [textsTo, Place.ofGrouping_followedBy unfinished]
    exact before (Place.ofGrouping_unfinished unfinished query.groupBy)

def words (query : Query) : PairedKeyword → Language Char
  | .join => query.join.elim 0 (joinTexts ·.kind)
  | .groupBy => Keyword.groupBy.spellings
  | .orderBy => Keyword.orderBy.spellings

theorem texts_eq_textsTo (has : query.has keyword) :
    query.texts =
      query.textsTo keyword ⟨keyword.clause, 1⟩ *
        (query.words keyword * query.textsAfter keyword) := by
  rw [← textsTo_eq]
  cases keyword with
  | join =>
    obtain ⟨join, given⟩ := Option.isSome_iff_exists.mp has
    rw [texts_eq, tablePlace, joinPlace, words, textsAfter, given]
    rfl
  | groupBy =>
    obtain ⟨fields, given⟩ := Option.isSome_iff_exists.mp has
    rw [texts_eq, tablePlace, joinPlace, conditionsPlace, groupingPlace, words, textsAfter, given]
    rfl
  | orderBy =>
    obtain ⟨keys, given⟩ := Option.isSome_iff_exists.mp has
    rw [texts_eq, tablePlace, joinPlace, conditionsPlace, groupingPlace, orderingPlace, words,
      textsAfter, given]
    rfl

theorem has_of_mem_textsAfter {t : List Char} (mem : t ∈ query.textsAfter keyword) :
    query.has keyword := by
  have given {α : Type} {clause : Option α} {texts : α → Language Char}
      (mem : t ∈ clause.elim 0 texts) : clause.isSome := by
    cases clause with
    | none => exact absurd mem (Language.notMem_zero t)
    | some clause => rfl
  cases keyword with
  | join => exact given mem
  | groupBy => exact given mem
  | orderBy => exact given mem

/-- A keyword of two words with one space between them. -/
theorem mem_spellings_pair {whole first second : Keyword}
    (shape : whole.word = first.word ++ ' ' :: second.word) {w : List Char} :
    w ∈ whole.spellings ↔ ∃ v ∈ first.spellings, ∃ g ∈ verbatim " ", ∃ u ∈ second.spellings,
      w = v ++ (g ++ u) := by
  change w.map Char.toUpper = whole.word ↔ _
  rw [shape]
  constructor
  · intro spelled
    obtain ⟨v, _, rfl, upperV, upper⟩ := List.map_eq_append_iff.mp spelled
    obtain ⟨s, u, rfl, upperS, upperU⟩ := List.map_eq_cons_iff.mp upper
    obtain rfl : s = ' ' := eq_of_toUpper_eq upperS rfl
    exact ⟨v, upperV, [' '], rfl, u, upperU, rfl⟩
  · rintro ⟨v, upperV, _, rfl, u, upperU, rfl⟩
    change v.map Char.toUpper = first.word at upperV
    change u.map Char.toUpper = second.word at upperU
    rw [List.map_append, List.map_append, upperV, upperU]
    rfl

/-- The words of a keyword are two with the right blanks between them, or the bare `JOIN` of an
inner join. -/
theorem mem_words {w : List Char} :
    w ∈ query.words keyword ↔
      (keyword = .join ∧ (∃ join ∈ query.join, join.kind = "INNER") ∧ w ∈ Keyword.join.spellings) ∨
        ∃ v ∈ query.firstWord keyword, ∃ g ∈ keyword.partings, ∃ u ∈ keyword.second.spellings,
          w = v ++ (g ++ u) := by
  cases keyword with
  | join =>
    simp only [words, firstWord, true_and]
    cases query.join with
    | none => simp [Language.notMem_zero]
    | some join =>
      simp only [Option.elim_some, Option.mem_some_iff, exists_eq_left']
      refine or_congr Iff.rfl ⟨?_, ?_⟩
      · rintro ⟨v, memV, _, ⟨g, memG, u, memU, rfl⟩, rfl⟩
        exact ⟨v, memV, g, memG, u, memU, rfl⟩
      · rintro ⟨v, memV, g, memG, u, memU, rfl⟩
        exact ⟨v, memV, _, ⟨g, memG, u, memU, rfl⟩, rfl⟩
  | groupBy =>
    simp only [reduceCtorEq, false_and, false_or]
    exact mem_spellings_pair rfl
  | orderBy =>
    simp only [reduceCtorEq, false_and, false_or]
    exact mem_spellings_pair rfl

theorem IsCut.mem_texts (isCut : query.IsCut keyword cut) (fits : parting ∈ keyword.partings) :
    (cut.text parting).toList ∈ query.texts := by
  have words : cut.first ++ (parting ++ cut.second) ∈ query.words keyword :=
    mem_words.mpr (.inr ⟨_, isCut.first, _, fits, _, isCut.second, rfl⟩)
  rw [texts_eq_textsTo (has_of_mem_textsAfter isCut.after), Cut.text, String.toList_ofList]
  have whole := Language.append_mem_mul isCut.before (Language.append_mem_mul words isCut.after)
  simpa only [List.append_assoc] using whole

theorem exists_isCut {text : String} (mem : text.toList ∈ query.texts)
    (has : query.has keyword) :
    (keyword = .join ∧ query.HasBareJoin text) ∨
      ∃ cut, query.IsCut keyword cut ∧ ∃ parting ∈ keyword.partings, text = cut.text parting := by
  rw [texts_eq_textsTo has] at mem
  obtain ⟨before, memB, _, ⟨w, memW, after, memA, rfl⟩, split⟩ := mem
  rcases mem_words.mp memW with ⟨rfl, inner, bare⟩ | ⟨v, memV, g, memG, u, memU, rfl⟩
  · exact .inl ⟨rfl, inner, before, memB, _, ⟨w, bare, after, memA, rfl⟩, split⟩
  · refine .inr ⟨⟨before, v, u, after⟩, ⟨memB, memV, memU, memA⟩, g, memG, ?_⟩
    rw [← String.toList_inj, Cut.text, String.toList_ofList, ← split]
    simp only [List.append_assoc]

end Query

section Refusal

open Keyword

variable {M : Language Char}

/-- Blanks other than one space. -/
def wideGap : Language Char := {text | text ∈ gap ∧ text ≠ [' ']}

theorem not_isFront_of_wide {keyword first : Keyword}
    (shape : keyword.word = first.word ++ " BY".toList) (letters : first.word.all Char.isUpper)
    {t : List Char} (mem : t ∈ first.spellings * (wideGap * (byWord.spellings * M))) :
    keyword.isFront t = false := by
  obtain ⟨w, spelled, _, ⟨g, wide, u, memU, rfl⟩, rfl⟩ := mem
  cases front : keyword.isFront (w ++ (g ++ u)) with
  | false => rfl
  | true =>
    have single := gap_of_isFront first.word shape letters (run_of_upper spelled letters) wide.1
      (unblank_of_mem rfl rfl u memU) front
    exact absurd single.1 wide.2

theorem joinKeyword?_of_wide {first : Keyword} (letters : first.word.all Char.isUpper)
    {t : List Char} (bare : join.isFront t = false)
    (mem : t ∈ first.spellings * (wideGap * (byWord.spellings * M))) : joinKeyword? t = none := by
  obtain ⟨w, spelled, _, ⟨g, wide, u, memU, rfl⟩, rfl⟩ := mem
  have memG : g ++ u ∈ gap * (byWord.spellings * M) := ⟨g, wide.1, u, memU, rfl⟩
  have second := not_isFront_of_spelled join memU (by decide) (by decide)
  have takeWord := takeWhile_append_of_stop (run_of_upper spelled letters) (head_of_gap memG)
  have takeGap := takeWhile_append_of_stop wide.1.2 (unblank_of_mem rfl rfl u memU)
  change joinKeyword? (w ++ (g ++ u)) = none
  change Keyword.join.isFront (w ++ (g ++ u)) = false at bare
  simp only [joinKeyword?, bare, takeWord, List.drop_left, takeGap, ← List.drop_drop, second,
    Bool.and_false, Bool.false_eq_true, if_false]

/-- `GROUP` or `ORDER` before `BY`, parted by other blanks than one space, leads to no clause. -/
theorem blocked_of_wide {clause phase : Phase} {first : Keyword}
    (pair : clause = .grouping ∧ first = groupWord ∨ clause = .ordering ∧ first = orderWord)
    (later : phase < clause) :
    Place.Blocked ⟨clause, first.spellings * (wideGap * (byWord.spellings * M))⟩ phase := by
  have letters : first.word.all Char.isUpper := by
    rcases pair with ⟨-, rfl⟩ | ⟨-, rfl⟩ <;> decide
  have others : ∀ other ∈ [limit, whereRows, join, fromTable, Keyword.and],
      (first.word ≠ [] ∧ other.word ≠ []) ∧ first.word.head? ≠ other.word.head? := by
    rcases pair with ⟨-, rfl⟩ | ⟨-, rfl⟩ <;> decide
  refine ⟨?_, later, fun t mem => ?_, fun t mem => ?_, fun t mem => ?_⟩
  · rcases pair with ⟨rfl, -⟩ | ⟨rfl, -⟩ <;> nofun
  · rcases pair with ⟨-, rfl⟩ | ⟨-, rfl⟩ <;> exact letter_of_mem mem rfl rfl
  · have apart (other : Keyword) (mem' : other ∈ [limit, whereRows, join, fromTable, Keyword.and]) :
        other.isFront t = false :=
      not_isFront_of_spelled other mem (others other mem').1 (others other mem').2
    have pairs : orderBy.isFront t = false ∧ groupBy.isFront t = false := by
      rcases pair with ⟨-, rfl⟩ | ⟨-, rfl⟩
      · exact ⟨not_isFront_of_spelled _ mem (by decide) (by decide),
          not_isFront_of_wide rfl rfl mem⟩
      · exact ⟨not_isFront_of_wide rfl rfl mem,
          not_isFront_of_spelled _ mem (by decide) (by decide)⟩
    have limits := apart limit (by simp)
    have filters := apart whereRows (by simp)
    have joins := joinKeyword?_of_wide letters (apart join (by simp)) mem
    have tables := apart fromTable (by simp)
    simp [Phase.following?, limits, pairs, filters, joins, tables]
  · have apart := others Keyword.and (by simp)
    exact not_isFront_of_spelled _ mem apart.1 apart.2

end Refusal

namespace Query

variable {query : Query}

theorem refuses_wide_groupBy (wf : query.WellFormed) (M : Language Char) :
    Reader.readQuery.Refuses ⟨.fields, query.textsTo .groupBy
      ⟨.grouping, Keyword.groupWord.spellings * (wideGap * (Keyword.byWord.spellings * M))⟩⟩ := by
  refine Reader.refuses_query wf (fun phase later => .inr ?_) fun known => ?_
  · exact blocked_of_wide (.inl ⟨rfl, rfl⟩) later
  · refine Reader.refuses_now (Reader.Refuses.bind (Reader.Refuses.bind ?_ _) _) _
    exact Reader.refuses_expect _ fun t mem => not_isFront_of_wide rfl rfl mem

theorem refuses_wide_orderBy (wf : query.WellFormed) (M : Language Char) :
    Reader.readQuery.Refuses ⟨.fields, query.textsTo .orderBy
      ⟨.ordering, Keyword.orderWord.spellings * (wideGap * (Keyword.byWord.spellings * M))⟩⟩ := by
  have blocked {phase : Phase} (later : phase < .ordering) := blocked_of_wide (M := M)
    (.inr ⟨rfl, rfl⟩) later
  refine Reader.refuses_query wf (fun phase later => ?_) ?_
  · exact Place.Next.ofGrouping (.inr (blocked (Nat.lt_trans later (by decide)))) later _
  · refine Reader.refuses_groupingClause wf.someGrouping wf.grouping (.inr (blocked (by decide)))
      fun known => ?_
    refine Reader.refuses_now (Reader.Refuses.bind (Reader.Refuses.bind ?_ _) _) _
    exact Reader.refuses_expect _ fun t mem => not_isFront_of_wide rfl rfl mem

theorem exists_error_of_refuses {L : Language Char}
    (refuses : Reader.readQuery.Refuses ⟨.fields, L⟩) {text : String} (mem : text.toList ∈ L) :
    ∃ error, Query.parse text = .error error := by
  obtain ⟨error, d, ran⟩ := refuses (Cursor.ofString text) ⟨rfl, mem⟩
  exact ⟨error, by rw [Query.parse, Reader.read, ran]⟩

theorem IsCut.exists_error {keyword : PairedKeyword} {cut : Cut} {parting : List Char}
    (wf : query.WellFormed) (isCut : query.IsCut keyword cut) (blank : parting ∈ gap)
    (unfit : parting ∉ keyword.partings) :
    ∃ error, Query.parse (cut.text parting) = .error error := by
  have mem {first : Keyword} (spelled : cut.first ∈ first.spellings) (wide : parting ∈ wideGap) :
      (cut.text parting).toList ∈ query.textsTo keyword ⟨keyword.clause,
        first.spellings * (wideGap * (keyword.second.spellings * query.textsAfter keyword))⟩ := by
    rw [textsTo_eq, Cut.text, String.toList_ofList]
    exact ⟨_, isCut.before, _, ⟨_, spelled, _, ⟨_, wide, _, ⟨_, isCut.second, _, isCut.after, rfl⟩,
      rfl⟩, rfl⟩, rfl⟩
  cases keyword with
  | join => exact absurd blank unfit
  | groupBy =>
    exact exists_error_of_refuses (refuses_wide_groupBy wf _) (mem isCut.first ⟨blank, unfit⟩)
  | orderBy =>
    exact exists_error_of_refuses (refuses_wide_orderBy wf _) (mem isCut.first ⟨blank, unfit⟩)

end Query

namespace Sample

def grouped : Query := {
  fields := ["a"]
  table := "t"
  join := some ⟨"LEFT", "u", "x", "y"⟩
  groupBy := some ["a"] }

def joinCut : Cut :=
  ⟨"SELECT a FROM t ".toList, "LEFT".toList, "JOIN".toList,
    " u ON x = y".toList ++ " GROUP BY a".toList⟩

def groupByCut : Cut :=
  ⟨"SELECT a FROM t LEFT \n JOIN u ON x = y ".toList, "GROUP".toList, "BY".toList, " a".toList⟩

theorem table_mem {place : Place} {t : List Char} (mem : t ∈ place.lead false) :
    "SELECT a FROM t".toList ++ t ∈ grouped.textsOn (.ofTable place "t") := by
  have table : Keyword.fromTable.word ++ ' ' :: ("t".toList ++ t) ∈ _ :=
    keyword_mem (by decide) (append_mem_verbatim "t" mem)
  have item : IsItem "a" := by decide
  have fields : Keyword.select.word ++ ' ' :: ("a".toList ++ ' ' :: _) ∈ _ :=
    keyword_mem (by decide) (Language.append_mem_mul item.mem_itemTexts (cons_mem_gap table))
  exact ⟨[], nil_mem_blanks, _, fields, rfl⟩

theorem condition_mem {L : Language Char} {t : List Char} (mem : t ∈ L) :
    " u ON x = y".toList ++ t ∈ gap * (verbatim "u" * (gap * (Keyword.on.spellings *
      (gap * (verbatim "x" * (blanks * (mark '=' * (blanks * (verbatim "y" * L))))))))) := by
  have sign : ['='] ∈ mark '=' := rfl
  have equality := Language.append_mem_mul sign (cons_mem_blanks (append_mem_verbatim "y" mem))
  have sides := append_mem_verbatim "x" (cons_mem_blanks equality)
  have condition : Keyword.on.word ++ ' ' :: _ ∈ _ := keyword_mem (by decide) sides
  exact cons_mem_gap (append_mem_verbatim "u" (cons_mem_gap condition))

theorem isCut_joinCut : grouped.IsCut .join joinCut where
  before := table_mem (cons_mem_gap rfl : [' '] ∈ gap * 1)
  first := rfl
  second := rfl
  after := by
    have fields : "a".toList ∈ commaList [verbatim "a"] * Place.finish.lead false :=
      ⟨"a".toList, rfl, [], Query.nil_mem_lead_finish, rfl⟩
    have grouping : Keyword.groupBy.word ++ ' ' :: "a".toList ∈ _ := keyword_mem (by decide) fields
    exact condition_mem (cons_mem_gap grouping)

theorem break_mem_gap : " \n ".toList ∈ gap :=
  ⟨by decide +kernel, List.all_eq_true.mp (by decide)⟩

theorem isCut_groupByCut : grouped.IsCut .groupBy groupByCut where
  before := by
    have words : "LEFT \n JOIN".toList ∈ joinTexts "LEFT" :=
      .inr ⟨_, rfl, _, ⟨" \n ".toList, break_mem_gap, "JOIN".toList, rfl, rfl⟩, rfl⟩
    have join := Language.append_mem_mul words (condition_mem (cons_mem_gap rfl : [' '] ∈ gap * 1))
    exact table_mem (cons_mem_gap join)
  first := rfl
  second := rfl
  after := cons_mem_gap ⟨"a".toList, rfl, [], Query.nil_mem_lead_finish, rfl⟩

end Sample

namespace Query

/-- Where a text that is read has a clause keyword of two words, other blanks between the two are
read as the same query if they may part the keyword, and refused if not. Only an inner join may do
without the first word. -/
theorem parse_parted {text : String} {query : Query} (parsed : Query.parse text = .ok query) :
    (∀ keyword, query.has keyword →
      (keyword = .join ∧ query.HasBareJoin text) ∨
        ∃ cut, query.IsCut keyword cut ∧ ∃ parting ∈ keyword.partings, text = cut.text parting) ∧
    ∀ keyword cut parting, query.IsCut keyword cut → parting ∈ gap → text = cut.text parting →
      parting ∈ keyword.partings ∧
        ∀ other ∈ gap,
          (other ∈ keyword.partings → Query.parse (cut.text other) = .ok query) ∧
          (other ∉ keyword.partings → ∃ error, Query.parse (cut.text other) = .error error) := by
  obtain ⟨wf, mem⟩ := parse_eq_ok_iff.mp parsed
  constructor
  · exact fun keyword has => exists_isCut mem has
  · rintro keyword cut parting isCut blank rfl
    refine ⟨?_, fun other blank => ⟨fun fits => ?_, isCut.exists_error wf blank⟩⟩
    · by_contra unfit
      obtain ⟨error, refused⟩ := isCut.exists_error wf blank unfit
      rw [refused] at parsed
      cases parsed
    · exact parse_eq_ok_iff.mpr ⟨wf, isCut.mem_texts fits⟩

/-- A join is read with any blanks between its words, a grouping only with one space. -/
theorem parse_parted_left :
    Query.parse "SELECT a FROM t LEFT \n JOIN u ON x = y GROUP BY a" = .ok Sample.grouped ∧
    (∀ other ∈ gap, Query.parse (Sample.joinCut.text other) = .ok Sample.grouped) ∧
    ∀ other ∈ gap, other ≠ [' '] →
      ∃ error, Query.parse (Sample.groupByCut.text other) = .error error := by
  have parsed : Query.parse "SELECT a FROM t LEFT \n JOIN u ON x = y GROUP BY a" =
      .ok Sample.grouped := by decide +kernel
  have parted := (Query.parse_parted parsed).2
  have join := parted .join Sample.joinCut " \n ".toList Sample.isCut_joinCut Sample.break_mem_gap
    (by decide +kernel)
  have grouping := parted .groupBy Sample.groupByCut [' '] Sample.isCut_groupByCut blank_mem_gap
    (by decide +kernel)
  refine ⟨parsed, ?_, ?_⟩
  · exact fun other blank => (join.2 other blank).1 blank
  · exact fun other blank wide => (grouping.2 other blank).2 wide

/-- A second space between `GROUP` and `BY` makes a statement that is read one that is refused. -/
theorem parse_two_spaces :
    Query.parse "SELECT a FROM t GROUP BY a" =
        .ok { fields := ["a"], table := "t", groupBy := some ["a"] } ∧
      Query.parse "SELECT a FROM t GROUP  BY a" = .error ⟨.tokenAfterTable, "G", 16, 16⟩ := by
  decide +kernel

end Query
end TableQuery
