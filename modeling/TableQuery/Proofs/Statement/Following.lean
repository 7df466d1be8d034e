import TableQuery.Proofs.Statement.Keyword

/-! Which clause a text begins with. -/
namespace TableQuery
namespace Keyword

/-- Keywords that a blank must follow. -/
structure Plain (keyword : Keyword) : Prop where
  blankAfter : keyword.blankAfter = true
  endAfter : keyword.endAfter = false
  marksAfter : keyword.marksAfter = []

theorem Plain.mayPrecede_iff {keyword : Keyword} (plain : keyword.Plain) {rest : List Char} :
    keyword.mayPrecede rest ↔ ∃ b more, rest = b :: more ∧ isBlank b := by
  cases rest with
  | nil => simp [mayPrecede, plain.endAfter]
  | cons b more => simp [mayPrecede, plain.blankAfter, plain.marksAfter]

theorem Plain.isFront {keyword : Keyword} (plain : keyword.Plain) {M : Language Char} {t : List Char}
    (mem : t ∈ keyword.spellings * (gap * M)) : keyword.isFront t := by
  obtain ⟨w, spelled, _, ⟨g, memG, m, -, rfl⟩, rfl⟩ := mem
  refine isFront_iff.mpr ⟨w, spelled, g ++ m, rfl, plain.mayPrecede_iff.mpr ?_⟩
  cases g with
  | nil => exact absurd rfl memG.1
  | cons b g => exact ⟨b, g ++ m, rfl, memG.2 b List.mem_cons_self⟩

theorem exists_cons_of_spelled {keyword : Keyword} {first : Char} {word w : List Char}
    (spelled : w ∈ keyword.spellings) (shape : keyword.word = first :: word) :
    ∃ c v, w = c :: v ∧ c.toUpper = first := by
  change w.map Char.toUpper = keyword.word at spelled
  rw [shape] at spelled
  obtain ⟨c, v, rfl, upper, -⟩ := List.map_eq_cons_iff.mp spelled
  exact ⟨c, v, rfl, upper⟩

theorem letter_of_spelled {keyword : Keyword} {first : Char} {word w : List Char}
    (spelled : w ∈ keyword.spellings) (shape : keyword.word = first :: word)
    (upper : first.isUpper) : ∃ c v, w = c :: v ∧ isWordChar c := by
  obtain ⟨c, v, rfl, same⟩ := exists_cons_of_spelled spelled shape
  exact ⟨c, v, rfl, isWordChar_of_isUpper_toUpper (by rw [same]; exact upper)⟩

theorem letter_of_mem {keyword : Keyword} {first : Char} {word t : List Char} {M : Language Char}
    (mem : t ∈ keyword.spellings * M) (shape : keyword.word = first :: word)
    (upper : first.isUpper) : ∃ c u, t = c :: u ∧ isWordChar c := by
  obtain ⟨w, spelled, m, -, rfl⟩ := mem
  obtain ⟨c, v, rfl, letter⟩ := letter_of_spelled spelled shape upper
  exact ⟨c, v ++ m, rfl, letter⟩

/-- No blank stands where a keyword does. -/
theorem unblank_of_mem {keyword : Keyword} {first : Char} {word : List Char} {M : Language Char}
    (shape : keyword.word = first :: word) (upper : first.isUpper) :
    ∀ t ∈ keyword.spellings * M, ∀ c ∈ t.head?, isBlank c = false := by
  intro t mem c head
  obtain ⟨d, u, rfl, letter⟩ := letter_of_mem mem shape upper
  obtain rfl : d = c := by simpa using head
  exact not_isBlank_of_isWordChar letter

theorem head_of_isFront {keyword : Keyword} {first : Char} {word t : List Char}
    (front : keyword.isFront t) (shape : keyword.word = first :: word) :
    ∃ c rest, t = c :: rest ∧ c.toUpper = first := by
  obtain ⟨w, spelled, rest, rfl, -⟩ := isFront_iff.mp front
  obtain ⟨c, v, rfl, upper⟩ := exists_cons_of_spelled spelled shape
  exact ⟨c, v ++ rest, rfl, upper⟩

/-- A keyword is not in front where a keyword with another first letter stands. -/
theorem not_isFront_of_spelled {keyword : Keyword} {M : Language Char} {t : List Char}
    (other : Keyword) (mem : t ∈ keyword.spellings * M)
    (some : keyword.word ≠ [] ∧ other.word ≠ []) (heads : keyword.word.head? ≠ other.word.head?) :
    other.isFront t = false := by
  obtain ⟨first, word, shape⟩ := List.exists_cons_of_ne_nil some.1
  obtain ⟨letter, rest, otherShape⟩ := List.exists_cons_of_ne_nil some.2
  obtain ⟨w, spelled, m, -, rfl⟩ := mem
  obtain ⟨c, v, rfl, upper⟩ := exists_cons_of_spelled spelled shape
  cases front : other.isFront ((c :: v) ++ m) with
  | false => rfl
  | true =>
    obtain ⟨d, more, same, upper'⟩ := head_of_isFront front otherShape
    simp only [List.cons_append, List.cons.injEq] at same
    simp [shape, otherShape, ← upper, ← upper', same.1] at heads

theorem plain_select : select.Plain := ⟨rfl, rfl, rfl⟩
theorem plain_from : fromTable.Plain := ⟨rfl, rfl, rfl⟩
theorem plain_join : join.Plain := ⟨rfl, rfl, rfl⟩
theorem plain_on : on.Plain := ⟨rfl, rfl, rfl⟩
theorem plain_where : whereRows.Plain := ⟨rfl, rfl, rfl⟩
theorem plain_and : and.Plain := ⟨rfl, rfl, rfl⟩
theorem plain_groupBy : groupBy.Plain := ⟨rfl, rfl, rfl⟩
theorem plain_orderBy : orderBy.Plain := ⟨rfl, rfl, rfl⟩
theorem plain_limit : limit.Plain := ⟨rfl, rfl, rfl⟩

end Keyword

section Following

open Keyword

variable {phase next : Phase} {t : List Char}

theorem isWordChar_head_of_joinKeyword? {found : String × Nat} (h : joinKeyword? t = some found) :
    ∃ c rest, t = c :: rest ∧ isWordChar c := by
  unfold joinKeyword? at h
  split at h
  · rename_i front
    obtain ⟨c, rest, rfl, upper⟩ := head_of_isFront front (by rfl)
    exact ⟨c, rest, rfl, isWordChar_of_isUpper_toUpper (by rw [upper]; rfl)⟩
  · simp only [Option.ite_none_right_eq_some, Bool.and_eq_true, Bool.not_eq_true'] at h
    cases t with
    | nil => simp at h
    | cons c rest =>
      refine ⟨c, rest, rfl, ?_⟩
      have kind := h.1.1
      rw [List.takeWhile_cons] at kind
      split at kind
      · assumption
      · simp at kind

/-- A clause that follows comes later, begins with a letter of a word and, when it is a join, with
no keyword of a later clause. -/
structure Follows (phase : Phase) (t : List Char) (next : Phase) : Prop where
  later : phase < next
  unfinished : next ≠ .done
  letter : ∃ c rest, t = c :: rest ∧ isWordChar c
  unreserved : next = .join → limit.isFront t = false ∧ whereRows.isFront t = false

theorem follows_of_following? (h : phase.following? t = some next) : Follows phase t next := by
  have letter {keyword : Keyword} {first : Char} {word : List Char} (front : keyword.isFront t)
      (shape : keyword.word = first :: word) (upper : first.isUpper) :
      ∃ c rest, t = c :: rest ∧ isWordChar c := by
    obtain ⟨c, rest, rfl, same⟩ := head_of_isFront front shape
    exact ⟨c, rest, rfl, isWordChar_of_isUpper_toUpper (by rw [same]; exact upper)⟩
  unfold Phase.following? at h
  split at h
  · rename_i front
    cases h
    exact ⟨front.1, nofun, letter front.2 rfl rfl, nofun⟩
  · rename_i noLimit
    split at h
    · rename_i front
      cases h
      exact ⟨front.1, nofun, letter front.2 rfl rfl, nofun⟩
    · split at h
      · rename_i front
        cases h
        exact ⟨front.1, nofun, letter front.2 rfl rfl, nofun⟩
      · split at h
        · rename_i front
          cases h
          exact ⟨front.1, nofun, letter front.2 rfl rfl, nofun⟩
        · rename_i noWhere
          split at h
          · rename_i front
            cases h
            obtain ⟨rfl, found⟩ := front
            obtain ⟨found, eq⟩ := Option.isSome_iff_exists.mp found
            refine ⟨by decide, nofun, isWordChar_head_of_joinKeyword? eq, fun _ => ?_⟩
            have low : Phase.table < .limit ∧ Phase.table < .conditions := by decide
            simp only [low.1, low.2, true_and, Bool.not_eq_true] at noLimit noWhere
            exact ⟨noLimit, noWhere⟩
          · simp only [Option.ite_none_right_eq_some] at h
            cases h.2
            exact ⟨h.1.1, nofun, letter h.1.2 rfl rfl, nofun⟩

theorem following?_limit {M : Language Char} (later : phase < .limit)
    (mem : t ∈ limit.spellings * (gap * M)) : phase.following? t = some .limit := by
  have front := plain_limit.isFront mem
  simp [Phase.following?, later, front]

theorem following?_ordering {M : Language Char} (later : phase < .ordering)
    (mem : t ∈ orderBy.spellings * (gap * M)) : phase.following? t = some .ordering := by
  have front := plain_orderBy.isFront mem
  have limits := not_isFront_of_spelled limit mem (by decide) (by decide)
  simp [Phase.following?, later, front, limits]

theorem following?_grouping {M : Language Char} (later : phase < .grouping)
    (mem : t ∈ groupBy.spellings * (gap * M)) : phase.following? t = some .grouping := by
  have front := plain_groupBy.isFront mem
  have limits := not_isFront_of_spelled limit mem (by decide) (by decide)
  have orders := not_isFront_of_spelled orderBy mem (by decide) (by decide)
  simp [Phase.following?, later, front, limits, orders]

theorem following?_conditions {M : Language Char} (later : phase < .conditions)
    (mem : t ∈ whereRows.spellings * (gap * M)) : phase.following? t = some .conditions := by
  have front := plain_where.isFront mem
  have limits := not_isFront_of_spelled limit mem (by decide) (by decide)
  have orders := not_isFront_of_spelled orderBy mem (by decide) (by decide)
  have groups := not_isFront_of_spelled groupBy mem (by decide) (by decide)
  simp [Phase.following?, later, front, limits, orders, groups]

theorem following?_table {M : Language Char} (mem : t ∈ fromTable.spellings * (gap * M)) :
    Phase.following? .fields t = some .table := by
  have front := plain_from.isFront mem
  have limits := not_isFront_of_spelled limit mem (by decide) (by decide)
  have orders := not_isFront_of_spelled orderBy mem (by decide) (by decide)
  have groups := not_isFront_of_spelled groupBy mem (by decide) (by decide)
  have filters := not_isFront_of_spelled whereRows mem (by decide) (by decide)
  have later : Phase.fields < .table := by decide
  simp [Phase.following?, later, front, limits, orders, groups, filters]

/-- `AND` begins no clause. -/
theorem following?_and {M : Language Char} (mem : t ∈ and.spellings * M) :
    Phase.following? .conditions t = none := by
  have limits := not_isFront_of_spelled limit mem (by decide) (by decide)
  have orders := not_isFront_of_spelled orderBy mem (by decide) (by decide)
  have groups := not_isFront_of_spelled groupBy mem (by decide) (by decide)
  have past : ¬ Phase.conditions < .conditions ∧ ¬ Phase.conditions < .table ∧
    Phase.conditions ≠ .table := by decide
  simp [Phase.following?, limits, orders, groups, past]

section Join

variable {kind : String} {M : Language Char}

theorem head_of_gap (mem : t ∈ gap * M) : ∀ c ∈ t.head?, isWordChar c = false :=
  fun c head => not_isWordChar_of_isBlank (begins_gap.mul nil_notMem_gap t mem c head)

theorem upper_kind {word : String} (h : kind.toList.map Char.toUpper = word.toList) :
    upperAscii kind = word := by
  rw [upperAscii, h, String.ofList_toList]

theorem run_of_upper {w word : List Char} (upper : w.map Char.toUpper = word)
    (letters : word.all Char.isUpper) : ∀ c ∈ w, isWordChar c := by
  intro c memC
  refine isWordChar_of_isUpper_toUpper (List.all_eq_true.mp letters _ ?_)
  rw [← upper]
  exact List.mem_map_of_mem memC

/-- Only a kind that is the keyword itself lets a keyword of one word stand before it. -/
theorem not_isFront_of_kind {keyword : Keyword} (word : String) (plain : keyword.Plain)
    (shape : keyword.word = word.toList) (letters : word.toList.all Char.isUpper)
    (run : IsRun isWordChar kind) (free : upperAscii kind ≠ word)
    (mem : t ∈ verbatim kind * (gap * M)) : keyword.isFront t = false := by
  obtain ⟨_, rfl, u, memU, rfl⟩ := mem
  cases front : keyword.isFront (kind.toList ++ u) with
  | false => rfl
  | true =>
    obtain ⟨w, spelled, rest, split, follows⟩ := isFront_iff.mp front
    change w.map Char.toUpper = keyword.word at spelled
    rw [shape] at spelled
    obtain ⟨b, more, rfl, blank⟩ := plain.mayPrecede_iff.mp follows
    have stop : ∀ c ∈ (b :: more).head?, isWordChar c = false := by
      intro c head
      simp only [List.head?_cons, Option.mem_some_iff] at head
      exact not_isWordChar_of_isBlank (head ▸ blank)
    obtain ⟨same, -⟩ :=
      append_inj_of_stop split run.2 (run_of_upper spelled letters) (head_of_gap memU) stop
    exact absurd (upper_kind (same ▸ spelled)) free

theorem isFront_of_kind {keyword : Keyword} (plain : keyword.Plain)
    (named : keyword.word = (upperAscii kind).toList) (mem : t ∈ verbatim kind * (gap * M)) :
    keyword.isFront t := by
  obtain ⟨_, rfl, u, memU, rfl⟩ := mem
  refine plain.isFront (M := M) ⟨kind.toList, ?_, u, memU, rfl⟩
  rw [upperAscii, String.toList_ofList] at named
  exact named.symm

/-- The words of a keyword of two words are parted by one space. -/
theorem gap_of_isFront {keyword : Keyword} (first : List Char) {second w g u : List Char}
    (shape : keyword.word = first ++ ' ' :: 'B' :: second) (letters : first.all Char.isUpper)
    (run : ∀ c ∈ w, isWordChar c) (memG : g ∈ gap) (stop : ∀ c ∈ u.head?, isBlank c = false)
    (front : keyword.isFront (w ++ (g ++ u))) :
    g = [' '] ∧ ∃ b v, u = b :: v ∧ b.toUpper = 'B' := by
  obtain ⟨w', spelled, rest, split, -⟩ := isFront_iff.mp front
  change w'.map Char.toUpper = keyword.word at spelled
  rw [shape] at spelled
  obtain ⟨w₁, _, rfl, upper₁, upper₂⟩ := List.map_eq_append_iff.mp spelled
  obtain ⟨s, _, rfl, upperS, upper₃⟩ := List.map_eq_cons_iff.mp upper₂
  obtain ⟨b, w₂, rfl, upperB, -⟩ := List.map_eq_cons_iff.mp upper₃
  obtain rfl : s = ' ' := eq_of_toUpper_eq upperS rfl
  have words : w ++ (g ++ u) = w₁ ++ ([' '] ++ (b :: w₂ ++ rest)) := by
    rw [split]
    simp
  have stopS : ∀ d ∈ ([' '] ++ (b :: w₂ ++ rest)).head?, isWordChar d = false := by
    intro d head
    simp only [List.cons_append, List.head?_cons, Option.mem_some_iff] at head
    subst head
    decide
  have stopB : ∀ d ∈ (b :: w₂ ++ rest).head?, isBlank d = false := by
    intro d head
    simp only [List.cons_append, List.head?_cons, Option.mem_some_iff] at head
    exact not_isBlank_of_isWordChar (isWordChar_of_isUpper_toUpper (by rw [← head, upperB]; rfl))
  have stopG : ∀ d ∈ (g ++ u).head?, isWordChar d = false :=
    head_of_gap (M := {u}) ⟨g, memG, u, rfl, rfl⟩
  obtain ⟨-, gaps⟩ := append_inj_of_stop words run (run_of_upper upper₁ letters) stopG stopS
  obtain ⟨same, rfl⟩ := append_inj_of_stop gaps memG.2 blank_mem_gap.2 stop stopB
  exact ⟨same, b, w₂ ++ rest, rfl, upperB⟩

/-- A keyword of two words is no kind with `JOIN` after it. -/
theorem not_isFront_of_pair {keyword : Keyword} (first : List Char) {second : List Char}
    (shape : keyword.word = first ++ ' ' :: 'B' :: second) (letters : first.all Char.isUpper)
    (run : IsRun isWordChar kind)
    (mem : t ∈ verbatim kind * (gap * (Keyword.join.spellings * M))) :
    keyword.isFront t = false := by
  obtain ⟨_, rfl, _, ⟨g, memG, u, memU, rfl⟩, rfl⟩ := mem
  cases front : keyword.isFront (kind.toList ++ (g ++ u)) with
  | false => rfl
  | true =>
    obtain ⟨-, b, v, rfl, upperB⟩ :=
      gap_of_isFront first shape letters run.2 memG (unblank_of_mem rfl rfl _ memU) front
    obtain ⟨j, spelledJ, m, -, same⟩ := memU
    obtain ⟨c, j, rfl, upperC⟩ := exists_cons_of_spelled spelledJ (by rfl)
    simp only [List.cons_append, List.cons.injEq] at same
    rw [same.1, upperB] at upperC
    exact absurd upperC (by decide)

/-- What is read of the words that begin a join, and what is left after them. -/
theorem joinKeyword?_of_mem (run : IsRun isWordChar kind) (free : upperAscii kind ≠ "JOIN")
    (mem : t ∈ joinTexts kind * (gap * M)) :
    ∃ n, joinKeyword? t = some (kind, n) ∧ t.drop n ∈ gap * M := by
  obtain ⟨w, ⟨rfl, spelled⟩ | named, m, memM, rfl⟩ := mem
  · have front : Keyword.join.isFront (w ++ m) := plain_join.isFront ⟨w, spelled, m, memM, rfl⟩
    have length : w.length = Keyword.join.word.length := by
      rw [← spelled, List.length_map]
    refine ⟨Keyword.join.word.length, by simp [joinKeyword?, front], ?_⟩
    rw [← length, List.drop_left]
    exact memM
  · obtain ⟨_, rfl, _, ⟨g, memG, j, spelled, rfl⟩, rfl⟩ := named
    have memJ : j ++ m ∈ Keyword.join.spellings * (gap * M) := ⟨j, spelled, m, memM, rfl⟩
    have memU : g ++ (j ++ m) ∈ gap * (Keyword.join.spellings * (gap * M)) := ⟨g, memG, _, memJ, rfl⟩
    have text : (kind.toList ++ (g ++ j)) ++ m = kind.toList ++ (g ++ (j ++ m)) := by simp
    have unbare := not_isFront_of_kind "JOIN" plain_join rfl (by decide) run free
      (⟨_, rfl, _, memU, rfl⟩ : kind.toList ++ (g ++ (j ++ m)) ∈ verbatim kind * _)
    have front := plain_join.isFront memJ
    have length : j.length = Keyword.join.word.length := by
      rw [← spelled, List.length_map]
    have takeKind := takeWhile_append_of_stop run.2 (head_of_gap memU)
    have takeGap := takeWhile_append_of_stop memG.2 (unblank_of_mem rfl rfl _ memJ)
    have nonempty : kind.toList.isEmpty = false := by simp [run.1]
    refine ⟨kind.toList.length + g.length + Keyword.join.word.length, ?_, ?_⟩
    · change joinKeyword? ((kind.toList ++ (g ++ j)) ++ m) = _
      rw [text]
      simp only [joinKeyword?, unbare, Bool.false_eq_true, if_false, takeKind, List.drop_left,
        takeGap, ← List.drop_drop, front, nonempty, Bool.not_false, Bool.and_self, if_true,
        String.ofList_toList]
    · change List.drop _ ((kind.toList ++ (g ++ j)) ++ m) ∈ gap * M
      rw [text, ← List.drop_drop, ← List.drop_drop, List.drop_left, List.drop_left, ← length,
        List.drop_left]
      exact memM

theorem following?_join (run : IsRun isWordChar kind) (free : upperAscii kind ∉ reservedKinds)
    (mem : t ∈ joinTexts kind * (gap * M)) : Phase.following? .table t = some .join := by
  simp only [reservedKinds, List.mem_cons, List.not_mem_nil, or_false, not_or] at free
  obtain ⟨n, found, -⟩ := joinKeyword?_of_mem run free.1 mem
  have fronts : limit.isFront t = false ∧ orderBy.isFront t = false ∧ groupBy.isFront t = false ∧
      whereRows.isFront t = false := by
    obtain ⟨w, ⟨rfl, spelled⟩ | named, m, memM, rfl⟩ := mem
    · have memAll : w ++ m ∈ Keyword.join.spellings * (gap * M) := ⟨w, spelled, m, memM, rfl⟩
      exact ⟨not_isFront_of_spelled limit memAll (by decide) (by decide),
        not_isFront_of_spelled orderBy memAll (by decide) (by decide),
        not_isFront_of_spelled groupBy memAll (by decide) (by decide),
        not_isFront_of_spelled whereRows memAll (by decide) (by decide)⟩
    · have memAll : w ++ m ∈ verbatim kind * (gap * (Keyword.join.spellings * (gap * M))) := by
        rw [← mul_assoc, ← mul_assoc, mul_assoc (verbatim kind)]
        exact ⟨w, named, m, memM, rfl⟩
      exact ⟨not_isFront_of_kind "LIMIT" plain_limit rfl (by decide) run free.2.1 memAll,
        not_isFront_of_pair "ORDER".toList rfl (by decide) run memAll,
        not_isFront_of_pair "GROUP".toList rfl (by decide) run memAll,
        not_isFront_of_kind "WHERE" plain_where rfl (by decide) run free.2.2 memAll⟩
  simp [Phase.following?, found, fronts]

end Join

end Following
end TableQuery
