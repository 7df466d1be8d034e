import TableQuery.Proofs.Outcome
import TableQuery.Proofs.Trichotomy

/-! The least and the greatest of the amounts of a field. A tally keeps one of two numbers at a time
and never lets go of NaN. What it ends with is ahead of every amount and equal to one, in whatever
order the rows come. -/
namespace TableQuery

namespace Number

variable {x y z : Number}

/-- Equal numbers, or NaN twice. -/
def Matches (x y : Number) : Prop := x = .nan ∧ y = .nan ∨ x.equals y

theorem isNaN_iff : x.isNaN ↔ x = .nan := by cases x <;> simp [isNaN]

section Order

theorem point?_of_ne_nan (proper : x ≠ .nan) : x.point? = some x.rank :=
  point?_eq_rank (Bool.eq_false_iff.mpr fun none => proper (isNaN_iff.mp none))

theorem atMost_iff : x.atMost y ↔ ∃ a b, x.point? = some a ∧ y.point? = some b ∧ a ≤ b := by
  unfold atMost
  cases x.point? with
  | none => simp
  | some a =>
    cases y.point? with
    | none => simp
    | some b => simp

theorem atMost_iff_rank (properX : x ≠ .nan) (properY : y ≠ .nan) :
    x.atMost y ↔ x.rank ≤ y.rank := by
  simp [atMost, point?_of_ne_nan properX, point?_of_ne_nan properY]

/-- Of two numbers the first is below the second, or the second is at most the first. -/
theorem below_cases (properX : x ≠ .nan) (properY : y ≠ .nan) :
    x.below y = true ∧ x.atMost y ∨ x.below y = false ∧ y.atMost x := by
  rw [atMost_iff_rank properX properY, atMost_iff_rank properY properX, below,
    point?_of_ne_nan properX, point?_of_ne_nan properY, decide_eq_true_iff, decide_eq_false_iff_not]
  omega

theorem atMost_trans (first : x.atMost y) (second : y.atMost z) : x.atMost z := by
  obtain ⟨a, b, placeX, placeY, le⟩ := atMost_iff.mp first
  obtain ⟨b', c, placeY', placeZ, le'⟩ := atMost_iff.mp second
  obtain rfl : b = b' := Option.some.inj (placeY.symm.trans placeY')
  exact atMost_iff.mpr ⟨a, c, placeX, placeZ, le.trans le'⟩

theorem equals_iff_atMost : x.equals y ↔ x.atMost y ∧ y.atMost x := by
  rw [equals_iff, atMost_iff, atMost_iff]
  constructor
  · rintro ⟨p, placeX, placeY⟩
    exact ⟨⟨p, p, placeX, placeY, le_rfl⟩, ⟨p, p, placeY, placeX, le_rfl⟩⟩
  · rintro ⟨⟨a, b, placeX, placeY, le⟩, ⟨b', a', placeY', placeX', le'⟩⟩
    obtain rfl : b = b' := Option.some.inj (placeY.symm.trans placeY')
    obtain rfl : a = a' := Option.some.inj (placeX.symm.trans placeX')
    exact ⟨a, placeX, le_antisymm le le' ▸ placeY⟩

theorem equals_self (proper : x ≠ .nan) : x.equals x :=
  equals_iff.mpr ⟨x.rank, point?_of_ne_nan proper, point?_of_ne_nan proper⟩

theorem rank_bounds (proper : x ≠ .nan) :
    (infinite true).rank ≤ x.rank ∧ x.rank ≤ (infinite false).rank := by
  have signs : (infinite true).rank = -Magnitude.ceiling ∧
      (infinite false).rank = Magnitude.ceiling := ⟨rfl, rfl⟩
  rw [signs.1, signs.2]
  cases x with
  | nan => exact absurd rfl proper
  | infinite negative =>
    cases negative
    · rw [signs.2]
      omega
    · rw [signs.1]
      omega
  | finite negative size =>
    have below := size.representable.1
    change -_ ≤ signed negative size.units ∧ signed negative size.units ≤ _
    rw [signed]
    split <;> omega

end Order

/-- The choices that a tally makes: of two numbers one that is ahead of the other, NaN if either is.
It starts from a number behind all. -/
structure Chooses (ahead : Number → Number → Bool) (start : Number)
    (choose : Number → Number → Number) : Prop where
  trans : ∀ {x y z}, ahead x y → ahead y z → ahead x z
  equals_iff : ∀ {x y}, x.equals y ↔ ahead x y ∧ ahead y x
  proper : start ≠ .nan
  ahead_start : ∀ {x}, x ≠ .nan → ahead x start
  nan : ∀ {x y}, x = .nan ∨ y = .nan → choose x y = .nan
  chosen : ∀ {x y}, x ≠ .nan → y ≠ .nan →
    choose x y = x ∧ ahead x y ∨ choose x y = y ∧ ahead y x

theorem not_isNaN_or (properX : x ≠ .nan) (properY : y ≠ .nan) : ¬ (x.isNaN || y.isNaN) := by
  rw [Bool.or_eq_true, isNaN_iff, isNaN_iff]
  exact not_or.mpr ⟨properX, properY⟩

theorem chooses_least : Chooses atMost (.infinite false) least where
  trans := atMost_trans
  equals_iff := equals_iff_atMost
  proper := Number.noConfusion
  ahead_start proper := (atMost_iff_rank proper Number.noConfusion).mpr (rank_bounds proper).2
  nan none := if_pos (by simpa [isNaN_iff] using none)
  chosen properX properY := by
    rw [least, if_neg (not_isNaN_or properX properY)]
    rcases below_cases properX properY with ⟨less, le⟩ | ⟨notLess, le⟩
    · rw [if_pos less]
      exact .inl ⟨rfl, le⟩
    · rw [notLess]
      exact .inr ⟨rfl, le⟩

theorem chooses_greatest : Chooses (fun x y => y.atMost x) (.infinite true) greatest where
  trans first second := atMost_trans second first
  equals_iff := equals_iff_atMost.trans and_comm
  proper := Number.noConfusion
  ahead_start proper := (atMost_iff_rank Number.noConfusion proper).mpr (rank_bounds proper).1
  nan none := if_pos (by simpa [isNaN_iff] using none)
  chosen properX properY := by
    rw [greatest, if_neg (not_isNaN_or properX properY)]
    rcases below_cases properY properX with ⟨less, le⟩ | ⟨notLess, le⟩
    · rw [if_pos less]
      exact .inl ⟨rfl, le⟩
    · rw [notLess]
      exact .inr ⟨rfl, le⟩

/-- The extreme of some amounts: NaN if one of them is, else equal to one of them and ahead of all.
Without amounts it is the start. -/
structure Extreme (ahead : Number → Number → Bool) (start : Number) (amounts : List Number)
    (x : Number) : Prop where
  nan_iff : x = .nan ↔ .nan ∈ amounts
  ahead : x ≠ .nan → ∀ y ∈ amounts, ahead x y
  attained : x ≠ .nan → amounts ≠ [] → ∃ y ∈ amounts, x.equals y
  empty : amounts = [] → x = start

section Choices

variable {ahead : Number → Number → Bool} {start : Number} {choose : Number → Number → Number}
  {amounts others : List Number}

theorem Chooses.ahead_self (chooses : Chooses ahead start choose) (proper : x ≠ .nan) :
    ahead x x :=
  (chooses.equals_iff.mp (equals_self proper)).1

theorem Chooses.nan_iff (chooses : Chooses ahead start choose) :
    choose x y = .nan ↔ x = .nan ∨ y = .nan := by
  refine ⟨fun same => ?_, chooses.nan⟩
  by_contra proper
  obtain ⟨properX, properY⟩ := not_or.mp proper
  rcases chooses.chosen properX properY with ⟨kept, -⟩ | ⟨taken, -⟩
  · exact properX (kept.symm.trans same)
  · exact properY (taken.symm.trans same)

/-- One more amount. -/
theorem Extreme.step (chooses : Chooses ahead start choose)
    (extreme : Extreme ahead start amounts x) (y : Number) :
    Extreme ahead start (amounts ++ [y]) (choose x y) where
  nan_iff := by
    rw [chooses.nan_iff, extreme.nan_iff, List.mem_append, List.mem_singleton, eq_comm (a := y)]
  ahead proper := by
    obtain ⟨properX, properY⟩ := not_or.mp fun none => proper (chooses.nan none)
    rw [List.forall_mem_append, List.forall_mem_singleton]
    rcases chooses.chosen properX properY with ⟨kept, le⟩ | ⟨taken, le⟩
    · rw [kept]
      exact ⟨extreme.ahead properX, le⟩
    · rw [taken]
      exact ⟨fun z mem => chooses.trans le (extreme.ahead properX z mem),
        chooses.ahead_self properY⟩
  attained proper _ := by
    obtain ⟨properX, properY⟩ := not_or.mp fun none => proper (chooses.nan none)
    have new : y ∈ amounts ++ [y] := List.mem_append_right _ (List.mem_singleton_self y)
    rcases chooses.chosen properX properY with ⟨kept, le⟩ | ⟨taken, -⟩
    · rw [kept]
      by_cases none : amounts = []
      · have atStart := extreme.empty none
        exact ⟨y, new, chooses.equals_iff.mpr ⟨le, atStart ▸ chooses.ahead_start properY⟩⟩
      · obtain ⟨z, mem, same⟩ := extreme.attained properX none
        exact ⟨z, List.mem_append_left _ mem, same⟩
    · rw [taken]
      exact ⟨y, new, equals_self properY⟩
  empty none := absurd none (List.concat_ne_nil y amounts)

/-- What a tally has kept of any amounts is their extreme. -/
theorem Chooses.extreme_foldl (chooses : Chooses ahead start choose) (amounts : List Number) :
    Extreme ahead start amounts (amounts.foldl choose start) := by
  induction amounts using List.reverseRecOn with
  | nil =>
    exact ⟨⟨fun none => absurd none chooses.proper, fun mem => nomatch mem⟩,
      fun _ _ mem => (nomatch mem), fun _ some => absurd rfl some, fun _ => rfl⟩
  | append_singleton amounts y ih =>
    rw [List.foldl_append]
    exact ih.step chooses y

/-- The extreme is one number for all lists of the same amounts, but for the sign of a zero. -/
theorem Extreme.matches (chooses : Chooses ahead start choose)
    (extremeX : Extreme ahead start amounts x) (extremeY : Extreme ahead start others y)
    (same : ∀ z, z ∈ amounts ↔ z ∈ others) : x.Matches y := by
  by_cases none : x = .nan
  · exact .inl ⟨none, extremeY.nan_iff.mpr ((same _).mp (extremeX.nan_iff.mp none))⟩
  · have proper : y ≠ .nan := fun noneY =>
      none (extremeX.nan_iff.mpr ((same _).mpr (extremeY.nan_iff.mp noneY)))
    refine .inr ?_
    rcases amounts with _ | ⟨z, rest⟩
    · have empty : others = [] := List.eq_nil_iff_forall_not_mem.mpr fun z mem =>
        nomatch (same z).mpr mem
      rw [extremeX.empty rfl, extremeY.empty empty]
      exact equals_self chooses.proper
    · have some : others ≠ [] := List.ne_nil_of_mem ((same z).mp List.mem_cons_self)
      obtain ⟨a, memA, sameA⟩ := extremeX.attained none (List.cons_ne_nil _ _)
      obtain ⟨b, memB, sameB⟩ := extremeY.attained proper some
      have forth := extremeX.ahead none b ((same b).mpr memB)
      have back := extremeY.ahead proper a ((same a).mp memA)
      exact chooses.equals_iff.mpr ⟨chooses.trans forth (chooses.equals_iff.mp sameB).2,
        chooses.trans back (chooses.equals_iff.mp sameA).2⟩

end Choices

end Number

namespace Aggregate

open Number

/-- The minimum over some rows is NaN if some amount is, and else the least of the amounts, infinity
for no rows. The maximum is the greatest in the same way, and the order of the rows is nothing to
either. -/
theorem outcome_extreme (field : Option String) (expression : String) (table : Table) :
    Extreme atMost (.infinite false) (table.amounts field)
        (outcome ⟨.minimum, field, expression⟩ table) ∧
      Extreme (fun x y => y.atMost x) (.infinite true) (table.amounts field)
        (outcome ⟨.maximum, field, expression⟩ table) ∧
      ∀ other, table.Perm other →
        (outcome ⟨.minimum, field, expression⟩ table).Matches
            (outcome ⟨.minimum, field, expression⟩ other) ∧
          (outcome ⟨.maximum, field, expression⟩ table).Matches
            (outcome ⟨.maximum, field, expression⟩ other) := by
  have least (rows : Table) : Extreme atMost (.infinite false) (rows.amounts field)
      (outcome ⟨.minimum, field, expression⟩ rows) := by
    rw [outcome_eq]
    exact chooses_least.extreme_foldl _
  have greatest (rows : Table) : Extreme (fun x y => y.atMost x) (.infinite true)
      (rows.amounts field) (outcome ⟨.maximum, field, expression⟩ rows) := by
    rw [outcome_eq]
    exact chooses_greatest.extreme_foldl _
  refine ⟨least table, greatest table, fun other perm => ?_⟩
  have same (x : Number) : x ∈ table.amounts field ↔ x ∈ Table.amounts field other :=
    (perm.map (·.amount field)).mem_iff
  exact ⟨(least table).matches chooses_least (least other) same,
    (greatest table).matches chooses_greatest (greatest other) same⟩

/-- The two zeros, either first. -/
theorem outcome_of_zeros :
    let zeros : Table := [Row.ofCells [("n", .text "0")], Row.ofCells [("n", .text "-0")]]
    zeros.Perm zeros.reverse ∧
      (outcome ⟨.minimum, some "n", "min(n)"⟩ zeros).Matches
        (outcome ⟨.minimum, some "n", "min(n)"⟩ zeros.reverse) := by
  intro zeros
  have perm : zeros.Perm zeros.reverse := (List.reverse_perm zeros).symm
  exact ⟨perm, ((outcome_extreme (some "n") "min(n)" zeros).2.2 _ perm).1⟩

end Aggregate

end TableQuery
