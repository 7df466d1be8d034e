import TableQuery.Comparison
import TableQuery.Proofs.Number.PlainText

/-! The six comparisons of what literals stand for. Two such values stand to each other in one way,
and each comparison asks no more than which it is. -/
namespace TableQuery

/-! ### Values of literals -/

namespace Number

variable {x y : Number}

theorem isNaN_ofQuotient (negative : Bool) (num den : Nat) :
    (ofQuotient negative num den).isNaN = false := by
  unfold ofQuotient
  split
  · rfl
  · rfl

/-- A number that is one lies on the line, and its rank is its point there. -/
theorem point?_eq_rank (proper : x.isNaN = false) : x.point? = some x.rank := by
  cases x with
  | nan => cases proper
  | infinite => rfl
  | finite => rfl

theorem order_swap (x y : Number) : x.order y = (y.order x).swap :=
  Std.OrientedOrd.eq_swap (a := x.rank) (b := y.rank)

end Number

namespace Numeral

variable {x : Number}

theorem isNaN_of_value? {numeral : Numeral} (value : numeral.value? = some x) :
    x.isNaN = false := by
  cases numeral with
  | infinity negative =>
    rw [← Option.some.inj value]
    rfl
  | decimal negative whole fraction powerNegative power =>
    by_cases ascii : (whole ++ fraction ++ power).all Char.isDigit
    · simp only [value?, ascii, if_true, Option.some.injEq] at value
      rw [← value]
      exact Number.isNaN_ofQuotient ..
    · simp only [value?, ascii, Bool.false_eq_true, if_false, reduceCtorEq] at value

theorem isNaN_of_based? {text : List Char} (value : based? text = some x) : x.isNaN = false := by
  unfold based? at value
  split at value
  · obtain ⟨base, -, counted⟩ := Option.bind_eq_some_iff.mp value
    split at counted
    · rw [← Option.some.inj counted]
      exact Number.isNaN_ofQuotient ..
    · cases counted
  · cases value

/-- No numeral reads as NaN. -/
theorem isNaN_of_read? {text : List Char} (value : read? text = some x) : x.isNaN = false := by
  unfold read? at value
  split at value
  · exact isNaN_of_value? value
  · exact isNaN_of_based? value

end Numeral

namespace Value

/-- What a literal stands for: a number and never NaN, or text that is no numeral. -/
inductive Literal : Value → Prop where
  | number {x : Number} (proper : x.isNaN = false) : Literal (number x)
  | text {s : String} (wordy : parseNumeric? s = none) : Literal (text s)

theorem literal_ofLiteral (literal : String) : (ofLiteral literal).Literal := by
  unfold ofLiteral
  extract_lets bare
  split
  · rename_i x numeral
    exact .number (Numeral.isNaN_of_read? numeral)
  · rename_i wordy
    exact .text wordy

/-- How two values stand to each other: by number if both are numbers, and else as written. -/
def standing : Value → Value → Ordering
  | number x, number y => x.order y
  | a, b => compare a.render b.render

theorem standing_swap (a b : Value) : a.standing b = (b.standing a).swap := by
  have written : compare a.render b.render = (compare b.render a.render).swap :=
    Std.OrientedCmp.eq_swap
  cases a with
  | null => cases b <;> exact written
  | text s => cases b <;> exact written
  | number x =>
    cases b with
    | number y => exact x.order_swap y
    | null => exact written
    | text t => exact written

/-- A number is not written as any text that is no numeral. -/
theorem plain_ne_of_wordy {x : Number} {s : String} (proper : x.isNaN = false)
    (wordy : parseNumeric? s = none) : x.plain ≠ s := by
  rintro rfl
  have numeral := Number.isSome_parseNumeric?_plain proper
  rw [wordy] at numeral
  cases numeral

end Value

/-! ### Comparisons of a standing -/

namespace Comparison

/-- The comparison that says the same with its sides exchanged. -/
def mirror : Comparison → Comparison
  | greater => less
  | less => greater
  | greaterOrEqual => lessOrEqual
  | lessOrEqual => greaterOrEqual
  | op => op

theorem accepts_swap (op : Comparison) (order : Ordering) :
    op.accepts order.swap = op.mirror.accepts order := by
  cases op <;> cases order <;> rfl

theorem accepts_notEqual (order : Ordering) : notEqual.accepts order = !equal.accepts order := by
  cases order <;> rfl

theorem accepts_greaterOrEqual (order : Ordering) :
    greaterOrEqual.accepts order = (greater.accepts order || equal.accepts order) := by
  cases order <;> rfl

theorem accepts_lessOrEqual (order : Ordering) :
    lessOrEqual.accepts order = (less.accepts order || equal.accepts order) := by
  cases order <;> rfl

def ofOrder : Ordering → Comparison
  | .lt => less
  | .eq => equal
  | .gt => greater

theorem accepts_iff_ofOrder {op : Comparison} (plain : op ∈ [less, equal, greater])
    (order : Ordering) : op.accepts order ↔ op = ofOrder order := by
  simp only [List.mem_cons, List.not_mem_nil, or_false] at plain
  obtain rfl | rfl | rfl := plain
  all_goals cases order <;> decide

theorem existsUnique_accepts (order : Ordering) :
    ∃! op, op ∈ [less, equal, greater] ∧ op.accepts order := by
  have listed : ofOrder order ∈ [less, equal, greater] := by cases order <;> decide
  exact ⟨ofOrder order, ⟨listed, (accepts_iff_ofOrder listed order).mpr rfl⟩,
    fun op said => (accepts_iff_ofOrder said.1 order).mp said.2⟩

theorem ofNumbers_eq_accepts {x y : Number} (op : Comparison) (properX : x.isNaN = false)
    (properY : y.isNaN = false) : op.ofNumbers x y = op.accepts (x.order y) := by
  have placeX := Number.point?_eq_rank properX
  have placeY := Number.point?_eq_rank properY
  rcases lt_trichotomy x.rank y.rank with less | same | greater
  · have order : x.order y = .lt := Int.compare_eq_lt.mpr less
    cases op <;> simp [ofNumbers, Number.equals, Number.below, Number.atMost, placeX, placeY,
      order, accepts] <;> omega
  · have order : x.order y = .eq := Int.compare_eq_eq.mpr same
    cases op <;> simp [ofNumbers, Number.equals, Number.below, Number.atMost, placeX, placeY,
      order, accepts, same]
  · have order : x.order y = .gt := Int.compare_eq_gt.mpr greater
    cases op <;> simp [ofNumbers, Number.equals, Number.below, Number.atMost, placeX, placeY,
      order, accepts] <;> omega

/-- Between a number and a text the comparisons ask for the order of what is written, for the two
are never written alike. -/
theorem holds_mixed {x : Number} {s : String} (op : Comparison) (unlike : x.plain ≠ s) :
    op.holds (.number x) (.text s) = op.accepts (compare x.plain s) ∧
      op.holds (.text s) (.number x) = op.accepts (compare s x.plain) := by
  have before : compare x.plain s ≠ .eq := fun same => unlike (Std.compare_eq_iff_eq.mp same)
  have after : compare s x.plain ≠ .eq := fun same => unlike (Std.compare_eq_iff_eq.mp same).symm
  cases op with
  | equal => simp [holds, accepts, before, after]
  | notEqual => simp [holds, accepts, before, after]
  | _ => exact ⟨rfl, rfl⟩

/-- A comparison of literals asks how they stand to each other. -/
theorem holds_eq_accepts {a b : Value} (op : Comparison) (literalA : a.Literal)
    (literalB : b.Literal) : op.holds a b = op.accepts (a.standing b) := by
  cases literalA with
  | number properA =>
    cases literalB with
    | number properB => exact op.ofNumbers_eq_accepts properA properB
    | text wordy => exact (op.holds_mixed (Value.plain_ne_of_wordy properA wordy)).1
  | text wordy =>
    cases literalB with
    | number proper => exact (op.holds_mixed (Value.plain_ne_of_wordy proper wordy)).2
    | text => rfl

/-- The comparisons of two values agree with each other: one alone of the strict ones and equality
holds, the rest follow from it, and sides may be exchanged. A number and a text are compared as
written and are never equal. -/
structure Trichotomous (a b : Value) : Prop where
  existsUnique : ∃! op, op ∈ [less, equal, greater] ∧ op.holds a b
  notEqual_eq : notEqual.holds a b = !equal.holds a b
  greaterOrEqual_eq : greaterOrEqual.holds a b = (greater.holds a b || equal.holds a b)
  lessOrEqual_eq : lessOrEqual.holds a b = (less.holds a b || equal.holds a b)
  mirror_eq : ∀ op : Comparison, op.holds a b = op.mirror.holds b a
  mixed : a.number?.isSome ≠ b.number?.isSome →
    equal.holds a b = false ∧
      ∀ op : Comparison, op.holds a b = op.accepts (compare a.render b.render)

theorem trichotomous_of_literal {a b : Value} (literalA : a.Literal) (literalB : b.Literal) :
    Trichotomous a b := by
  have told (op : Comparison) : op.holds a b = op.accepts (a.standing b) :=
    op.holds_eq_accepts literalA literalB
  constructor
  · simp only [told]
    exact existsUnique_accepts _
  · simp only [told, accepts_notEqual]
  · simp only [told, accepts_greaterOrEqual]
  · simp only [told, accepts_lessOrEqual]
  · intro op
    rw [told, Value.standing_swap, accepts_swap, op.mirror.holds_eq_accepts literalB literalA]
  · intro unlike
    cases literalA with
    | number =>
      cases literalB with
      | number => exact absurd rfl unlike
      | text => exact ⟨rfl, told⟩
    | text =>
      cases literalB with
      | number => exact ⟨rfl, told⟩
      | text => exact absurd rfl unlike

/-- Whatever two texts stand for, the comparisons of it agree. -/
theorem trichotomous_ofLiteral (a b : String) : Trichotomous (.ofLiteral a) (.ofLiteral b) :=
  trichotomous_of_literal (Value.literal_ofLiteral a) (Value.literal_ofLiteral b)

/-- Ten comes before nine apples, which begin with the greater digit. -/
theorem ten_less_apples :
    less.holds (.ofLiteral "10") (.ofLiteral "'9 apples'") ∧
      ¬ equal.holds (.ofLiteral "10") (.ofLiteral "'9 apples'") := by
  have number : (Value.ofLiteral "10").number?.isSome := by decide +kernel
  have text : (Value.ofLiteral "'9 apples'").number?.isSome = false := by decide +kernel
  have written : less.accepts (compare (Value.ofLiteral "10").render
      (Value.ofLiteral "'9 apples'").render) := by decide +kernel
  obtain ⟨unequal, told⟩ :=
    (trichotomous_ofLiteral "10" "'9 apples'").mixed (by simp [number, text])
  exact ⟨(told less).trans written, by simp [unequal]⟩

end Comparison

end TableQuery
