import TableQuery.Proofs.Coercion
import TableQuery.Proofs.Outcome

/-! Counts, sums and averages of one field. One amount that cannot be read makes NaN of the sum and
of the average and leaves the count as it is; the average is always the sum divided by the count. -/
namespace TableQuery

namespace Number

variable {amounts : List Number}

theorem nan_add (x : Number) : nan.add x = .nan := rfl

theorem add_nan (x : Number) : x.add .nan = .nan := by cases x <;> rfl

theorem nan_div (x : Number) : nan.div x = .nan := rfl

theorem foldl_add_nan (amounts : List Number) : amounts.foldl add .nan = .nan := by
  induction amounts with
  | nil => rfl
  | cons x rest ih => rw [List.foldl_cons, nan_add, ih]

/-- A sum is NaN from the first NaN on. -/
theorem foldl_add_of_nan_mem (bad : .nan ∈ amounts) (start : Number) :
    amounts.foldl add start = .nan := by
  obtain ⟨before, after, rfl⟩ := List.append_of_mem bad
  rw [List.foldl_append, List.foldl_cons, add_nan, foldl_add_nan]

/-- Nothing, shared among none. -/
theorem zero_div_none : zero.div (.ofNat 0) = .nan := by
  have none : ofNat 0 = zero := by
    rw [ofNat, Nat.zero_mul]
    exact ofQuotient_units false .zero
  rw [none]
  rfl

end Number

/-- A field of a row without a number in front: a star, an absent field, null, NaN, or text with no
numeral in front. -/
inductive Row.Unreadable (row : Row) : Option String → Prop where
  | star : Unreadable row none
  | absent {field : String} (absent : row.get? field = none) : Unreadable row (some field)
  | null {field : String} (value : row.get? field = some .null) : Unreadable row (some field)
  | nan {field : String} (value : row.get? field = some (.number .nan)) :
      Unreadable row (some field)
  | text {field s : String} (value : row.get? field = some (.text s))
      (numberless : ∀ front x, front <+: trimStart s.toList → ¬ Numeral.DecimalText front x) :
      Unreadable row (some field)

theorem Row.Unreadable.amount {row : Row} {field : Option String}
    (unreadable : row.Unreadable field) : row.amount field = .nan := by
  cases unreadable with
  | star => rfl
  | absent absent => simp only [Row.amount, Option.bind_some, absent]
  | null value => simp only [Row.amount, Option.bind_some, value, Value.amount]
  | nan value => simp only [Row.amount, Option.bind_some, value, Value.amount]
  | text value numberless =>
    simp only [Row.amount, Option.bind_some, value, Value.amount]
    exact Numeral.readFront_eq_nan numberless

/-- What the sum, the average and the count of a field over some rows have to do with each other. -/
structure Consistent (field : Option String) (rows : Table) (sum average count : Number) :
    Prop where
  sum_eq : sum = (rows.amounts field).foldl Number.add .zero
  sum_of_nan : ∀ row ∈ rows, row.amount field = .nan → sum = .nan
  average_of_nan : ∀ row ∈ rows, row.amount field = .nan → average = .nan
  count_eq : count = .ofNat rows.length
  average_eq : average = sum.div count
  average_of_none : rows = [] → average = .nan

namespace Aggregate

variable (field counted : Option String) (sum average count : String)

theorem consistent_outcome (rows : Table) :
    Consistent field rows (outcome ⟨.sum, field, sum⟩ rows)
      (outcome ⟨.average, field, average⟩ rows) (outcome ⟨.count, counted, count⟩ rows) := by
  have total : outcome ⟨.sum, field, sum⟩ rows =
      (rows.amounts field).foldl Number.add .zero := outcome_eq _ rows
  have rowCount : outcome ⟨.count, counted, count⟩ rows = .ofNat rows.length := outcome_eq _ rows
  have share : outcome ⟨.average, field, average⟩ rows =
      ((rows.amounts field).foldl Number.add .zero).div (.ofNat rows.length) := outcome_eq _ rows
  have poisoned (row : Row) (mem : row ∈ rows) (bad : row.amount field = .nan) :
      (rows.amounts field).foldl Number.add .zero = .nan :=
    Number.foldl_add_of_nan_mem (List.mem_map.mpr ⟨row, mem, bad⟩) .zero
  constructor
  · exact total
  · intro row mem bad
    rw [total, poisoned row mem bad]
  · intro row mem bad
    rw [share, poisoned row mem bad, Number.nan_div]
  · exact rowCount
  · rw [share, total, rowCount]
  · rintro rfl
    rw [share]
    exact Number.zero_div_none

/-- A field that cannot be read in one row makes NaN of its sum and of its average over the rows,
and the count is that of the rows; the average is the sum divided by the count, and NaN for no rows.
So it is after every row, for the whole table, and for every group over the rows of the group. -/
theorem outcomes_consistent (fields : List String) (aggregates : List Aggregate) (table : Table) :
    (∀ row : Row, row.Unreadable field → row.amount field = .nan) ∧
      (∀ rows, Consistent field rows (outcome ⟨.sum, field, sum⟩ rows)
        (outcome ⟨.average, field, average⟩ rows) (outcome ⟨.count, counted, count⟩ rows)) ∧
      (∀ aggregate : Aggregate, aggregate.running {} table =
        table.inits.map fun rows => .number (aggregate.outcome rows)) ∧
      (table.aggregate aggregates).Shows aggregates table ∧
      List.Forall₂ (fun key row => row.Shows aggregates (Group.rowsOf fields key table))
        (Group.keysOf fields table) (table.group fields aggregates) := by
  refine ⟨?_, ?_, ?_, ?_, ?_⟩
  · intro row unreadable
    exact unreadable.amount
  · exact consistent_outcome field counted sum average count
  · intro aggregate
    exact aggregate.running_eq_inits table {}
  · exact table.shows_aggregate aggregates
  · exact table.shows_group fields aggregates

/-- A word between two numbers. -/
theorem outcomes_of_word :
    let word := Row.ofCells [("n", .text "x")]
    let table : Table := [Row.ofCells [("n", .text "1")], word, Row.ofCells [("n", .text "3")]]
    word.Unreadable (some "n") ∧ outcome ⟨.sum, some "n", "sum(n)"⟩ table = .nan ∧
      outcome ⟨.average, some "n", "avg(n)"⟩ table = .nan ∧
        outcome ⟨.count, none, "count(*)"⟩ table = .ofNat 3 := by
  intro word table
  have scanned : Numeral.scan? (trimStart "x".toList) = none := by decide
  have unreadable : word.Unreadable (some "n") :=
    .text rfl fun _ _ inFront => Numeral.not_decimalText_of_scan scanned inFront
  have mem : word ∈ table := List.mem_cons_of_mem _ List.mem_cons_self
  obtain ⟨poisons, consistent, -⟩ :=
    outcomes_consistent (some "n") none "sum(n)" "avg(n)" "count(*)" [] [] table
  have bad := poisons word unreadable
  exact ⟨unreadable, (consistent table).sum_of_nan word mem bad,
    (consistent table).average_of_nan word mem bad, (consistent table).count_eq⟩

end Aggregate

end TableQuery
