import TableQuery.Execution
import TableQuery.Proofs.Grouping
import TableQuery.Proofs.Selection

/-! What is made of rows depends on the fields that are read. Tables whose rows agree on those one
by one are selected from, sorted, grouped and projected alike. -/
namespace TableQuery

/-- Two rows have the same under each of some fields, or nothing alike. -/
def Row.AgreeOn (fields : List String) (a b : Row) : Prop :=
  ∀ field ∈ fields, a.get? field = b.get? field

def Table.AgreeOn (fields : List String) (a b : Table) : Prop :=
  List.Forall₂ (Row.AgreeOn fields) a b

section Rows

variable {fields read : List String} {a b a' b' : Row} {conditions : List Condition}
  {keys : List SortKey}

theorem Row.AgreeOn.mono (agree : a.AgreeOn fields b) (sub : read ⊆ fields) : a.AgreeOn read b :=
  fun field mem => agree field (sub mem)

theorem Condition.holdsOf_congr {condition : Condition}
    (same : a.get? condition.field = b.get? condition.field) :
    condition.holdsOf a = condition.holdsOf b := by
  rw [holdsOf, holdsOf, same]

theorem Condition.failure?_congr (agree : a.AgreeOn fields b)
    (named : ∀ condition ∈ conditions, condition.field ∈ fields) :
    failure? conditions a = failure? conditions b := by
  induction conditions with
  | nil => rfl
  | cons condition rest ih =>
    rw [failure?, failure?, holdsOf_congr (agree _ (named condition List.mem_cons_self)),
      ih fun other mem => named other (List.mem_cons_of_mem _ mem)]

theorem Condition.areMetBy_congr (agree : a.AgreeOn fields b)
    (named : ∀ condition ∈ conditions, condition.field ∈ fields) :
    areMetBy conditions a = areMetBy conditions b := by
  induction conditions with
  | nil => rfl
  | cons condition rest ih =>
    rw [areMetBy_cons, areMetBy_cons, isMetBy, isMetBy,
      holdsOf_congr (agree _ (named condition List.mem_cons_self)),
      ih fun other mem => named other (List.mem_cons_of_mem _ mem)]

theorem orderRows_congr (agree : a.AgreeOn fields a') (agree' : b.AgreeOn fields b')
    (named : ∀ key ∈ keys, key.field ∈ fields) : orderRows keys a b = orderRows keys a' b' := by
  refine List.foldr_ext _ _ _ fun key mem rest => ?_
  rw [SortKey.orderRows, SortKey.orderRows, agree _ (named key mem), agree' _ (named key mem)]

theorem Row.project_of_starless (row : Row) (starless : "*" ∉ fields) :
    row.project fields = ofCells (fields.map fun field => (field, row.getOrNull field)) := by
  rw [project, List.map_eq_flatMap]
  congr 1
  refine List.flatMap_congr fun field mem => ?_
  have plain : field ≠ "*" := by
    rintro rfl
    exact starless mem
  rw [if_neg plain]

theorem Row.project_congr (agree : a.AgreeOn fields b) (starless : "*" ∉ fields) :
    a.project fields = b.project fields := by
  rw [project_of_starless a starless, project_of_starless b starless]
  congr 1
  refine List.map_congr_left fun field mem => ?_
  rw [getOrNull, getOrNull, agree field mem]

theorem Row.amount_congr {field : Option String} (agree : a.AgreeOn fields b)
    (named : ∀ name ∈ field, name ∈ fields) : a.amount field = b.amount field := by
  cases field with
  | none => rfl
  | some name =>
    have same : (some name).bind a.get? = (some name).bind b.get? := agree name (named name rfl)
    rw [amount, amount, same]

theorem Group.headOf_congr (agree : a.AgreeOn fields b) : headOf fields a = headOf fields b := by
  rw [headOf, headOf]
  congr 1
  refine List.map_congr_left fun field mem => ?_
  rw [Row.getOrNull, Row.getOrNull, agree field mem]

end Rows

/-- Every aggregate is tallied by itself. -/
theorem Tallies.foldl_add (aggregates : List Aggregate) (table : Table) :
    table.foldl Tallies.add (Tallies.start aggregates) =
      aggregates.map fun aggregate => (aggregate, table.foldl aggregate.tally {}) := by
  have each (tallies : Aggregate → Tally) :
      table.foldl Tallies.add (aggregates.map fun aggregate => (aggregate, tallies aggregate)) =
        aggregates.map fun aggregate =>
          (aggregate, table.foldl aggregate.tally (tallies aggregate)) := by
    induction table generalizing tallies with
    | nil => rfl
    | cons row rest ih =>
      rw [List.foldl_cons, Tallies.add, List.map_map]
      exact ih fun aggregate => aggregate.tally (tallies aggregate) row
  exact each fun _ => {}

section Tables

variable {fields read : List String} {a b : Table} {conditions : List Condition}
  {keys : List SortKey} {aggregates : List Aggregate}

theorem Table.failure?_congr (agree : Table.AgreeOn fields a b)
    (named : ∀ condition ∈ conditions, condition.field ∈ fields) :
    a.failure? conditions = b.failure? conditions := by
  unfold failure?
  induction agree with
  | nil => rfl
  | cons row _ ih =>
    rw [List.findSome?_cons, List.findSome?_cons, Condition.failure?_congr row named, ih]

/-- Tables made of the same items agree where the rows of each item do. -/
theorem Table.agreeOn_map {α : Type} {items : List α} {f g : α → Row}
    (each : ∀ item ∈ items, Row.AgreeOn fields (f item) (g item)) :
    Table.AgreeOn fields (items.map f) (items.map g) := by
  unfold AgreeOn
  rw [List.forall₂_map_left_iff, List.forall₂_map_right_iff, List.forall₂_same]
  exact each

namespace Table.AgreeOn

theorem mono (agree : Table.AgreeOn fields a b) (sub : read ⊆ fields) : Table.AgreeOn read a b :=
  List.Forall₂.imp (fun _ _ row => row.mono sub) agree

theorem map_eq {α : Type} {f : Row → α} (agree : Table.AgreeOn fields a b)
    (same : ∀ a b, Row.AgreeOn fields a b → f a = f b) : a.map f = b.map f := by
  induction agree with
  | nil => rfl
  | cons row _ ih => rw [List.map_cons, List.map_cons, same _ _ row, ih]

theorem filter {p : Row → Bool} (agree : Table.AgreeOn fields a b)
    (same : ∀ a b, Row.AgreeOn fields a b → p a = p b) :
    Table.AgreeOn fields (a.filter p) (b.filter p) :=
  List.rel_filter (fun a b row => Bool.eq_iff_iff.mp (same a b row)) agree

/-- The rows are sorted in step: the pairs of rows are sorted by the one and by the other row
alike. -/
theorem sortBy (agree : Table.AgreeOn fields a b) (named : ∀ key ∈ keys, key.field ∈ fields) :
    Table.AgreeOn fields (a.sortBy keys) (b.sortBy keys) := by
  obtain ⟨length, each⟩ := List.forall₂_iff_zip.mp agree
  have firsts : (a.zip b).map Prod.fst = a := List.map_fst_zip length.le
  have seconds : (a.zip b).map Prod.snd = b := List.map_snd_zip length.ge
  let pairs := (a.zip b).mergeSort fun x y => (orderRows keys x.1 y.1).isLE
  have sorted : pairs.map Prod.fst = a.sortBy keys := by
    rw [Table.sortBy, ← firsts]
    exact List.map_mergeSort fun _ _ _ _ => rfl
  have sorted' : pairs.map Prod.snd = b.sortBy keys := by
    rw [Table.sortBy, ← seconds]
    refine List.map_mergeSort fun x memX y memY => ?_
    rw [orderRows_congr (each memX) (each memY) named]
  rw [← sorted, ← sorted']
  exact agreeOn_map fun pair mem => each (List.mem_mergeSort.mp mem)

theorem limitTo (agree : Table.AgreeOn fields a b) (limit : Option Nat) :
    Table.AgreeOn fields (a.limitTo limit) (b.limitTo limit) := by
  cases limit with
  | none => exact agree
  | some n => exact List.forall₂_take n agree

theorem project_eq (agree : Table.AgreeOn fields a b) (starless : "*" ∉ fields) :
    a.project fields = b.project fields :=
  agree.map_eq fun _ _ row => Row.project_congr row starless

theorem tally_eq {aggregate : Aggregate} (agree : Table.AgreeOn fields a b)
    (named : ∀ field ∈ aggregate.field, field ∈ fields) (tally : Tally) :
    a.foldl aggregate.tally tally = b.foldl aggregate.tally tally := by
  induction agree generalizing tally with
  | nil => rfl
  | cons row _ ih =>
    rw [List.foldl_cons, List.foldl_cons, Aggregate.tally, Aggregate.tally,
      Row.amount_congr row named, ih]

theorem tallies_eq (agree : Table.AgreeOn fields a b)
    (named : ∀ aggregate ∈ aggregates, ∀ field ∈ aggregate.field, field ∈ fields) :
    a.foldl Tallies.add (Tallies.start aggregates) =
      b.foldl Tallies.add (Tallies.start aggregates) := by
  rw [Tallies.foldl_add, Tallies.foldl_add]
  refine List.map_congr_left fun aggregate mem => ?_
  rw [agree.tally_eq (named aggregate mem)]

theorem aggregate_eq (agree : Table.AgreeOn fields a b)
    (named : ∀ aggregate ∈ aggregates, ∀ field ∈ aggregate.field, field ∈ fields) :
    a.aggregate aggregates = b.aggregate aggregates := by
  rw [Table.aggregate, Table.aggregate, agree.tallies_eq named]

theorem head_eq (agree : Table.AgreeOn fields a b) (keyed : read ⊆ fields) :
    a.head?.elim .empty (Group.headOf read) = b.head?.elim .empty (Group.headOf read) := by
  cases agree with
  | nil => rfl
  | cons row _ => exact Group.headOf_congr (row.mono keyed)

theorem group_eq (agree : Table.AgreeOn fields a b) (keyed : read ⊆ fields)
    (named : ∀ aggregate ∈ aggregates, ∀ field ∈ aggregate.field, field ∈ fields) :
    a.group read aggregates = b.group read aggregates := by
  have keyOf (a b : Row) (row : a.AgreeOn fields b) : Group.keyOf read a = Group.keyOf read b :=
    List.map_congr_left fun field mem => by rw [row field (keyed mem)]
  have keys : Group.keysOf read a = Group.keysOf read b := by
    rw [Group.keysOf, Group.keysOf, agree.map_eq keyOf]
  rw [Table.group, Table.group, Group.foldl_place, Group.foldl_place, keys]
  refine congrArg (List.map Group.row) (List.map_congr_left fun key _ => ?_)
  have rows : Table.AgreeOn fields (Group.rowsOf read key a) (Group.rowsOf read key b) :=
    agree.filter fun a b row => by rw [keyOf a b row]
  rw [Group.ofRows, Group.ofRows, rows.tallies_eq named, rows.head_eq keyed]

end Table.AgreeOn

end Tables

namespace Query

variable {query : Query} {read : List String} {a b : Table}

/-- A query for rows as they are, without aggregates. -/
structure Plain (query : Query) : Prop where
  noAggregates : query.aggregates = []
  noGrouping : query.groupBy = none

theorem orderAndLimit_agree (agree : Table.AgreeOn read a b)
    (sorted : ∀ keys ∈ query.orderBy, ∀ key ∈ keys, key.field ∈ read) :
    Table.AgreeOn read (query.orderAndLimit a) (query.orderAndLimit b) := by
  unfold orderAndLimit
  cases order : query.orderBy with
  | none => exact agree.limitTo query.limit
  | some keys => exact (agree.sortBy (sorted keys order)).limitTo query.limit

/-- A plain query reads the fields asked for and those it sorts by. -/
theorem resultRows_congr_of_plain (plain : query.Plain) (agree : Table.AgreeOn read a b)
    (asked : query.fields ⊆ read) (starless : "*" ∉ query.fields)
    (sorted : ∀ keys ∈ query.orderBy, ∀ key ∈ keys, key.field ∈ read) :
    query.resultRows a = query.resultRows b := by
  rw [resultRows, resultRows, plain.noAggregates, plain.noGrouping]
  split
  · rw [agree.aggregate_eq fun aggregate mem => absurd mem List.not_mem_nil]
  · exact ((orderAndLimit_agree agree sorted).mono asked).project_eq starless

theorem select_resultRows_congr (plain : query.Plain) (agree : Table.AgreeOn read a b)
    (asked : query.fields ⊆ read) (starless : "*" ∉ query.fields)
    (named : ∀ condition ∈ query.conditions, condition.field ∈ read)
    (sorted : ∀ keys ∈ query.orderBy, ∀ key ∈ keys, key.field ∈ read) :
    (a.select query.conditions).map query.resultRows =
      (b.select query.conditions).map query.resultRows := by
  have kept := agree.filter fun _ _ row => Condition.areMetBy_congr row named
  rw [Table.select_eq, Table.select_eq, Table.failure?_congr agree named]
  cases b.failure? query.conditions with
  | some _ => rfl
  | none => exact congrArg Except.ok (resultRows_congr_of_plain plain kept asked starless sorted)

/-- A query with aggregates reads their fields and those it groups by. -/
theorem resultRows_congr_of_aggregated (aggregated : query.wholeTable ∨ query.groupBy.isSome)
    (agree : Table.AgreeOn read a b)
    (named : ∀ aggregate ∈ query.aggregates, ∀ field ∈ aggregate.field, field ∈ read)
    (keyed : ∀ fields ∈ query.groupBy, fields ⊆ read) :
    query.resultRows a = query.resultRows b := by
  rw [resultRows, resultRows, agree.aggregate_eq named]
  cases grouping : query.groupBy with
  | none =>
    have whole : query.wholeTable = true := by simpa [grouping] using aggregated
    rw [if_pos whole, if_pos whole]
  | some fields => simp only [agree.group_eq (keyed fields grouping) named]

theorem execute_eq (query : Query) (main : Table) (joined : Option Table) :
    query.execute main joined =
      (query.sourceRows main joined).bind fun source =>
        (source.select query.conditions).map query.resultRows := by
  unfold execute
  cases query.sourceRows main joined with
  | error error => rfl
  | ok source =>
    change (source.select query.conditions).bind _ = (source.select query.conditions).map _
    cases source.select query.conditions <;> rfl

theorem execute_eq_ok_iff {main : Table} {joined : Option Table} {rows : Table} :
    query.execute main joined = .ok rows ↔
      ∃ source kept, query.sourceRows main joined = .ok source ∧
        source.select query.conditions = .ok kept ∧ rows = query.resultRows kept := by
  rw [execute_eq]
  cases query.sourceRows main joined with
  | error error => simp [Except.bind]
  | ok source =>
    cases told : source.select query.conditions with
    | error error => simp [Except.bind, Except.map, told]
    | ok kept => simp [Except.bind, Except.map, told, eq_comm]

theorem execute_of_join (join : Join) {kind : JoinKind} (joins : query.join = some join)
    (known : JoinKind.ofName? join.kind = some kind) (main joined : Table) :
    query.execute main (some joined) =
      (Table.select query.conditions
        (join.rows kind query.table query.joinFields main joined)).map query.resultRows := by
  have source : query.sourceRows main (some joined) =
      .ok (join.rows kind query.table query.joinFields main joined) := by
    simp only [sourceRows, joins, known]
  rw [execute_eq, source]
  rfl

end Query
end TableQuery
