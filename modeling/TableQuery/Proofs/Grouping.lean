import TableQuery.Aggregation
import TableQuery.Proofs.Writing

/-! Grouping a table is aggregating each of its groups by itself. The groups that one pass builds up
are followed row by row, against the rows that share a key. -/
namespace TableQuery

/-- Cells that grouping does not tell apart. -/
inductive Alike : Option Value → Option Value → Prop where
  | absent : Alike none none
  | null : Alike (some .null) (some .null)
  | text (s : String) : Alike (some (.text s)) (some (.text s))
  | nan : Alike (some (.number .nan)) (some (.number .nan))
  | number {x y : Number} (same : x.equals y) : Alike (some (.number x)) (some (.number y))

section Keys

theorem Number.equals_iff {x y : Number} :
    x.equals y ↔ ∃ p, x.point? = some p ∧ y.point? = some p := by
  unfold Number.equals
  cases x.point? with
  | none => simp
  | some a =>
    cases y.point? with
    | none => simp
    | some b =>
      constructor
      · intro same
        exact ⟨b, congrArg some (eq_of_beq same), rfl⟩
      · rintro ⟨p, hx, hy⟩
        exact beq_iff_eq.mpr (Option.some.inj (hx.trans hy.symm))

theorem Number.point?_zero : Number.zero.point? = some 0 := rfl

theorem Number.eq_nan_iff {x : Number} : x = .nan ↔ x.point? = none := by
  cases x <;> simp [Number.point?]

theorem Number.signed_inj {a b : Bool} {m n : Nat} (same : Number.signed a m = Number.signed b n)
    (nonzero : Number.signed a m ≠ 0) : a = b ∧ m = n := by
  unfold Number.signed at same nonzero
  cases a with
  | false =>
    cases b with
    | false => exact ⟨rfl, Int.ofNat.inj same⟩
    | true =>
      simp only [Bool.false_eq_true, if_true, if_false] at same nonzero
      omega
  | true =>
    cases b with
    | false =>
      simp only [Bool.false_eq_true, if_true, if_false] at same nonzero
      omega
    | true => exact ⟨rfl, Int.ofNat.inj (Int.neg_inj.mp same)⟩

/-- But for the zeros, a point is that of one number only. -/
theorem Number.eq_of_point? {x y : Number} {p : Int} (hx : x.point? = some p)
    (hy : y.point? = some p) (nonzero : p ≠ 0) : x = y := by
  cases x with
  | nan => cases hx
  | infinite a =>
    cases hx
    cases y with
    | nan => cases hy
    | infinite b =>
      have same := (Number.signed_inj (Option.some.inj hy).symm nonzero).1
      rw [same]
    | finite b size =>
      have same := (Number.signed_inj (Option.some.inj hy).symm nonzero).2
      exact absurd same (Nat.ne_of_gt size.representable.1)
  | finite a size =>
    cases hx
    cases y with
    | nan => cases hy
    | infinite b =>
      have same := (Number.signed_inj (Option.some.inj hy).symm nonzero).2
      exact absurd same (Nat.ne_of_lt size.representable.1)
    | finite b other =>
      obtain ⟨rfl, same⟩ := Number.signed_inj (Option.some.inj hy).symm nonzero
      cases size
      cases other
      cases same
      rfl

theorem Number.equals_zero_iff {x : Number} : x.equals .zero ↔ x.point? = some 0 := by
  rw [Number.equals_iff, Number.point?_zero]
  constructor
  · rintro ⟨p, hx, zero⟩
    rw [hx, ← zero]
  · intro hx
    exact ⟨0, hx, rfl⟩

/-- Numbers have one part in keys when they are equal or both no number. -/
theorem groupPart_number_eq_iff {x y : Number} :
    (Value.number x).groupPart = (Value.number y).groupPart ↔
      x = .nan ∧ y = .nan ∨ x.equals y := by
  simp only [Value.groupPart, Value.number.injEq, Number.equals_zero_iff]
  constructor
  · intro same
    by_cases zeroX : x.point? = some 0
    · by_cases zeroY : y.point? = some 0
      · exact .inr (Number.equals_iff.mpr ⟨0, zeroX, zeroY⟩)
      · rw [if_pos zeroX, if_neg zeroY] at same
        rw [← same] at zeroY
        exact absurd Number.point?_zero zeroY
    · by_cases zeroY : y.point? = some 0
      · rw [if_neg zeroX, if_pos zeroY] at same
        rw [same] at zeroX
        exact absurd Number.point?_zero zeroX
      · rw [if_neg zeroX, if_neg zeroY] at same
        subst same
        cases point : x.point? with
        | none => exact .inl ⟨Number.eq_nan_iff.mpr point, Number.eq_nan_iff.mpr point⟩
        | some p => exact .inr (Number.equals_iff.mpr ⟨p, point, point⟩)
  · rintro (⟨rfl, rfl⟩ | same)
    · rfl
    · obtain ⟨p, hx, hy⟩ := Number.equals_iff.mp same
      by_cases zero : p = 0
      · subst zero
        rw [if_pos hx, if_pos hy]
      · rw [Number.eq_of_point? hx hy zero]

theorem alike_iff {a b : Option Value} :
    Alike a b ↔ a.map Value.groupPart = b.map Value.groupPart := by
  constructor
  · intro alike
    cases alike with
    | absent => rfl
    | null => rfl
    | text s => rfl
    | nan => rfl
    | number same => exact congrArg some (groupPart_number_eq_iff.mpr (.inr same))
  · intro same
    cases a with
    | none =>
      cases b with
      | none => exact .absent
      | some b => cases same
    | some a =>
      cases b with
      | none => cases same
      | some b =>
        replace same := Option.some.inj same
        cases a <;> cases b <;> try cases same
        · exact .null
        · obtain ⟨rfl, rfl⟩ | equal := groupPart_number_eq_iff.mp same
          · exact .nan
          · exact .number equal
        · exact .text _

/-- Rows share a key when grouping tells them apart under none of the fields. -/
theorem keyOf_eq_iff {fields : List String} {a b : Row} :
    Group.keyOf fields a = Group.keyOf fields b ↔
      ∀ field ∈ fields, Alike (a.get? field) (b.get? field) := by
  unfold Group.keyOf
  rw [List.map_inj_left]
  constructor
  · intro same field mem
    exact alike_iff.mpr (same field mem)
  · intro alike field mem
    exact alike_iff.mp (alike field mem)

end Keys

namespace Group

variable {fields : List String} {aggregates : List Aggregate} {table : Table} {row : Row}
  {key : List (Option Value)}

/-- The keys of a table, each where it first comes. -/
def keysOf (fields : List String) (table : Table) : List (List (Option Value)) :=
  (table.map (keyOf fields)).eraseDups

def rowsOf (fields : List String) (key : List (Option Value)) (table : Table) : Table :=
  table.filter fun row => keyOf fields row = key

/-- The grouping fields of a row, null where it has none. -/
def headOf (fields : List String) (row : Row) : Row :=
  Row.ofCells (fields.map fun field => (field, row.getOrNull field))

/-- The grouping fields of the first of some rows, with every column of their aggregate written over
them. -/
def record (fields : List String) (aggregates : List Aggregate) : Table → Row
  | [] => .empty
  | first :: rest =>
    (headOf fields first).insertAll (Table.aggregate aggregates (first :: rest)).cells

def ofRows (fields : List String) (aggregates : List Aggregate) (key : List (Option Value))
    (rows : Table) : Group where
  key := key
  head := rows.head?.elim .empty (headOf fields)
  tallies := rows.foldl Tallies.add (Tallies.start aggregates)

section Keys

theorem mem_keysOf : key ∈ keysOf fields table ↔ ∃ row ∈ table, keyOf fields row = key := by
  rw [keysOf, List.mem_eraseDups, List.mem_map]

theorem keysOf_append_of_mem (old : keyOf fields row ∈ keysOf fields table) :
    keysOf fields (table ++ [row]) = keysOf fields table := by
  unfold keysOf at old ⊢
  rw [List.mem_eraseDups] at old
  rw [List.map_append, List.eraseDups_append, List.map_singleton]
  generalize table.map (keyOf fields) = keys at old
  simp [List.removeAll, old]

theorem keysOf_append_of_notMem (fresh : keyOf fields row ∉ keysOf fields table) :
    keysOf fields (table ++ [row]) = keysOf fields table ++ [keyOf fields row] := by
  unfold keysOf at fresh ⊢
  rw [List.mem_eraseDups] at fresh
  rw [List.map_append, List.eraseDups_append, List.map_singleton]
  generalize table.map (keyOf fields) = keys at fresh
  simp [List.removeAll, fresh, List.eraseDups_cons]

theorem nodup_keysOf (fields : List String) (table : Table) : (keysOf fields table).Nodup := by
  induction table using List.reverseRecOn with
  | nil => exact List.nodup_nil
  | append_singleton table row ih =>
    by_cases old : keyOf fields row ∈ keysOf fields table
    · rw [keysOf_append_of_mem old]
      exact ih
    · rw [keysOf_append_of_notMem old]
      rw [← List.concat_eq_append]
      exact ih.concat old

theorem rowsOf_append_self :
    rowsOf fields (keyOf fields row) (table ++ [row]) =
      rowsOf fields (keyOf fields row) table ++ [row] := by
  simp [rowsOf]

theorem rowsOf_append_of_ne (other : keyOf fields row ≠ key) :
    rowsOf fields key (table ++ [row]) = rowsOf fields key table := by
  simp [rowsOf, other]

theorem rowsOf_ne_nil : rowsOf fields key table ≠ [] ↔ key ∈ keysOf fields table := by
  rw [mem_keysOf, rowsOf, ne_eq, List.filter_eq_nil_iff]
  simp

end Keys

section Pass

@[simp] theorem key_ofRows {rows : Table} : (ofRows fields aggregates key rows).key = key := rfl

theorem ofRows_append (some : rowsOf fields key table ≠ []) :
    (ofRows fields aggregates key (rowsOf fields key table)).add row =
      ofRows fields aggregates key (rowsOf fields key table ++ [row]) := by
  obtain ⟨first, rest, shape⟩ := List.exists_cons_of_ne_nil some
  rw [shape]
  simp [ofRows, add]

theorem ofRows_singleton :
    (start fields aggregates row).add row = ofRows fields aggregates (keyOf fields row) [row] := rfl

theorem place_of_notMem {groups : List Group} (fresh : keyOf fields row ∉ groups.map Group.key) :
    place fields aggregates row groups = groups ++ [(start fields aggregates row).add row] := by
  induction groups with
  | nil => rfl
  | cons group rest ih =>
    simp only [List.map_cons, List.mem_cons, not_or] at fresh
    rw [place, if_neg (Ne.symm fresh.1), ih fresh.2, List.cons_append]

theorem place_of_mem {groups : List Group} (distinct : (groups.map Group.key).Nodup)
    (old : keyOf fields row ∈ groups.map Group.key) :
    place fields aggregates row groups =
      groups.map fun group => if group.key = keyOf fields row then group.add row else group := by
  induction groups with
  | nil => cases old
  | cons group rest ih =>
    simp only [List.map_cons, List.nodup_cons, List.mem_cons] at distinct old
    by_cases same : group.key = keyOf fields row
    · have others : ∀ other ∈ rest, other.key ≠ keyOf fields row := by
        intro other mem eq
        exact distinct.1 (same ▸ eq ▸ List.mem_map_of_mem mem)
      have unchanged : (rest.map fun group =>
          if group.key = keyOf fields row then group.add row else group) = rest := by
        conv_rhs => rw [← List.map_id rest]
        exact List.map_congr_left fun other mem => if_neg (others other mem)
      rw [place, if_pos same, List.map_cons, if_pos same, unchanged]
    · rw [place, if_neg same, List.map_cons, if_neg same,
        ih distinct.2 (old.resolve_left (Ne.symm same))]

/-- After any rows of a table the groups are those that the rows of each key make up. -/
theorem foldl_place (fields : List String) (aggregates : List Aggregate) (table : Table) :
    table.foldl (fun groups row => place fields aggregates row groups) [] =
      (keysOf fields table).map fun key => ofRows fields aggregates key (rowsOf fields key table) := by
  induction table using List.reverseRecOn with
  | nil => rfl
  | append_singleton table row ih =>
    have keys : ((keysOf fields table).map fun key =>
        ofRows fields aggregates key (rowsOf fields key table)).map Group.key =
          keysOf fields table := by
      rw [List.map_map]
      exact List.map_id _
    rw [List.foldl_append, ih, List.foldl_cons, List.foldl_nil]
    by_cases old : keyOf fields row ∈ keysOf fields table
    · rw [place_of_mem (keys.symm ▸ nodup_keysOf fields table) (keys.symm ▸ old),
        keysOf_append_of_mem old, List.map_map]
      refine List.map_congr_left fun key mem => ?_
      by_cases same : key = keyOf fields row
      · subst same
        rw [Function.comp_apply, key_ofRows, if_pos rfl, rowsOf_append_self]
        exact ofRows_append (rowsOf_ne_nil.mpr mem)
      · rw [Function.comp_apply, key_ofRows, if_neg same, rowsOf_append_of_ne (Ne.symm same)]
    · have none : rowsOf fields (keyOf fields row) table = [] := by
        by_contra some
        exact old (rowsOf_ne_nil.mp some)
      rw [place_of_notMem (keys.symm ▸ old), keysOf_append_of_notMem old, List.map_append]
      congr 1
      · refine List.map_congr_left fun key mem => ?_
        have other : keyOf fields row ≠ key := by
          rintro rfl
          exact old mem
        rw [rowsOf_append_of_ne other]
      · rw [List.map_singleton, rowsOf_append_self, none, List.nil_append, ofRows_singleton]

theorem row_ofRows {rows : Table} (some : rows ≠ []) :
    (ofRows fields aggregates key rows).row = record fields aggregates rows := by
  obtain ⟨first, rest, rfl⟩ := List.exists_cons_of_ne_nil some
  exact (Row.insertAll_ofCells _ _).symm

end Pass

section Partition

/-- Rows with any of some keys are the rows with one of them and the rows with another. -/
theorem flatMap_rowsOf_perm (fields : List String) {keys : List (List (Option Value))}
    (distinct : keys.Nodup) (table : Table) :
    (keys.flatMap fun key => rowsOf fields key table).Perm
      (table.filter fun row => keyOf fields row ∈ keys) := by
  induction keys with
  | nil => simp
  | cons key keys ih =>
    obtain ⟨fresh, distinct⟩ := List.nodup_cons.mp distinct
    have split := List.filter_append_perm (fun row => decide (keyOf fields row = key))
      (table.filter fun row => keyOf fields row ∈ key :: keys)
    have here : (table.filter fun row => keyOf fields row ∈ key :: keys).filter
        (fun row => keyOf fields row = key) = rowsOf fields key table := by
      rw [List.filter_filter, rowsOf]
      refine List.filter_congr fun row _ => ?_
      by_cases same : keyOf fields row = key <;> simp [same]
    have others : (table.filter fun row => keyOf fields row ∈ key :: keys).filter
        (fun row => !decide (keyOf fields row = key)) =
          table.filter fun row => keyOf fields row ∈ keys := by
      rw [List.filter_filter]
      refine List.filter_congr fun row _ => ?_
      by_cases same : keyOf fields row = key <;> simp [same, fresh]
    rw [here, others] at split
    exact ((ih distinct).append_left _).trans split

theorem flatMap_rowsOf_keysOf_perm (fields : List String) (table : Table) :
    ((keysOf fields table).flatMap fun key => rowsOf fields key table).Perm table := by
  have all : (table.filter fun row => keyOf fields row ∈ keysOf fields table) = table := by
    rw [List.filter_eq_self]
    intro row mem
    exact decide_eq_true (mem_keysOf.mpr ⟨row, mem, rfl⟩)
  have perm := flatMap_rowsOf_perm fields (nodup_keysOf fields table) table
  rwa [all] at perm

end Partition

end Group

/-- Grouping gives one row for each key of a table, in the order in which the keys first come: the
grouping fields of the first row that has the key, with the columns of the aggregate of just the
rows that have it. Two rows have one key when they are alike under every grouping field. Each row of
the table is under one key, in the order of the table. -/
theorem Table.group_eq_map_record (fields : List String) (aggregates : List Aggregate)
    (table : Table) :
    table.group fields aggregates =
        (Group.keysOf fields table).map (fun key =>
          Group.record fields aggregates (Group.rowsOf fields key table)) ∧
      (∀ a b, Group.keyOf fields a = Group.keyOf fields b ↔
        ∀ field ∈ fields, Alike (a.get? field) (b.get? field)) ∧
      (Group.keysOf fields table).Nodup ∧
      (∀ key, key ∈ Group.keysOf fields table ↔ Group.rowsOf fields key table ≠ []) ∧
      ((Group.keysOf fields table).flatMap fun key => Group.rowsOf fields key table).Perm table := by
  refine ⟨?_, fun a b => keyOf_eq_iff, Group.nodup_keysOf fields table,
    fun key => Group.rowsOf_ne_nil.symm, Group.flatMap_rowsOf_keysOf_perm fields table⟩
  rw [Table.group, Group.foldl_place, List.map_map]
  refine List.map_congr_left fun key mem => ?_
  exact Group.row_ofRows (Group.rowsOf_ne_nil.mpr mem)

end TableQuery
