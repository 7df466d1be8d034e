import Mathlib
import TableQuery.Pairing

/-! What the row of a pair holds under each name, and which pairs the kinds of join have in common.
The main table's name must hold no point: the qualifier of a field ends at the first one. -/
namespace TableQuery

namespace Cells

variable {cells : List (String × Value)}

theorem lookup_eq_none_of_notMem {key : String} (fresh : key ∉ keys cells) :
    cells.lookup key = none := by
  rw [List.lookup_eq_none_iff]
  intro cell mem
  rw [bne_iff_ne]
  rintro rfl
  exact fresh (List.mem_map_of_mem mem)

/-- Of distinct names it does not matter from which end one is looked up. -/
theorem lookup_reverse (distinct : (keys cells).Nodup) (key : String) :
    cells.reverse.lookup key = cells.lookup key := by
  induction cells with
  | nil => rfl
  | cons cell rest ih =>
    obtain ⟨fresh, distinct⟩ := List.nodup_cons.mp distinct
    rw [List.reverse_cons, List.lookup_append, ih distinct, List.lookup_cons, List.lookup_cons]
    by_cases same : key = cell.1
    · subst same
      simp [lookup_eq_none_of_notMem fresh]
    · simp [beq_eq_false_iff_ne.mpr same]

end Cells

section Names

variable {table field : String}

theorem splitName_append (pointless : '.' ∉ table.toList) (name : String) :
    splitName (table ++ "." ++ name) = (some table, name) := by
  have text : (table ++ "." ++ name).toList = table.toList ++ '.' :: name.toList := by simp
  rw [splitName, text, splitFirst?_append pointless]
  simp

theorem exists_splitName (pointed : '.' ∈ field.toList) :
    ∃ qualifier name, splitName field = (some qualifier, name) := by
  obtain ⟨before, after, text, fresh⟩ := List.eq_append_cons_of_mem pointed
  refine ⟨String.ofList before, String.ofList after, ?_⟩
  rw [splitName, text, splitFirst?_append fresh]

end Names

section Fields

variable {table qualifier field name key : String} {fields : List String} {carryMain : Bool}
  {main : Row} {joined : Option Row}

theorem pairField_main (pointless : '.' ∉ table.toList) :
    pairField table carryMain main joined (table ++ "." ++ key) = main.get? key := by
  simp [pairField, splitName_append pointless]

/-- A field with a qualifier is read from one side, whether or not the main row is carried. -/
theorem pairField_congr (pointed : '.' ∈ field.toList) (carry carry' : Bool) :
    pairField table carry main joined field = pairField table carry' main joined field := by
  obtain ⟨qualifier, name, split⟩ := exists_splitName pointed
  simp only [pairField, split]

theorem pairField_unpaired (split : splitName field = (some qualifier, name))
    (foreign : qualifier ≠ table) : pairField table carryMain main none field = some .null := by
  simp [pairField, split, foreign]

/-- The cells of a main row under the name of its table. -/
def carriedCells (table : String) (main : Row) : List (String × Value) :=
  main.cells.map fun cell => (table ++ "." ++ cell.1, cell.2)

theorem lookup_carriedCells (table key : String) (main : Row) :
    (carriedCells table main).reverse.lookup (table ++ "." ++ key) = main.get? key := by
  have each (cells : List (String × Value)) :
      (cells.map fun cell => (table ++ "." ++ cell.1, cell.2)).lookup (table ++ "." ++ key) =
        cells.lookup key := by
    induction cells with
    | nil => rfl
    | cons cell rest ih =>
      rw [List.map_cons, List.lookup_cons, List.lookup_cons, ih]
      have same : (table ++ "." ++ key == table ++ "." ++ cell.1) = (key == cell.1) :=
        Bool.eq_iff_iff.mpr (by simp)
      rw [same]
  rw [carriedCells, ← List.map_reverse, each, Cells.lookup_reverse main.distinct, Row.get?]

theorem lookup_carriedCells_of_ne (foreign : ∀ key, name ≠ table ++ "." ++ key) :
    (carriedCells table main).reverse.lookup name = none := by
  rw [List.lookup_eq_none_iff]
  intro cell mem
  rw [List.mem_reverse, carriedCells, List.mem_map] at mem
  obtain ⟨inner, -, rfl⟩ := mem
  exact bne_iff_ne.mpr (foreign inner.1)

theorem lookup_askedCells (value : String → Option Value) (fields : List String) (name : String) :
    (fields.filterMap fun field => (value field).map fun v => (field, v)).lookup name =
      if name ∈ fields then value name else none := by
  induction fields with
  | nil => rfl
  | cons field rest ih =>
    rw [List.filterMap_cons]
    by_cases same : name = field
    · subst same
      cases held : value name with
      | none => simp [ih, held]
      | some v => simp
    · cases value field with
      | none => simp [ih, same]
      | some v => simp [ih, List.lookup_cons, same, beq_eq_false_iff_ne.mpr same]

/-- Under a name a row of a pair holds what is asked of the pair, or else what is carried. -/
theorem get?_pairRow (table : String) (fields : List String) (carryMain : Bool) (main : Row)
    (joined : Option Row) (name : String) :
    (pairRow table fields carryMain main joined).get? name =
      (if name ∈ fields then pairField table carryMain main joined name else none).or
        (if carryMain then (carriedCells table main).reverse.lookup name else none) := by
  rw [pairRow, Row.get?_ofCells, List.reverse_append, List.lookup_append, ← List.filterMap_reverse,
    lookup_askedCells]
  simp only [List.mem_reverse, carriedCells]
  cases carryMain <;> rfl

/-- A field asked for is the one of the pair. -/
theorem get?_pairRow_of_mem (pointless : '.' ∉ table.toList) (asked : name ∈ fields) :
    (pairRow table fields carryMain main joined).get? name =
      pairField table carryMain main joined name := by
  rw [get?_pairRow, if_pos asked]
  cases carryMain with
  | false => exact Option.or_none
  | true =>
    by_cases own : ∃ key, name = table ++ "." ++ key
    · obtain ⟨key, rfl⟩ := own
      rw [if_pos rfl, lookup_carriedCells, pairField_main pointless, Option.or_self]
    · rw [if_pos rfl, lookup_carriedCells_of_ne (not_exists.mp own), Option.or_none]

/-- Under the name of a field of the main table, what is asked of the pair hides what is carried. -/
theorem get?_pairRow_carried (table : String) (fields : List String) (main : Row)
    (joined : Option Row) (key : String) :
    (pairRow table fields true main joined).get? (table ++ "." ++ key) =
      (if table ++ "." ++ key ∈ fields then
        pairField table true main joined (table ++ "." ++ key) else none).or (main.get? key) := by
  rw [get?_pairRow, if_pos rfl, lookup_carriedCells]

/-- A carried main row is there under the name of its table, whatever is asked for. -/
theorem get?_pairRow_main (pointless : '.' ∉ table.toList) :
    (pairRow table fields true main joined).get? (table ++ "." ++ key) = main.get? key := by
  rw [get?_pairRow_carried, pairField_main pointless]
  split <;> simp

end Fields

namespace Join

variable {join : Join} {main joined : Table}

/-- What stands beside a main row in the pairs of a left join. -/
def partners (join : Join) (joined : Table) (row : Row) : List (Option Row) :=
  match joined.filter (join.matchesPair row) with
  | [] => [none]
  | found => found.map some

theorem partners_ne_nil (join : Join) (joined : Table) (row : Row) :
    join.partners joined row ≠ [] := by
  unfold partners
  cases joined.filter (join.matchesPair row) <;> simp

theorem leftPairs_eq (join : Join) (main joined : Table) :
    join.leftPairs main joined =
      main.flatMap fun row => (join.partners joined row).map fun other => (row, other) := by
  unfold leftPairs partners
  congr 1
  funext row
  cases joined.filter (join.matchesPair row) <;> simp

theorem leftRows_cons (join : Join) (table : String) (fields : List String) (row : Row)
    (main joined : Table) :
    join.rows .left table fields (row :: main) joined =
      (join.partners joined row).map (pairRow table fields true row) ++
        join.rows .left table fields main joined := by
  simp only [rows, pairs, leftPairs_eq, JoinKind.carriesMain, List.flatMap_cons, List.map_append,
    List.map_map]
  rfl

section MainRow

variable {table : String} {fields : List String} {p q : Row → Bool}

/-- What depends on the main row alone may be asked of it before the join. -/
theorem filter_leftRows (same : ∀ row other, p (pairRow table fields true row other) = q row)
    (main joined : Table) :
    (join.rows .left table fields main joined).filter p =
      join.rows .left table fields (main.filter q) joined := by
  induction main with
  | nil => rfl
  | cons row rest ih =>
    rw [leftRows_cons, List.filter_append, ih, List.filter_cons]
    cases kept : q row with
    | true =>
      rw [if_pos rfl, leftRows_cons, List.filter_eq_self.mpr]
      simp [same, kept]
    | false =>
      rw [List.filter_eq_nil_iff.mpr]
      · rfl
      · simp [same, kept]

theorem findSome?_leftRows {α : Type} {f g : Row → Option α}
    (same : ∀ row other, f (pairRow table fields true row other) = g row) (main joined : Table) :
    (join.rows .left table fields main joined).findSome? f = main.findSome? g := by
  induction main with
  | nil => rfl
  | cons row rest ih =>
    obtain ⟨first, others, found⟩ := List.exists_cons_of_ne_nil (join.partners_ne_nil joined row)
    have here : ((join.partners joined row).map (pairRow table fields true row)).findSome? f =
        g row := by
      rw [found, List.map_cons, List.findSome?_cons, same]
      cases value : g row with
      | some _ => rfl
      | none => simp [same, value]
    rw [leftRows_cons, List.findSome?_append, ih, here, List.findSome?_cons]
    cases g row <;> rfl

end MainRow

/-- The pairs of a left join with a joined row are those of an inner join. -/
theorem filter_leftPairs (join : Join) (main joined : Table) :
    (join.leftPairs main joined).filter (·.2.isSome) = join.innerPairs main joined := by
  unfold leftPairs innerPairs
  rw [List.filter_flatMap]
  congr 1
  funext row
  cases joined.filter (join.matchesPair row) with
  | nil => rfl
  | cons first rest => simp [List.filter_map, Function.comp_def]

end Join

namespace Sample

/-- Students, of whom the second has no name and takes no course. -/
def students : Table := [
  .ofCells [("id", .text "1"), ("name", .text "Ann")],
  .ofCells [("id", .text "2")],
  .ofCells [("id", .text "3"), ("name", .text "Cid")]]

def enrollments : Table := [
  .ofCells [("student", .text "3"), ("course", .text "art"), ("grade", .text "10")],
  .ofCells [("student", .text "1"), ("course", .text "math"), ("grade", .text "7")],
  .ofCells [("student", .text "1"), ("course", .text "bio"), ("grade", .null)]]

def enrolled (kind : String) : Join where
  kind
  table := "enrollment"
  left := "student.id"
  right := "enrollment.student"

end Sample
end TableQuery
