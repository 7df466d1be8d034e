import Mathlib
import TableQuery.RowOrder

/-! Rows are compared by a total preorder, whatever they hold, so the sorted table is the only one
that is ordered and keeps the order of rows that tie. -/
namespace TableQuery
open Std

section Preorder

theorem transCmp_comap {α β : Type} (cmp : β → β → Ordering) [TransCmp cmp] (f : α → β) :
    TransCmp fun a b => cmp (f a) (f b) where
  eq_swap := OrientedCmp.eq_swap
  isLE_trans := TransCmp.isLE_trans

/-- Numbers first, then text, then null. -/
def Value.kind : Value → Nat
  | .number _ => 0
  | .text _ => 1
  | .null => 2

/-- The rank of a number; of anything else it tells nothing apart. -/
def Value.rank : Value → Int
  | .number x => x.rank
  | _ => 0

/-- The characters of a text; of anything else they tell nothing apart. -/
def Value.characters : Value → String
  | .text s => s
  | _ => ""

theorem Value.order_eq_compareLex :
    Value.order = compareLex (compareOn Value.kind)
      (compareLex (compareOn Value.rank) (compareOn Value.characters)) := by
  funext a b
  cases a with
  | null => cases b <;> rfl
  | number x =>
    cases b with
    | number y =>
      change compare x.rank y.rank = (compare x.rank y.rank).then .eq
      cases compare x.rank y.rank <;> rfl
    | _ => rfl
  | text s => cases b <;> rfl

instance : TransCmp Value.order := by
  rw [Value.order_eq_compareLex]
  infer_instance

instance (direction : Direction) : TransCmp fun a b => direction.apply (Value.order a b) := by
  cases direction with
  | ascending => exact inferInstanceAs (TransCmp Value.order)
  | descending =>
    have turned : (fun a b => Direction.descending.apply (Value.order a b)) =
        fun a b => Value.order b a := by
      funext a b
      exact OrientedCmp.eq_swap.symm
    rw [turned]
    infer_instance

def lacksValue (cell : Option Value) : Bool := cell.all Value.isNull

/-- A missing value is told apart before any direction is looked at. -/
theorem Direction.orderFields_eq_compareLex (direction : Direction) :
    direction.orderFields = compareLex (compareOn lacksValue)
      fun a b => direction.apply ((a.getD .null).order (b.getD .null)) := by
  funext a b
  have same : direction.apply .eq = .eq := by cases direction <;> rfl
  cases a with
  | none =>
    cases b with
    | none => exact same.symm
    | some b => cases b <;> first | rfl | exact same.symm
  | some a =>
    cases b with
    | none => cases a <;> first | rfl | exact same.symm
    | some b => cases a <;> cases b <;> first | rfl | exact same.symm

instance (direction : Direction) : TransCmp direction.orderFields := by
  rw [direction.orderFields_eq_compareLex]
  have values : TransCmp fun a b : Option Value =>
      direction.apply ((a.getD .null).order (b.getD .null)) :=
    transCmp_comap (fun a b => direction.apply (Value.order a b))
      fun cell : Option Value => cell.getD .null
  infer_instance

instance (key : SortKey) : TransCmp key.orderRows :=
  transCmp_comap key.direction.orderFields fun row : Row => row.get? key.field

theorem orderRows_cons (key : SortKey) (keys : List SortKey) :
    orderRows (key :: keys) = compareLex key.orderRows (orderRows keys) := rfl

instance (keys : List SortKey) : TransCmp (orderRows keys) := by
  induction keys with
  | nil => exact { eq_swap := rfl, isLE_trans := fun _ _ => rfl }
  | cons key keys ih =>
    rw [orderRows_cons]
    infer_instance

end Preorder

section Missing

variable {a b : Row} {key : SortKey} {keys front : List SortKey}

/-- A row has no value under a field: null is there, or nothing at all. -/
def Row.Lacks (row : Row) (field : String) : Prop :=
  row.get? field = none ∨ row.get? field = some .null

theorem Row.lacks_iff {row : Row} {field : String} :
    row.Lacks field ↔ lacksValue (row.get? field) = true := by
  unfold Row.Lacks lacksValue
  cases row.get? field with
  | none => simp
  | some value => cases value <;> simp [Value.isNull]

/-- In either direction a missing value comes last. -/
theorem SortKey.orderRows_of_lacks (lacks : b.Lacks key.field) (holds : ¬ a.Lacks key.field) :
    key.orderRows a b = .lt := by
  rw [Row.lacks_iff] at lacks holds
  rw [Bool.not_eq_true] at holds
  unfold SortKey.orderRows
  rw [Direction.orderFields_eq_compareLex, compareLex, compareOn, lacks, holds]
  rfl

theorem orderRows_append_of_eq (ties : ∀ other ∈ front, other.orderRows a b = .eq) :
    orderRows (front ++ keys) a b = orderRows keys a b := by
  induction front with
  | nil => rfl
  | cons other front ih =>
    have tie := ties other List.mem_cons_self
    rw [List.cons_append, orderRows_cons, compareLex, tie]
    exact ih fun other mem => ties other (List.mem_cons_of_mem _ mem)

end Missing

section Sorted

variable {α : Type} {cmp : α → α → Ordering} [TransCmp cmp] {l l' : List α}

def tiesOf (cmp : α → α → Ordering) (a : α) (l : List α) : List α := l.filter fun b => cmp a b = .eq

/-- An ordered list is determined by its elements and by the order of those that tie. -/
theorem eq_of_tiesOf_eq (perm : l.Perm l') (ordered : l.Pairwise fun a b => (cmp a b).isLE)
    (ordered' : l'.Pairwise fun a b => (cmp a b).isLE)
    (ties : ∀ a, tiesOf cmp a l = tiesOf cmp a l') : l = l' := by
  induction l generalizing l' with
  | nil => exact perm.nil_eq
  | cons a rest ih =>
    cases l' with
    | nil => exact absurd perm.symm.nil_eq nofun
    | cons b rest' =>
      obtain ⟨first, sorted⟩ := List.pairwise_cons.mp ordered
      obtain ⟨first', sorted'⟩ := List.pairwise_cons.mp ordered'
      have below : (cmp a b).isLE := by
        rcases List.mem_cons.mp (perm.mem_iff.mpr List.mem_cons_self) with rfl | mem
        · exact ReflCmp.isLE_rfl
        · exact first b mem
      have above : (cmp b a).isLE := by
        rcases List.mem_cons.mp (perm.mem_iff.mp List.mem_cons_self) with rfl | mem
        · exact ReflCmp.isLE_rfl
        · exact first' a mem
      have tie : cmp a b = .eq := OrientedCmp.isLE_antisymm below above
      have heads := ties a
      rw [tiesOf, tiesOf, List.filter_cons_of_pos (by simp [ReflCmp.compare_self]),
        List.filter_cons_of_pos (by simp [tie])] at heads
      obtain rfl := (List.cons.inj heads).1
      have others : ∀ c, tiesOf cmp c rest = tiesOf cmp c rest' := by
        intro c
        have whole := ties c
        unfold tiesOf at whole ⊢
        by_cases near : cmp c a = .eq
        · rw [List.filter_cons_of_pos (by simp [near]),
            List.filter_cons_of_pos (by simp [near])] at whole
          exact (List.cons.inj whole).2
        · rwa [List.filter_cons_of_neg (by simp [near]),
            List.filter_cons_of_neg (by simp [near])] at whole
      rw [ih (List.Perm.cons_inv perm) sorted sorted' others]

theorem pairwise_tiesOf (a : α) (l : List α) :
    (tiesOf cmp a l).Pairwise fun b c => (cmp b c).isLE := by
  refine List.pairwise_of_forall_mem_list fun b memB c memC => ?_
  simp only [tiesOf, List.mem_filter, decide_eq_true_eq] at memB memC
  have tie : cmp b c = .eq := TransCmp.eq_trans (OrientedCmp.eq_symm memB.2) memC.2
  rw [tie]
  rfl

theorem isLE_or_isLE (cmp : α → α → Ordering) [TransCmp cmp] (a b : α) :
    (cmp a b).isLE ∨ (cmp b a).isLE := by
  cases order : cmp a b with
  | lt => exact .inl rfl
  | eq => exact .inl rfl
  | gt =>
    right
    rw [OrientedCmp.lt_of_gt order]
    rfl

/-- Merging keeps the order of the elements that tie. -/
theorem tiesOf_mergeSort (a : α) (l : List α) :
    tiesOf cmp a (l.mergeSort fun b c => (cmp b c).isLE) = tiesOf cmp a l := by
  have trans : ∀ b c d : α, (cmp b c).isLE → (cmp c d).isLE → (cmp b d).isLE :=
    fun _ _ _ => TransCmp.isLE_trans
  have total : ∀ b c : α, (cmp b c).isLE || (cmp c b).isLE :=
    fun b c => Bool.or_eq_true _ _ ▸ isLE_or_isLE cmp b c
  have inside : (tiesOf cmp a l).Sublist (l.mergeSort fun b c => (cmp b c).isLE) :=
    List.sublist_mergeSort trans total (pairwise_tiesOf a l) List.filter_sublist
  have again : (tiesOf cmp a l).Sublist (tiesOf cmp a (l.mergeSort fun b c => (cmp b c).isLE)) := by
    have kept := inside.filter fun b => decide (cmp a b = .eq)
    simpa only [tiesOf, List.filter_filter, Bool.and_self] using kept
  have length : (tiesOf cmp a (l.mergeSort fun b c => (cmp b c).isLE)).length =
      (tiesOf cmp a l).length := ((List.mergeSort_perm l _).filter _).length_eq
  exact (again.eq_of_length length.symm).symm

theorem pairwise_mergeSort_isLE (cmp : α → α → Ordering) [TransCmp cmp] (l : List α) :
    (l.mergeSort fun b c => (cmp b c).isLE).Pairwise fun b c => (cmp b c).isLE :=
  List.pairwise_mergeSort (fun _ _ _ => TransCmp.isLE_trans)
    (fun b c => Bool.or_eq_true _ _ ▸ isLE_or_isLE cmp b c) l

end Sorted

/-- Rows may be left out before sorting or after it. -/
theorem Table.sortBy_filter (keys : List SortKey) (p : Row → Bool) (table : Table) :
    Table.sortBy keys (table.filter p) = (table.sortBy keys).filter p := by
  have perm : (Table.sortBy keys (table.filter p)).Perm ((table.sortBy keys).filter p) :=
    (List.mergeSort_perm _ _).trans ((List.mergeSort_perm _ _).filter p).symm
  have ordered : ((table.sortBy keys).filter p).Pairwise fun a b => (orderRows keys a b).isLE :=
    (pairwise_mergeSort_isLE _ _).filter p
  refine eq_of_tiesOf_eq perm (pairwise_mergeSort_isLE (orderRows keys) _) ordered fun a => ?_
  have whole : tiesOf (orderRows keys) a (table.sortBy keys) = tiesOf (orderRows keys) a table :=
    tiesOf_mergeSort a table
  unfold tiesOf at whole
  calc tiesOf (orderRows keys) a (Table.sortBy keys (table.filter p))
    _ = tiesOf (orderRows keys) a (table.filter p) := tiesOf_mergeSort a _
    _ = (table.filter fun b => orderRows keys a b = .eq).filter p := List.filter_comm _ _ _
    _ = tiesOf (orderRows keys) a ((table.sortBy keys).filter p) := by
      rw [← whole, List.filter_comm, tiesOf]

/-- The order of rows is a total preorder for any keys, with a missing value last under each key
whatever its direction, and the sorted table is the only table with the rows of the input, each
before those it is ordered before, and with the rows that tie with any one row as the input has
them. -/
theorem Table.sortBy_unique (keys : List SortKey) :
    (∀ a, orderRows keys a a = .eq) ∧
      (∀ a b, orderRows keys b a = (orderRows keys a b).swap) ∧
      (∀ a b, (orderRows keys a b).isLE ∨ (orderRows keys b a).isLE) ∧
      (∀ a b c, (orderRows keys a b).isLE → (orderRows keys b c).isLE → (orderRows keys a c).isLE) ∧
      (∀ front key rest a b, keys = front ++ key :: rest →
        (∀ other ∈ front, SortKey.orderRows other a b = .eq) →
        Row.Lacks b key.field → ¬ Row.Lacks a key.field → orderRows keys a b = .lt) ∧
      ∀ table out : Table, out = table.sortBy keys ↔
        out.Perm table ∧ out.Pairwise (fun a b => (orderRows keys a b).isLE) ∧
          ∀ a, tiesOf (orderRows keys) a out = tiesOf (orderRows keys) a table := by
  refine ⟨fun a => ReflCmp.compare_self, fun a b => OrientedCmp.eq_swap, isLE_or_isLE _,
    fun a b c => TransCmp.isLE_trans, ?_, fun table out => ⟨?_, ?_⟩⟩
  · rintro front key rest a b rfl ties lacks holds
    rw [orderRows_append_of_eq ties, orderRows_cons, compareLex,
      SortKey.orderRows_of_lacks lacks holds]
    rfl
  · rintro rfl
    exact ⟨List.mergeSort_perm _ _, pairwise_mergeSort_isLE _ _, fun a => tiesOf_mergeSort a table⟩
  · rintro ⟨perm, ordered, ties⟩
    refine eq_of_tiesOf_eq (perm.trans (List.mergeSort_perm _ _).symm) ordered
      (pairwise_mergeSort_isLE _ _) fun a => ?_
    rw [ties a]
    exact (tiesOf_mergeSort a table).symm

/-- Of two rows that tie under an earlier key, the one with NaN is before the one with null. -/
theorem Table.nan_before_null :
    orderRows [⟨"team", .ascending⟩, ⟨"score", .descending⟩]
      (Row.ofCells [("team", .text "red"), ("score", .number .nan)])
      (Row.ofCells [("team", .text "red"), ("score", .null)]) = .lt := by
  obtain ⟨-, -, -, -, missingLast, -⟩ :=
    Table.sortBy_unique [⟨"team", .ascending⟩, ⟨"score", .descending⟩]
  refine missingLast [⟨"team", .ascending⟩] ⟨"score", .descending⟩ [] _ _ rfl ?_ (.inr rfl) ?_
  · intro other mem
    rw [List.mem_singleton.mp mem]
    rfl
  · rintro (absent | null)
    · cases absent
    · cases null

end TableQuery
