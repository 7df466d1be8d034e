import TableQuery.Proofs.RowOrder

/-! Sorting by several keys is sorting by one key after another, the last key first. Each sort keeps
the order of the rows that tie, so a key only tells apart what the keys before it do not. -/
namespace TableQuery
open Std

section Refining

variable {α : Type} {coarse fine : α → α → Ordering} {l : List α}

/-- A list that one order sorts and that another one sorts among ties is sorted by both in turn. -/
theorem pairwise_compareLex [TransCmp coarse] (ordered : l.Pairwise fun a b => (coarse a b).isLE)
    (ties : ∀ a, (tiesOf coarse a l).Pairwise fun b c => (fine b c).isLE) :
    l.Pairwise fun a b => (compareLex coarse fine a b).isLE := by
  induction l with
  | nil => exact .nil
  | cons a rest ih =>
    obtain ⟨first, sorted⟩ := List.pairwise_cons.mp ordered
    refine List.pairwise_cons.mpr ⟨fun b mem => ?_, ih sorted fun c => ?_⟩
    · have heads := ties a
      rw [tiesOf, List.filter_cons_of_pos (by simp [ReflCmp.compare_self])] at heads
      have among := (List.pairwise_cons.mp heads).1
      cases order : coarse a b with
      | lt => simp [compareLex, order]
      | eq =>
        have tied : b ∈ rest.filter fun c => coarse a c = .eq := by simp [mem, order]
        simpa [compareLex, order] using among b tied
      | gt => exact absurd (first b mem) (by simp [order])
    · exact (ties c).sublist ((List.sublist_cons_self a rest).filter _)

theorem tiesOf_compareLex (a : α) (l : List α) :
    tiesOf (compareLex coarse fine) a l = (tiesOf coarse a l).filter fun b => fine a b = .eq := by
  rw [tiesOf, tiesOf, List.filter_filter]
  refine List.filter_congr fun b _ => ?_
  rw [← Bool.decide_and]
  exact decide_eq_decide.mpr (compareLex_eq_eq.trans and_comm)

/-- Sorting by the finer order and then by the coarser one is sorting by both in turn. -/
theorem mergeSort_compareLex [TransCmp coarse] [TransCmp fine] (l : List α) :
    (l.mergeSort fun a b => (compareLex coarse fine a b).isLE) =
      (l.mergeSort fun a b => (fine a b).isLE).mergeSort fun a b => (coarse a b).isLE := by
  have perm := (List.mergeSort_perm (l.mergeSort fun a b => (fine a b).isLE)
    fun a b => (coarse a b).isLE).trans (List.mergeSort_perm l _)
  refine eq_of_tiesOf_eq ((List.mergeSort_perm l _).trans perm.symm)
    (pairwise_mergeSort_isLE (compareLex coarse fine) l)
    (pairwise_compareLex (pairwise_mergeSort_isLE coarse _) fun a => ?_) fun a => ?_
  · rw [tiesOf_mergeSort]
    exact (pairwise_mergeSort_isLE fine l).filter _
  · have finer : tiesOf fine a (l.mergeSort fun b c => (fine b c).isLE) = tiesOf fine a l :=
      tiesOf_mergeSort a l
    unfold tiesOf at finer
    calc tiesOf (compareLex coarse fine) a _
      _ = tiesOf (compareLex coarse fine) a l := tiesOf_mergeSort a l
      _ = (l.filter fun b => fine a b = .eq).filter fun b => coarse a b = .eq := by
        rw [tiesOf_compareLex, tiesOf, List.filter_comm]
      _ = tiesOf (compareLex coarse fine) a _ := by
        rw [tiesOf_compareLex, tiesOf_mergeSort, ← finer, tiesOf, List.filter_comm]

end Refining

section Keys

theorem orderRows_singleton (key : SortKey) : orderRows [key] = key.orderRows := by
  funext a b
  rw [orderRows_cons, compareLex]
  exact Ordering.then_eq

theorem orderRows_append (first second : List SortKey) :
    orderRows (first ++ second) = compareLex (orderRows first) (orderRows second) := by
  induction first with
  | nil => rfl
  | cons key rest ih =>
    rw [List.cons_append, orderRows_cons, orderRows_cons, ih]
    funext a b
    exact (Ordering.then_assoc _ _ _).symm

theorem Direction.orderFields_eq_eq_iff {direction : Direction} {x y : Option Value} :
    direction.orderFields x y = .eq ↔ Direction.ascending.orderFields x y = .eq := by
  cases direction with
  | ascending => rfl
  | descending =>
    rw [orderFields_eq_compareLex, orderFields_eq_compareLex, compareLex_eq_eq, compareLex_eq_eq]
    exact and_congr_right fun _ => Ordering.swap_eq_eq

/-- A field that stands among the keys already tells no more rows apart, in either direction. -/
theorem orderRows_again (front middle back : List SortKey) (key : SortKey) (direction : Direction) :
    orderRows (front ++ key :: (middle ++ ⟨key.field, direction⟩ :: back)) =
      orderRows (front ++ key :: (middle ++ back)) := by
  rw [orderRows_append, orderRows_append]
  congr 1
  funext a b
  rw [orderRows_cons, orderRows_cons, orderRows_append, orderRows_append, orderRows_cons]
  simp only [compareLex]
  cases order : key.orderRows a b with
  | lt => rfl
  | gt => rfl
  | eq =>
    have tie : SortKey.orderRows ⟨key.field, direction⟩ a b = .eq := by
      unfold SortKey.orderRows at order ⊢
      exact Direction.orderFields_eq_eq_iff.mpr (Direction.orderFields_eq_eq_iff.mp order)
    rw [tie]
    rfl

end Keys

namespace Table

theorem sortBy_nil (table : Table) : table.sortBy [] = table :=
  List.mergeSort_of_pairwise (List.pairwise_of_forall fun _ _ => rfl)

theorem sortBy_cons (key : SortKey) (keys : List SortKey) (table : Table) :
    table.sortBy (key :: keys) = (table.sortBy keys).sortBy [key] := by
  unfold sortBy
  rw [orderRows_cons, orderRows_singleton]
  exact mergeSort_compareLex table

theorem sortBy_eq_foldr (keys : List SortKey) (table : Table) :
    table.sortBy keys = keys.foldr (fun key sorted => Table.sortBy [key] sorted) table := by
  induction keys with
  | nil => exact sortBy_nil table
  | cons key rest ih => rw [sortBy_cons, ih, List.foldr_cons]

theorem sortBy_eq_self_iff {keys : List SortKey} {table : Table} :
    table.sortBy keys = table ↔ table.Pairwise fun a b => (orderRows keys a b).isLE := by
  constructor
  · intro same
    rw [← same]
    exact pairwise_mergeSort_isLE (orderRows keys) table
  · exact List.mergeSort_of_pairwise

/-- Sorting by keys is sorting by each of them alone, from the last to the first. A field that is
named again after its first key changes nothing, whatever its direction there, nor does sorting what
is sorted: a table stays as it is just when its rows are in order. -/
theorem sortBy_key_by_key (table : Table) :
    (∀ keys, table.sortBy keys = keys.foldr (fun key sorted => Table.sortBy [key] sorted) table) ∧
      (∀ front key middle direction back,
        table.sortBy (front ++ key :: (middle ++ ⟨key.field, direction⟩ :: back)) =
          table.sortBy (front ++ key :: (middle ++ back))) ∧
      ∀ keys, (table.sortBy keys).sortBy keys = table.sortBy keys ∧
        (table.sortBy keys = table ↔ table.Pairwise fun a b => (orderRows keys a b).isLE) := by
  refine ⟨fun keys => sortBy_eq_foldr keys table, ?_, fun keys => ⟨?_, sortBy_eq_self_iff⟩⟩
  · intro front key middle direction back
    unfold sortBy
    rw [orderRows_again]
  · exact sortBy_eq_self_iff.mpr (pairwise_mergeSort_isLE (orderRows keys) table)

end Table

end TableQuery
