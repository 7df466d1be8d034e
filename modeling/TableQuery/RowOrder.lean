import TableQuery.Query.Basic
import TableQuery.Row

/-! The order of rows: by raw values under a list of keys, rows without a value last. -/
namespace TableQuery

/-- The order of values: numbers, then text, then null. Text that holds digits is still text. -/
def Value.order : Value → Value → Ordering
  | .number x, .number y => x.order y
  | .text s, .text t => compare s t
  | .null, .null => .eq
  | .number _, _ => .lt
  | _, .number _ => .gt
  | .text _, .null => .lt
  | .null, .text _ => .gt

/-- The order of a comparison, turned round when descending. -/
def Direction.apply : Direction → Ordering → Ordering
  | ascending, order => order
  | descending, order => order.swap

/-- The order of two fields. A null or absent one comes last in both directions. -/
def Direction.orderFields (direction : Direction) (a b : Option Value) : Ordering :=
  match a.filter (!·.isNull), b.filter (!·.isNull) with
  | none, none => .eq
  | none, some _ => .gt
  | some _, none => .lt
  | some x, some y => direction.apply (x.order y)

def SortKey.orderRows (key : SortKey) (a b : Row) : Ordering :=
  key.direction.orderFields (a.get? key.field) (b.get? key.field)

/-- The order of two rows: the first key that tells them apart decides. -/
def orderRows (keys : List SortKey) (a b : Row) : Ordering :=
  keys.foldr (fun key rest => (key.orderRows a b).then rest) .eq

namespace Table

/-- The rows sorted by a list of keys; rows that tie keep their order. -/
def sortBy (keys : List SortKey) (table : Table) : Table :=
  table.mergeSort fun a b => (orderRows keys a b).isLE

def limitTo (limit : Option Nat) (table : Table) : Table :=
  match limit with
  | some n => table.take n
  | none => table

end TableQuery.Table
