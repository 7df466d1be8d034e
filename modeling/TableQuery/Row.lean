import TableQuery.Value

/-! Rows of a table: values under distinct names, in the order the names first came. A name that
is absent is not the same as one that holds null. -/
namespace TableQuery

namespace Cells

def keys (cells : List (String × Value)) : List String := cells.map Prod.fst

/-- Writes a value under a name: in its place if the name is there, else at the end. -/
def put (key : String) (value : Value) : List (String × Value) → List (String × Value)
  | [] => [(key, value)]
  | cell :: rest => if cell.1 = key then (key, value) :: rest else cell :: put key value rest

theorem keys_put (key : String) (value : Value) (cells : List (String × Value)) :
    keys (put key value cells) = if key ∈ keys cells then keys cells else keys cells ++ [key] := by
  induction cells with
  | nil => simp [put, keys]
  | cons cell rest ih =>
    by_cases same : cell.1 = key
    · simp [put, same, keys]
    · unfold put
      rw [if_neg same]
      simp only [keys, List.map_cons, List.mem_cons] at ih ⊢
      rw [ih]
      by_cases member : key ∈ rest.map Prod.fst
      · simp [member]
      · simp [member, Ne.symm same]

theorem nodup_put {key : String} {value : Value} {cells : List (String × Value)}
    (distinct : (keys cells).Nodup) : (keys (put key value cells)).Nodup := by
  rw [keys_put]
  split
  · exact distinct
  · rename_i fresh
    rw [List.nodup_append]
    refine ⟨distinct, by simp, ?_⟩
    intro a ha b hb
    simp only [List.mem_singleton] at hb
    subst hb
    exact fun eq => fresh (eq ▸ ha)

theorem lookup_put (key other : String) (value : Value) (cells : List (String × Value)) :
    (put key value cells).lookup other =
      if other = key then some value else cells.lookup other := by
  induction cells with
  | nil =>
    by_cases asked : other = key <;>
      simp [put, List.lookup_cons, asked, beq_eq_false_iff_ne.mpr]
  | cons cell rest ih =>
    obtain ⟨name, old⟩ := cell
    by_cases same : name = key
    · subst same
      by_cases asked : other = name
      · simp [put, asked]
      · simp [put, List.lookup_cons, asked, beq_eq_false_iff_ne.mpr asked]
    · by_cases asked : other = name
      · subst asked
        simp [put, same]
      · simp [put, List.lookup_cons, same, beq_eq_false_iff_ne.mpr asked, ih]

end Cells

structure Row where
  cells : List (String × Value)
  distinct : (Cells.keys cells).Nodup
deriving DecidableEq

/-- Rows in source order. -/
abbrev Table := List Row

namespace Row

def empty : Row := ⟨[], .nil⟩

instance : Inhabited Row := ⟨empty⟩

@[ext] theorem ext {a b : Row} (same : a.cells = b.cells) : a = b := by
  cases a
  cases b
  simp_all

def get? (row : Row) (key : String) : Option Value := row.cells.lookup key

def contains (row : Row) (key : String) : Bool := (row.get? key).isSome

def keys (row : Row) : List String := Cells.keys row.cells

def size (row : Row) : Nat := row.cells.length

def insert (row : Row) (key : String) (value : Value) : Row :=
  ⟨Cells.put key value row.cells, Cells.nodup_put row.distinct⟩

def insertAll (row : Row) (cells : List (String × Value)) : Row :=
  cells.foldl (fun out cell => out.insert cell.1 cell.2) row

/-- The row of a list of cells; of repeated names the first place and the last value stay. -/
def ofCells (cells : List (String × Value)) : Row := empty.insertAll cells

def nullShaped (row : Row) : Row :=
  ⟨row.cells.map fun cell => (cell.1, .null), by
    have : Cells.keys (row.cells.map fun cell => (cell.1, Value.null)) = Cells.keys row.cells := by
      simp [Cells.keys]
    rw [this]
    exact row.distinct⟩

def getOrNull (row : Row) (key : String) : Value := (row.get? key).getD .null

/-- Equality without regard to the order of names. -/
def equals (a b : Row) : Bool :=
  a.size == b.size && a.cells.all fun cell => (b.get? cell.1).any cell.2.equals

@[simp] theorem get?_empty (key : String) : empty.get? key = none := rfl

theorem get?_insert (row : Row) (key other : String) (value : Value) :
    (row.insert key value).get? other = if other = key then some value else row.get? other :=
  Cells.lookup_put key other value row.cells

theorem get?_insertAll (row : Row) (cells : List (String × Value)) (key : String) :
    (row.insertAll cells).get? key = (cells.reverse.lookup key).or (row.get? key) := by
  induction cells generalizing row with
  | nil => rfl
  | cons cell rest ih =>
    obtain ⟨name, value⟩ := cell
    rw [insertAll, List.foldl_cons]
    change ((row.insert name value).insertAll rest).get? key = _
    rw [ih, get?_insert, List.reverse_cons, List.lookup_append]
    by_cases same : key = name
    · subst same
      cases rest.reverse.lookup key <;> simp
    · cases rest.reverse.lookup key <;> simp [List.lookup_cons, same, beq_eq_false_iff_ne.mpr same]

/-- Of repeated names the last value stays. -/
theorem get?_ofCells (cells : List (String × Value)) (key : String) :
    (ofCells cells).get? key = cells.reverse.lookup key := by
  simp [ofCells, get?_insertAll]

theorem keys_insert (row : Row) (key : String) (value : Value) :
    (row.insert key value).keys = if key ∈ row.keys then row.keys else row.keys ++ [key] :=
  Cells.keys_put key value row.cells

end Row
end TableQuery
