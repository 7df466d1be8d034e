import Mathlib
import TableQuery.Row

/-! Cells written one after another. A row holds the last value of each name, so the cells of a row
may be written in place of all the cells that it was made of. -/
namespace TableQuery

namespace Cells

variable {key other : String} {value old : Value} {cells : List (String × Value)}

theorem put_put : put key value (put key old cells) = put key value cells := by
  induction cells with
  | nil => simp [put]
  | cons cell rest ih =>
    by_cases same : cell.1 = key
    · simp [put, same]
    · simp [put, same, ih]

/-- A name that is there keeps its place, whatever is written under another one. -/
theorem put_comm (ne : key ≠ other) (member : key ∈ keys cells) :
    put key value (put other old cells) = put other old (put key value cells) := by
  induction cells with
  | nil => simp [keys] at member
  | cons cell rest ih =>
    by_cases same : cell.1 = key
    · have unlike : cell.1 ≠ other := by
        intro eq
        exact ne (same.symm.trans eq)
      simp [put, same, ne]
    · have inside : key ∈ keys rest := by
        rcases List.mem_cons.mp member with eq | inside
        · exact absurd eq.symm same
        · exact inside
      by_cases eq : cell.1 = other
      · simp [put, eq, ne.symm]
      · simp [put, same, eq, ih inside]

theorem put_of_notMem (fresh : key ∉ keys cells) :
    put key value cells = cells ++ [(key, value)] := by
  induction cells with
  | nil => rfl
  | cons cell rest ih =>
    simp only [keys, List.map_cons, List.mem_cons, not_or] at fresh
    rw [put, if_neg (Ne.symm fresh.1), ih fresh.2, List.cons_append]

end Cells

namespace Row

variable {row : Row} {key other : String} {value old : Value} {cells : List (String × Value)}

theorem insertAll_append (row : Row) (first rest : List (String × Value)) :
    row.insertAll (first ++ rest) = (row.insertAll first).insertAll rest := by
  unfold insertAll
  rw [List.foldl_append]

theorem insert_insert : (row.insert key old).insert key value = row.insert key value := by
  apply Row.ext
  exact Cells.put_put

theorem insert_comm (ne : key ≠ other) (member : key ∈ row.keys) :
    (row.insert other old).insert key value = (row.insert key value).insert other old := by
  apply Row.ext
  exact Cells.put_comm ne member

theorem mem_keys_insert (member : key ∈ row.keys) : key ∈ (row.insert other old).keys := by
  rw [keys_insert]
  split
  · exact member
  · exact List.mem_append_left _ member

theorem mem_keys_insert_self : key ∈ (row.insert key value).keys := by
  rw [keys_insert]
  split
  · assumption
  · simp

/-- A name that is there may be written before all the others. -/
theorem insertAll_insert (member : key ∈ row.keys) (fresh : key ∉ Cells.keys cells) :
    (row.insertAll cells).insert key value = (row.insert key value).insertAll cells := by
  induction cells generalizing row with
  | nil => rfl
  | cons cell rest ih =>
    simp only [Cells.keys, List.map_cons, List.mem_cons, not_or] at fresh
    calc ((row.insert cell.1 cell.2).insertAll rest).insert key value
      _ = ((row.insert cell.1 cell.2).insert key value).insertAll rest :=
        ih (mem_keys_insert member) fresh.2
      _ = ((row.insert key value).insert cell.1 cell.2).insertAll rest := by
        rw [insert_comm fresh.1 member]

theorem insertAll_put (distinct : (Cells.keys cells).Nodup) :
    row.insertAll (Cells.put key value cells) = (row.insertAll cells).insert key value := by
  induction cells generalizing row with
  | nil => rfl
  | cons cell rest ih =>
    simp only [Cells.keys, List.map_cons, List.nodup_cons] at distinct
    obtain ⟨fresh, distinct⟩ := distinct
    by_cases same : cell.1 = key
    · subst same
      have first : Cells.put cell.1 value (cell :: rest) = (cell.1, value) :: rest := by
        simp [Cells.put]
      calc row.insertAll (Cells.put cell.1 value (cell :: rest))
        _ = (row.insert cell.1 value).insertAll rest := by rw [first]; rfl
        _ = ((row.insert cell.1 cell.2).insert cell.1 value).insertAll rest := by rw [insert_insert]
        _ = ((row.insert cell.1 cell.2).insertAll rest).insert cell.1 value :=
          (insertAll_insert mem_keys_insert_self fresh).symm
    · have later : Cells.put key value (cell :: rest) = cell :: Cells.put key value rest := by
        simp [Cells.put, same]
      rw [later]
      exact ih distinct

theorem ofCells_append (first rest : List (String × Value)) :
    ofCells (first ++ rest) = (ofCells first).insertAll rest := insertAll_append empty first rest

/-- Writing the cells of a row is writing all the cells that it was made of. -/
theorem insertAll_ofCells (row : Row) (cells : List (String × Value)) :
    row.insertAll (ofCells cells).cells = row.insertAll cells := by
  induction cells using List.reverseRecOn with
  | nil => rfl
  | append_singleton cells cell ih =>
    have last : ofCells (cells ++ [cell]) = (ofCells cells).insert cell.1 cell.2 :=
      ofCells_append cells [cell]
    calc row.insertAll (ofCells (cells ++ [cell])).cells
      _ = row.insertAll (Cells.put cell.1 cell.2 (ofCells cells).cells) := by rw [last]; rfl
      _ = (row.insertAll (ofCells cells).cells).insert cell.1 cell.2 :=
        insertAll_put (ofCells cells).distinct
      _ = row.insertAll (cells ++ [cell]) := by rw [ih, insertAll_append]; rfl

theorem cells_insertAll_of_nodup (distinct : (Cells.keys (row.cells ++ cells)).Nodup) :
    (row.insertAll cells).cells = row.cells ++ cells := by
  induction cells generalizing row with
  | nil => exact (List.append_nil row.cells).symm
  | cons cell rest ih =>
    have fresh : cell.1 ∉ Cells.keys row.cells := by
      intro member
      rw [Cells.keys, List.map_append, List.nodup_append] at distinct
      exact distinct.2.2 _ member _ List.mem_cons_self rfl
    have added : (row.insert cell.1 cell.2).cells = row.cells ++ [cell] := Cells.put_of_notMem fresh
    have distinct' : (Cells.keys ((row.insert cell.1 cell.2).cells ++ rest)).Nodup := by
      rwa [added, ← List.append_cons]
    rw [List.append_cons, ← added]
    exact ih distinct'

/-- Cells under distinct names are the row that they make. -/
theorem cells_ofCells_of_nodup (distinct : (Cells.keys cells).Nodup) :
    (ofCells cells).cells = cells :=
  cells_insertAll_of_nodup distinct

end Row
end TableQuery
