import TableQuery.Projection
import TableQuery.Proofs.Writing

/-! What fields show of a row: each name asked for once, where it first comes, with the value that
the row holds. Showing the same fields of what is shown changes nothing. -/
namespace TableQuery

namespace Row

variable {row : Row} {fields names : List String} {name : String}

section Written

variable {cells : List (String × Value)}

theorem get?_of_mem_cells {cell : String × Value} (mem : cell ∈ row.cells) :
    row.get? cell.1 = some cell.2 := by
  obtain ⟨cells, distinct⟩ := row
  change cells.lookup cell.1 = some cell.2
  induction cells with
  | nil => cases mem
  | cons first rest ih =>
    obtain ⟨fresh, distinct⟩ := List.nodup_cons.mp distinct
    rcases List.mem_cons.mp mem with rfl | mem
    · exact List.lookup_cons_self
    · have other : cell.1 ≠ first.1 := by
        intro same
        exact fresh (same ▸ List.mem_map_of_mem mem)
      rw [List.lookup_cons, beq_eq_false_iff_ne.mpr other]
      exact ih distinct mem

/-- Writing what is there already changes nothing. -/
theorem insert_of_get? {value : Value} (held : row.get? name = some value) :
    row.insert name value = row := by
  obtain ⟨cells, distinct⟩ := row
  apply Row.ext
  change cells.lookup name = some value at held
  change Cells.put name value cells = cells
  clear distinct
  induction cells with
  | nil => cases held
  | cons first rest ih =>
    by_cases same : first.1 = name
    · subst same
      rw [List.lookup_cons_self] at held
      cases held
      exact if_pos rfl
    · rw [List.lookup_cons, beq_eq_false_iff_ne.mpr (Ne.symm same)] at held
      rw [Cells.put, if_neg same, ih held]

/-- Cells written one after another leave each name where it first comes. -/
theorem keys_ofCells (cells : List (String × Value)) :
    (ofCells cells).keys = (Cells.keys cells).eraseDups := by
  induction cells using List.reverseRecOn with
  | nil => rfl
  | append_singleton cells cell ih =>
    have last : (ofCells (cells ++ [cell])).keys =
        ((ofCells cells).insert cell.1 cell.2).keys := by rw [ofCells_append]; rfl
    have named : Cells.keys (cells ++ [cell]) = Cells.keys cells ++ [cell.1] := List.map_append
    rw [last, keys_insert, ih, named, List.eraseDups_append]
    split
    · rename_i old
      simp [List.removeAll, List.mem_eraseDups.mp old]
    · rename_i fresh
      rw [List.mem_eraseDups] at fresh
      simp [List.removeAll, fresh, List.eraseDups_cons]

end Written

section Asked

/-- The names that fields ask a row for, as often as they do. -/
def asked (row : Row) (fields : List String) : List String :=
  fields.flatMap fun field => if field = "*" then row.keys else [field]

/-- What a row holds under names, null where it has none. -/
def cellsAt (row : Row) (names : List String) : List (String × Value) :=
  names.map fun name => (name, row.getOrNull name)

theorem asked_append (row : Row) (first second : List String) :
    row.asked (first ++ second) = row.asked first ++ row.asked second := List.flatMap_append

theorem asked_of_starless (row : Row) (starless : "*" ∉ fields) : row.asked fields = fields := by
  induction fields with
  | nil => rfl
  | cons field rest ih =>
    simp only [List.mem_cons, not_or] at starless
    rw [asked, List.flatMap_cons, if_neg (Ne.symm starless.1)]
    exact congrArg (List.cons field) (ih starless.2)

theorem cellsAt_append (row : Row) (first second : List String) :
    row.cellsAt (first ++ second) = row.cellsAt first ++ row.cellsAt second := List.map_append

theorem keys_cellsAt (row : Row) (names : List String) :
    Cells.keys (row.cellsAt names) = names := by
  rw [cellsAt, Cells.keys, List.map_map]
  exact List.map_id names

theorem cellsAt_keys (row : Row) : row.cellsAt row.keys = row.cells := by
  rw [cellsAt, keys, Cells.keys, List.map_map]
  refine (List.map_congr_left fun cell mem => ?_).trans (List.map_id _)
  change (cell.1, row.getOrNull cell.1) = cell
  rw [getOrNull, get?_of_mem_cells mem]
  rfl

theorem lookup_cellsAt (mem : name ∈ names) :
    (row.cellsAt names).lookup name = some (row.getOrNull name) := by
  induction names with
  | nil => cases mem
  | cons first rest ih =>
    rw [cellsAt, List.map_cons, List.lookup_cons]
    by_cases same : name = first
    · simp [same]
    · rw [beq_eq_false_iff_ne.mpr same]
      exact ih ((List.mem_cons.mp mem).resolve_left same)

/-- Names whose values are there already may be written again. -/
theorem insertAll_cellsAt {out : Row}
    (held : ∀ name ∈ names, out.get? name = some (row.getOrNull name)) :
    out.insertAll (row.cellsAt names) = out := by
  induction names with
  | nil => rfl
  | cons name rest ih =>
    have first := insert_of_get? (held name List.mem_cons_self)
    calc out.insertAll (row.cellsAt (name :: rest))
      _ = (out.insert name (row.getOrNull name)).insertAll (row.cellsAt rest) := rfl
      _ = out.insertAll (row.cellsAt rest) := by rw [first]
      _ = out := ih fun other mem => held other (List.mem_cons_of_mem _ mem)

theorem get?_ofCells_cellsAt (mem : name ∈ names) :
    (ofCells (row.cellsAt names)).get? name = some (row.getOrNull name) := by
  rw [get?_ofCells, cellsAt, ← List.map_reverse]
  exact lookup_cellsAt (List.mem_reverse.mpr mem)

/-- A projection shows what the row holds under the names it is asked for. -/
theorem project_eq (fields : List String) (row : Row) :
    row.project fields = ofCells (row.cellsAt (row.asked fields)) := by
  rw [project, asked, cellsAt, List.map_flatMap]
  congr 2
  funext field
  split
  · exact row.cellsAt_keys.symm
  · rfl

theorem keys_project (fields : List String) (row : Row) :
    (row.project fields).keys = (row.asked fields).eraseDups := by
  rw [project_eq, keys_ofCells, keys_cellsAt]

theorem get?_project (mem : name ∈ row.asked fields) :
    (row.project fields).get? name = some (row.getOrNull name) := by
  rw [project_eq]
  exact get?_ofCells_cellsAt mem

end Asked

section Again

theorem mem_keys_project : name ∈ (row.project fields).keys ↔ name ∈ row.asked fields := by
  rw [keys_project, List.mem_eraseDups]

/-- What is shown asks for no name that it was not asked for. -/
theorem asked_project_subset : (row.project fields).asked fields ⊆ row.asked fields := by
  intro name mem
  obtain ⟨field, memF, mem⟩ := List.mem_flatMap.mp mem
  split at mem
  · exact mem_keys_project.mp mem
  · rename_i named
    refine List.mem_flatMap.mpr ⟨field, memF, ?_⟩
    rw [if_neg named]
    exact mem

theorem cellsAt_project (known : names ⊆ row.asked fields) :
    (row.project fields).cellsAt names = row.cellsAt names := by
  refine List.map_congr_left fun name mem => ?_
  rw [getOrNull, get?_project (known mem)]
  rfl

/-- Where a star stands, all that is shown is written again after the names before the star. These
are in place by then, and so is every name that comes later. -/
theorem project_project (fields : List String) (row : Row) :
    (row.project fields).project fields = row.project fields := by
  by_cases star : "*" ∈ fields
  · obtain ⟨front, back, parts, starless⟩ := List.eq_append_cons_of_mem star
    have asked_parts (out : Row) : out.asked fields = front ++ (out.keys ++ out.asked back) := by
      rw [parts, asked_append, asked_of_starless out starless]
      rfl
    generalize shape : row.project fields = shown
    have begun : shown.cellsAt front = row.cellsAt front := by
      rw [← shape, cellsAt_project]
      exact asked_parts row ▸ List.subset_append_left _ _
    have written : shown = ofCells (row.cellsAt front ++
        row.cellsAt (row.keys ++ row.asked back)) := by
      rw [← shape, project_eq, asked_parts, cellsAt_append]
    have rewritten : (ofCells (row.cellsAt front)).insertAll shown.cells = shown := by
      rw [written, insertAll_ofCells, insertAll_append,
        insertAll_cellsAt fun name mem => get?_ofCells_cellsAt mem, ofCells_append]
    have later : ∀ name ∈ shown.asked back, shown.get? name = some (shown.getOrNull name) := by
      intro name mem
      have known : name ∈ row.asked fields := by
        refine asked_project_subset ?_
        rw [shape, asked_parts]
        exact List.mem_append_right _ (List.mem_append_right _ mem)
      rw [getOrNull, ← shape, get?_project known]
      rfl
    calc shown.project fields
      _ = ofCells (shown.cellsAt front ++ (shown.cells ++ shown.cellsAt (shown.asked back))) := by
        rw [project_eq, asked_parts, cellsAt_append, cellsAt_append, cellsAt_keys]
      _ = shown.insertAll (shown.cellsAt (shown.asked back)) := by
        rw [ofCells_append, insertAll_append, begun, rewritten]
      _ = shown := insertAll_cellsAt later
  · rw [project_eq, cellsAt_project asked_project_subset, asked_of_starless _ star, project_eq,
      asked_of_starless _ star]

end Again

end Row

/-- Each row of a projection has the names asked for, each where it first comes and a star standing
for the names of the row, and holds what the row holds under them, null where that has nothing.
Projected once more on the same fields it stays as it is. -/
theorem Table.project_shows (fields : List String) (table : Table) :
    List.Forall₂ (fun row out => Row.keys out = (row.asked fields).eraseDups ∧
        ∀ name ∈ out.keys, out.get? name = some (row.getOrNull name)) table (table.project fields) ∧
      (table.project fields).project fields = table.project fields := by
  constructor
  · unfold project
    rw [List.forall₂_map_right_iff, List.forall₂_same]
    intro row _
    refine ⟨Row.keys_project fields row, fun name mem => ?_⟩
    exact Row.get?_project (Row.mem_keys_project.mp mem)
  · unfold project
    rw [List.map_map]
    exact List.map_congr_left fun row _ => Row.project_project fields row

example :
    ((Row.ofCells [("a", .text "1"), ("b", .text "2")]).project ["b", "*", "z", "b", "*"]).cells =
      [("b", .text "2"), ("a", .text "1"), ("z", .null)] := by decide

end TableQuery
