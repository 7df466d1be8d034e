import TableQuery.Storage.Source

/-! Tables kept in memory. Catalogs are reached by handles, and a copy of a handle shares the
catalog with it. -/
namespace TableQuery

structure Catalog where
  tables : List (String × Table) := []

namespace Catalog

def empty : Catalog := {}

/-- Adds a table, or replaces the one of that name. -/
def insert (catalog : Catalog) (name : String) (table : Table) : Catalog :=
  ⟨(name, table) :: catalog.tables.filter fun entry => entry.1 != name⟩

def names (catalog : Catalog) : List String :=
  (catalog.tables.map Prod.fst).mergeSort fun a b => (compare a b).isLE

def source (catalog : Catalog) : TableSource := fun name =>
  match catalog.tables.lookup name with
  | some table => .ok table
  | none => .error (.notFound name)

end Catalog

/-- Catalogs, and the handles that lead to them. Both are known by their numbers. -/
structure Handles where
  catalogs : List Catalog := []
  owners : List Nat := []

namespace Handles

/-- A new handle on an empty catalog; its number is the count of handles before. -/
def create (handles : Handles) : Handles :=
  ⟨handles.catalogs ++ [.empty], handles.owners ++ [handles.catalogs.length]⟩

def owner (handles : Handles) (handle : Nat) : Nat := (handles.owners[handle]?).getD 0

def share (handles : Handles) (handle : Nat) : Handles :=
  { handles with owners := handles.owners ++ [handles.owner handle] }

def catalog (handles : Handles) (handle : Nat) : Catalog :=
  (handles.catalogs[handles.owner handle]?).getD .empty

/-- Adds a table for every handle on the same catalog. -/
def insert (handles : Handles) (handle : Nat) (name : String) (table : Table) : Handles :=
  { handles with
    catalogs := handles.catalogs.modify (handles.owner handle) fun catalog =>
      catalog.insert name table }

end TableQuery.Handles
