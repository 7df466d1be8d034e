import TableQuery.Storage.Config
import TableQuery.Storage.Source
import TableQuery.Text.Split

/-! Tables kept as delimited files, with the files given as a tree of paths and contents. -/
namespace TableQuery

inductive FileEntry where
  | file (content : List UInt8)
  | directory
deriving DecidableEq

/-- Files and directories by the parts of their paths, relative to where paths begin. A later entry
takes the place of an earlier one. -/
structure FileTree where
  entries : List (List String × FileEntry) := []

namespace FileTree

/-- The parts of a path; empty ones and single points say nothing. -/
def parts (path : String) : List String :=
  ((splitAll '/' path.toList).map String.ofList).filter fun part => part != "" && part != "."

def insert (tree : FileTree) (path : String) (entry : FileEntry) : FileTree :=
  ⟨(parts path, entry) :: tree.entries⟩

/-- What is at a place. The start, what is above it and what holds an entry are directories. -/
def at? (tree : FileTree) (place : List String) : Option FileEntry :=
  match tree.entries.lookup place with
  | some entry => some entry
  | none =>
    if place.all (· == "..") || tree.entries.any fun entry => place.isPrefixOf entry.1 then
      some .directory
    else none

/-- The place one step from another, where two points lead up. -/
def enter (place : List String) (part : String) : List String :=
  if part = ".." ∧ place ≠ [] ∧ place.getLast? ≠ some ".." then place.dropLast else place ++ [part]

/-- What is at the end of a path, every step of which must be a directory. -/
def walk (tree : FileTree) (place : List String) : List String → Except FileFault (Option FileEntry)
  | [] => .ok (tree.at? place)
  | part :: rest =>
    match tree.at? place with
    | some .directory => tree.walk (enter place part) rest
    | some (.file _) => .error .notDirectory
    | none => .ok none

/-- What is at a path; nothing is at an absolute one. -/
def find (tree : FileTree) (path : String) : Except FileFault (Option FileEntry) :=
  if path.toList.head? = some '/' then .ok none else tree.walk [] (parts path)

def source (tree : FileTree) (config : Config) : TableSource := fun table =>
  match tree.find (config.tablePath table) with
  | .ok (some (.file content)) => Csv.parseTable table config.delimiter content
  | .ok (some .directory) => .error (.unreadable table .isDirectory)
  | .ok none => .error (.notFound (config.tablePath table))
  | .error fault => .error (.unreadable table fault)

end TableQuery.FileTree
