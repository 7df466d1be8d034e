/-! Where delimited files are and how they are written. -/
namespace TableQuery

/-- A directory with one file for each table, the extension of the files, and the byte between
fields. -/
structure Config where
  directory : String := "."
  extension : String := "csv"
  delimiter : UInt8 := 0x2C
deriving DecidableEq, Repr, Inhabited

namespace Config

def inDirectory (directory : String) : Config := { directory }

def tabSeparated (directory : String) : Config :=
  { directory, extension := "tsv", delimiter := 0x09 }

/-- A file name put under a directory. An absolute name stands by itself, and a slash is added only
where the directory does not end in one. -/
def joinPath (directory file : String) : String :=
  if file.toList.head? = some '/' then file
  else if directory.isEmpty || directory.toList.getLast? = some '/' then directory ++ file
  else directory ++ "/" ++ file

def tablePath (config : Config) (table : String) : String :=
  joinPath config.directory (table ++ "." ++ config.extension)

end TableQuery.Config
