import TableQuery.Storage.Csv

/-! Sources of tables. -/
namespace TableQuery

abbrev TableSource := String → Except StorageError Table

def Csv.parseTable (table : String) (delimiter : UInt8) (content : List UInt8) :
    Except StorageError Table :=
  (Csv.parse delimiter content).mapError (.malformed table)

end TableQuery
