import TableQuery.Row

/-! The fields of a result. -/
namespace TableQuery

namespace Row

/-- The fields asked for, by their whole names, null where the row has none; a star stands for
every field of the row. -/
def project (fields : List String) (row : Row) : Row :=
  ofCells (fields.flatMap fun field =>
    if field = "*" then row.cells else [(field, row.getOrNull field)])

end Row

def Table.project (fields : List String) (table : Table) : Table := table.map (Row.project fields)

end TableQuery
