import TableQuery.Execution
import TableQuery.Json
import TableQuery.Statement.Select
import TableQuery.Storage.Source

/-! Statements run against a source of tables. -/
namespace TableQuery

inductive QueryError where
  | notUnderstood (cause : SyntaxError)
  | noTable (cause : StorageError)
  | notExecutable (cause : ExecutionError)
deriving DecidableEq, Repr

def QueryError.message (e : QueryError) : String :=
  "Error executing query: " ++
    match e with
    | notUnderstood cause => cause.message
    | noTable cause => cause.message
    | notExecutable cause => cause.message

/-- A source of tables with a way to read statements. -/
structure Engine where
  source : TableSource
  parse : String → Except SyntaxError Query := Query.parse

namespace Engine

/-- The result of a statement. It is read first, then its main table, then its joined one. -/
def run (engine : Engine) (statement : String) : Except QueryError Table := do
  let query ← (engine.parse statement).mapError .notUnderstood
  let main ← (engine.source query.table).mapError .noTable
  let joined ← query.join.mapM fun join => (engine.source join.table).mapError .noTable
  (query.execute main joined).mapError .notExecutable

def runJson (engine : Engine) (statement : String) : Except QueryError String :=
  (engine.run statement).map Table.json

end TableQuery.Engine
