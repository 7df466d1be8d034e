import TableQuery.Query.Basic

/-! The text of a query: its clauses in order, keywords in upper case, one blank between any two
words, every direction written out. -/
namespace TableQuery

def separated (mark : String) : List String → String
  | [] => ""
  | [text] => text
  | text :: rest => text ++ mark ++ separated mark rest

def Condition.text (condition : Condition) : String :=
  condition.field ++ " " ++ condition.operator ++ " " ++ condition.literal

def SortKey.text (key : SortKey) : String :=
  match key.direction with
  | .ascending => key.field ++ " ASC"
  | .descending => key.field ++ " DESC"

def Join.text (join : Join) : String :=
  join.kind ++ " JOIN " ++ join.table ++ " ON " ++ join.left ++ " = " ++ join.right

namespace Query

def joinText (query : Query) : String :=
  match query.join with
  | some join => " " ++ join.text
  | none => ""

def conditionsText (query : Query) : String :=
  match query.conditions with
  | [] => ""
  | conditions => " WHERE " ++ separated " AND " (conditions.map Condition.text)

def groupingText (query : Query) : String :=
  match query.groupBy with
  | some fields => " GROUP BY " ++ separated ", " fields
  | none => ""

def orderingText (query : Query) : String :=
  match query.orderBy with
  | some keys => " ORDER BY " ++ separated ", " (keys.map SortKey.text)
  | none => ""

def limitText (query : Query) : String :=
  match query.limit with
  | some n => " LIMIT " ++ String.ofList (Nat.toDigits 10 n)
  | none => ""

/-- The statement that asks for a query. Its aggregates are not written by themselves: they are
found again among its fields. -/
def statement (query : Query) : String :=
  "SELECT " ++ separated ", " query.fields ++ " FROM " ++ query.table ++ query.joinText ++
    query.conditionsText ++ query.groupingText ++ query.orderingText ++ query.limitText

end TableQuery.Query
