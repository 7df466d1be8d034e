import TableQuery.Proofs.Statement.Printing
import TableQuery.Proofs.Statement.QueryOrigin

/-! Reading and printing are inverse to each other. A well-formed query is read from each of its
texts, the printed one among them, and a text is read only as a well-formed query that it is a text
of. -/
namespace TableQuery

section Checks

/-- A query whose names look like keywords and whose literals look like anything. -/
def quarrelsome : Query := {
  fields := ["from", "COUNT(*)", "f((where,1;2))"]
  aggregates := [⟨.count, none, "COUNT(*)"⟩]
  table := "where"
  join := some ⟨"left", "on", "join", "limit"⟩
  conditions := [⟨"and", "=", "=<3"⟩, ⟨"x", "<>", "'it said \"and\"; '"⟩, ⟨"y,z", "!", "order"⟩]
  groupBy := some ["by", "group"]
  orderBy := some [⟨"asc", .descending⟩, ⟨"desc", .ascending⟩]
  limit := some 18446744073709551615 }

theorem wellFormed_quarrelsome : quarrelsome.WellFormed where
  someField := by decide
  fields := by decide
  table := by decide
  join := by
    intro join mem
    obtain rfl : _ = join := by simpa [quarrelsome] using mem
    exact ⟨by decide, by decide, by decide, by decide, by decide⟩
  conditions := by
    intro condition mem
    simp only [quarrelsome, List.mem_cons, List.not_mem_nil, or_false] at mem
    obtain rfl | rfl | rfl := mem
    · exact ⟨by decide, by decide, .inr (by decide)⟩
    · exact ⟨by decide, by decide, .inl ⟨'\'', "it said \"and\"; ".toList, by decide⟩⟩
    · exact ⟨by decide, by decide, .inr (by decide)⟩
  someGrouping := by decide
  grouping := by decide
  someOrdering := by decide
  ordering := by decide
  limit := by decide
  aggregates := by decide
  wholeTable := by decide

def loose : Query := {
  fields := ["a", "count(b)"]
  aggregates := [⟨.count, some "b", "count(b)"⟩]
  table := "t"
  join := some ⟨"INNER", "u", "x", "y"⟩
  conditions := [⟨"p", ">=", "'q r'"⟩, ⟨"z", "!=", "3"⟩]
  wholeTable := true
  limit := some 7 }

end Checks

/-- The query that a text asks for is the well-formed one that it is a text of. -/
theorem Query.parse_eq_ok_iff {text : String} {query : Query} :
    Query.parse text = .ok query ↔ query.WellFormed ∧ text.toList ∈ query.texts := by
  constructor
  · intro parsed
    unfold Query.parse Reader.read at parsed
    split at parsed
    · rename_i found last ran
      cases parsed
      exact Reader.readQuery_done ran
    · cases parsed
  · rintro ⟨wf, mem⟩
    exact parse_of_mem_texts wf mem

theorem Query.parse_statement {query : Query} (wf : query.WellFormed) :
    Query.parse query.statement = .ok query :=
  parse_eq_ok_iff.mpr ⟨wf, statement_mem_texts wf⟩

/-- A well-formed query is read back from its printed statement, and from every other text of it. -/
theorem Query.parse_undoes_printing {query : Query} (wf : query.WellFormed) :
    Query.parse query.statement = .ok query ∧
      ∀ text : String, text.toList ∈ query.texts → Query.parse text = .ok query := by
  constructor
  · exact parse_statement wf
  · intro text mem
    exact parse_eq_ok_iff.mpr ⟨wf, mem⟩

theorem Query.parse_quarrelsome :
    quarrelsome.WellFormed ∧
      quarrelsome.statement =
        "SELECT from, COUNT(*), f((where,1;2)) FROM where left JOIN on ON join = limit " ++
          "WHERE and = =<3 AND x <> 'it said \"and\"; ' AND y,z ! order GROUP BY by, group " ++
          "ORDER BY asc DESC, desc ASC LIMIT 18446744073709551615" ∧
      Query.parse quarrelsome.statement = .ok quarrelsome :=
  ⟨wellFormed_quarrelsome, by decide +kernel, (Query.parse_undoes_printing wellFormed_quarrelsome).1⟩

/-- Whatever is read comes out well formed, as a query that the text is one of the texts of and that
its printed statement gives again. -/
theorem Query.parsed_is_printable {text : String} {query : Query}
    (parsed : Query.parse text = .ok query) :
    query.WellFormed ∧ text.toList ∈ query.texts ∧ Query.parse query.statement = .ok query := by
  obtain ⟨wf, mem⟩ := parse_eq_ok_iff.mp parsed
  exact ⟨wf, mem, parse_statement wf⟩

theorem Query.printable_of_loose_text :
    Query.parse " select a , count( b )\tfrom t join u on x=y where p>='q r'and z != 3 limit +07 ; " =
        .ok loose ∧
      loose.WellFormed ∧ Query.parse loose.statement = .ok loose := by
  have parsed : Query.parse
      " select a , count( b )\tfrom t join u on x=y where p>='q r'and z != 3 limit +07 ; " =
        .ok loose := by decide +kernel
  have printable := Query.parsed_is_printable parsed
  exact ⟨parsed, printable.1, printable.2.2⟩

end TableQuery
