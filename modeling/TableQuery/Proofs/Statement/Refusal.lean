import TableQuery.Proofs.Statement.QueryAcceptance

/-! Statements that are refused. A word that leads to no clause fails the clause before it, so
whichever clauses stand before, the whole statement fails. -/
namespace TableQuery

/-- A later clause that the reading does not come to. A word begins it, but it is neither `AND` nor
a keyword that leads on. -/
structure Place.Blocked (place : Place) (phase : Phase) : Prop where
  unfinished : place.phase ≠ .done
  later : phase < place.phase
  letter : ∀ t ∈ place.texts, ∃ c u, t = c :: u ∧ isWordChar c
  unled : ∀ t ∈ place.texts, phase.following? t = none
  unjoined : ∀ t ∈ place.texts, Keyword.and.isFront t = false

/-- A place that either comes after a clause or cannot be read there. -/
def Place.Next (place : Place) (phase : Phase) : Prop := place.After phase ∨ place.Blocked phase

namespace Place.Next

variable {phase : Phase} {place : Place}

theorem of_eq_or_after {earlier : Place} (next : place.Next phase)
    (or_after : earlier = place ∨ earlier.After phase) : earlier.Next phase := by
  rcases or_after with rfl | after
  · exact next
  · exact .inl after

theorem ofGrouping (next : place.Next phase) (later : phase < .grouping)
    (fields : Option (List String)) : (Place.ofGrouping place fields).Next phase :=
  next.of_eq_or_after (place.ofGrouping_eq_or_after later fields)

theorem ofConditions (next : place.Next phase) (later : phase < .conditions)
    (conditions : List Condition) : (Place.ofConditions place conditions).Next phase :=
  next.of_eq_or_after (place.ofConditions_eq_or_after later conditions)

theorem ofJoin (next : place.Next .table) {join : Option Join} (wf : ∀ j ∈ join, j.WellFormed) :
    (Place.ofJoin place join).Next .table :=
  next.of_eq_or_after (place.ofJoin_eq_or_after wf)

end Place.Next

namespace Reader

variable {α β : Type}

/-- From every cursor at a place a reader fails. -/
def Refuses (reader : Reader α) (here : Place) : Prop :=
  ∀ c : Cursor, c.At here → ∃ error d, reader.run c = .failed error d

section Steps

variable {here mid : Place}

theorem refuses_fail (problem : SyntaxProblem) (here : Place) :
    (fail problem : Reader α).Refuses here :=
  fun c _ => ⟨_, c, rfl⟩

theorem Refuses.bind {first : Reader α} (refuses : first.Refuses here) (next : α → Reader β) :
    (first >>= next).Refuses here := by
  intro c at_
  obtain ⟨error, d, ran⟩ := refuses c at_
  exact ⟨error, d, by rw [run_bind, ran]⟩

theorem Refuses.of_subset {reader : Reader α} {phase : Phase} {L M : Language Char}
    (refuses : reader.Refuses ⟨phase, M⟩) (sub : ∀ t ∈ L, t ∈ M) : reader.Refuses ⟨phase, L⟩ :=
  fun c at_ => refuses c ⟨at_.1, sub _ at_.2⟩

theorem Takes.refuses {first : Reader α} {next : α → Reader β} {a : α}
    (head : first.Takes here a mid) (tail : (next a).Refuses mid) :
    (first >>= next).Refuses here := by
  intro c at_
  obtain ⟨d, ran, at_⟩ := head c at_
  obtain ⟨error, e, ran'⟩ := tail d at_
  exact ⟨error, e, by rw [run_bind, ran]; exact ran'⟩

theorem GoesOn.refuses {reader later : Reader α} (goes : reader.GoesOn here later mid)
    (refuses : later.Refuses mid) : reader.Refuses here := by
  intro c at_
  obtain ⟨d, same, at_⟩ := goes c at_
  obtain ⟨error, e, ran⟩ := refuses d at_
  exact ⟨error, e, same.trans ran⟩

theorem refuses_expect {keyword : Keyword} {phase : Phase} {L : Language Char}
    (problem : SyntaxProblem) (other : ∀ t ∈ L, keyword.isFront t = false) :
    (expect keyword problem).Refuses ⟨phase, L⟩ :=
  (takes_accept_false other).refuses (refuses_fail problem _)

end Steps

section Blocked

variable {phase : Phase} {place : Place}

theorem refuses_endClause (problem : SyntaxProblem) (loose : Bool) (blocked : place.Blocked phase) :
    (endClause problem).Refuses ⟨phase, place.lead loose⟩ := by
  rw [Place.lead_clause blocked.unfinished]
  exact (takes_nextClause_none loose blocked.letter blocked.unled).refuses (refuses_fail problem _)

theorem refuses_finishing (problem : SyntaxProblem) (value : α) (loose : Bool)
    (blocked : place.Blocked phase) :
    (finishing problem value).Refuses ⟨phase, place.lead loose⟩ :=
  (refuses_endClause problem loose blocked).bind _

theorem refuses_commaOrNext (problem : SyntaxProblem) (blocked : place.Blocked phase) :
    (commaOrNext problem).Refuses ⟨phase, place.lead true⟩ := by
  have first : Begins isWordChar place.texts := by
    intro t mem c head
    obtain ⟨d, u, rfl, letter⟩ := blocked.letter t mem
    obtain rfl : d = c := by simpa using head
    exact letter
  have unblank : ∀ t ∈ place.texts, ∀ c ∈ t.head?, isBlank c = false := fun t mem c head =>
    not_isBlank_of_isWordChar (first t mem c head)
  have other : ∀ t ∈ place.texts, t.head? ≠ some ',' := fun t mem comma =>
    absurd (first t mem ',' comma) (by decide)
  have ends : (endClause problem).Refuses ⟨phase, place.texts⟩ := by
    refine (refuses_endClause problem true blocked).of_subset fun t mem => ?_
    rw [Place.lead_clause blocked.unfinished]
    exact ⟨[], nil_mem_blanks, t, mem, rfl⟩
  rw [Place.lead_clause blocked.unfinished]
  exact (takes_skipBlanks unblank).refuses ((takes_acceptChar_false other).refuses (ends.bind _))

theorem refuses_nextOrAnd (loose : Bool) (blocked : place.Blocked phase) :
    nextOrAnd.Refuses ⟨phase, place.lead loose⟩ := by
  rw [Place.lead_clause blocked.unfinished]
  exact (takes_nextClause_none loose blocked.letter blocked.unled).refuses
    ((refuses_expect _ blocked.unjoined).bind _)

theorem refuses_listAfter {item : Reader α} {more : Reader Bool} {advances : more.Advances}
    {read : List α} {here : Place} (refuses : more.Refuses here) :
    (listAfter item more advances read).Refuses here :=
  refuses.bind _

end Blocked

section Clauses

variable {place : Place} {rest : Query → Reader Query}

theorem refuses_now {clause : Phase} {L : Language Char} {known : Query}
    (refuses : (addClause known clause).Refuses ⟨clause, L⟩) (rest : Query → Reader Query) :
    (readClause known clause >>= rest).Refuses ⟨clause, L⟩ := by
  refine Refuses.bind (fun c at_ => ?_) rest
  rw [run_readClause, if_pos at_.1]
  exact refuses c at_

/-- A clause that stands now is read or fails. In either case the reading fails when it fails
afterwards. -/
theorem refuses_present {clause : Phase} {L : Language Char} {known : Query} {there : Place}
    (reads : (∃ result, (addClause known clause).Takes ⟨clause, L⟩ result there) ∨
      (addClause known clause).Refuses ⟨clause, L⟩)
    (refuses : ∀ known, (rest known).Refuses there) :
    (readClause known clause >>= rest).Refuses ⟨clause, L⟩ := by
  rcases reads with ⟨result, takes⟩ | fails
  · exact (takes_present takes).refuses (refuses result)
  · exact refuses_now fails rest

theorem refuses_absent (clause : Phase) (readable : clause ≠ .done) (next : place.Next clause)
    (refuses : ∀ known, (rest known).Refuses place) (known : Query) :
    (readClause known clause >>= rest).Refuses place := by
  rcases next with after | blocked
  · exact (takes_absent known readable after).refuses (refuses known)
  · have passed : (readClause known clause).Takes place known place := by
      intro c at_
      have other : c.phase ≠ clause := by
        rw [at_.1]
        intro same
        exact absurd (same ▸ blocked.later) (Nat.lt_irrefl _)
      exact ⟨c, by rw [run_readClause, if_neg other], at_⟩
    exact passed.refuses (refuses known)

/-- A clause that stands now is read to its end or fails, as the place after it can be read or not.
In either case the reading fails. -/
theorem refuses_read {reader : Reader α} {into : α → Query} {x : α} {clause : Phase}
    {L : Language Char} {known : Query}
    (adds : addClause known clause = reader >>= fun x => pure (into x)) (next : place.Next clause)
    (takes : place.After clause → reader.Takes ⟨clause, L⟩ x place)
    (fails : place.Blocked clause → reader.Refuses ⟨clause, L⟩)
    (refuses : ∀ known, (rest known).Refuses place) :
    (readClause known clause >>= rest).Refuses ⟨clause, L⟩ := by
  refine refuses_present ?_ refuses
  rw [adds]
  rcases next with after | blocked
  · exact .inl ⟨_, (takes after).bind (Takes.pure _ _)⟩
  · exact .inr ((fails blocked).bind _)

theorem refuses_tableClause {table : String} (wf : IsWord table) (next : place.Next .table)
    (refuses : ∀ known, (rest known).Refuses place) (known : Query) :
    (readClause known .table >>= rest).Refuses (.ofTable place table) := by
  refine refuses_read rfl next (takes_table wf) ?_ refuses
  exact fun blocked => (goesOn_table wf place).refuses (refuses_finishing _ _ _ blocked)

theorem refuses_joinClause {join : Option Join} (wf : ∀ j ∈ join, j.WellFormed)
    (next : place.Next .join) (refuses : ∀ known, (rest known).Refuses place) (known : Query) :
    (readClause known .join >>= rest).Refuses (.ofJoin place join) := by
  cases join with
  | none => exact refuses_absent .join (by decide) next refuses known
  | some join =>
    have wf := wf join rfl
    refine refuses_read rfl next (takes_join wf) ?_ refuses
    exact fun blocked => (goesOn_join wf place).refuses (refuses_finishing _ _ _ blocked)

theorem refuses_conditionsClause {conditions : List Condition}
    (wf : ∀ condition ∈ conditions, condition.WellFormed) (next : place.Next .conditions)
    (refuses : ∀ known, (rest known).Refuses place) (known : Query) :
    (readClause known .conditions >>= rest).Refuses (.ofConditions place conditions) := by
  by_cases none : conditions = []
  · rw [Place.ofConditions, if_pos none]
    exact refuses_absent .conditions (by decide) next refuses known
  · have takes (after : place.After .conditions) := takes_conditions none wf after
    have fails (blocked : place.Blocked .conditions) :=
      (goesOn_conditions none wf place).refuses (refuses_listAfter (refuses_nextOrAnd _ blocked))
    rw [Place.ofConditions, if_neg none] at takes fails ⊢
    exact refuses_read rfl next takes fails refuses

theorem refuses_groupingClause {fields : Option (List String)} (nonempty : fields ≠ some [])
    (wf : ∀ names ∈ fields, ∀ name ∈ names, IsWord name) (next : place.Next .grouping)
    (refuses : ∀ known, (rest known).Refuses place) (known : Query) :
    (readClause known .grouping >>= rest).Refuses (.ofGrouping place fields) := by
  cases fields with
  | none => exact refuses_absent .grouping (by decide) next refuses known
  | some names =>
    have full : names ≠ [] := fun empty => nonempty (congrArg some empty)
    have wf := wf names rfl
    refine refuses_read rfl next (takes_grouping full wf) ?_ refuses
    exact fun blocked => (goesOn_grouping full wf place).refuses
      (refuses_listAfter (refuses_commaOrNext _ blocked))

end Clauses
end Reader

namespace Query

variable {query : Query}

def fieldsBefore (query : Query) (place : Place) : Place :=
  ⟨.fields, gap * (commaList (query.fields.map itemTexts) * place.lead false)⟩

def textsOn (query : Query) (place : Place) : Language Char :=
  blanks * (Keyword.select.spellings * (query.fieldsBefore place).texts)

theorem texts_eq (query : Query) : query.texts = query.textsOn query.tablePlace := rfl

def conditionsBefore (query : Query) (place : Place) : Place :=
  .ofTable (.ofJoin (.ofConditions place query.conditions) query.join) query.table

end Query

namespace Reader

variable {query : Query}

/-- When the clauses after the conditions cannot be read, the statement cannot. -/
theorem refuses_query {place : Place} (wf : query.WellFormed)
    (next : ∀ phase, phase < .grouping → place.Next phase)
    (refuses : ∀ known, ([.grouping, .ordering, .limit].foldlM readClause known).Refuses place) :
    readQuery.Refuses ⟨.fields, query.textsOn (query.conditionsBefore place)⟩ := by
  have table : ∀ known, ([.table, .join, .conditions, .grouping, .ordering, .limit].foldlM
      readClause known).Refuses (query.conditionsBefore place) := by
    have beforeJoin := (next .join (by decide)).ofConditions (by decide) query.conditions
    have beforeTable := ((next .table (by decide)).ofConditions (by decide) query.conditions).ofJoin
      wf.join
    exact refuses_tableClause wf.table beforeTable <| refuses_joinClause wf.join beforeJoin <|
      refuses_conditionsClause wf.conditions (next .conditions (by decide)) refuses
  have after : (query.conditionsBefore place).After .fields := Place.after_ofTable query.table
  have clauses : (Phase.clauses.foldlM readClause {}).Refuses
      (query.fieldsBefore (query.conditionsBefore place)) := by
    refine refuses_present (.inl ⟨{ fields := query.fields }, ?_⟩) table
    refine (takes_fields wf.someField wf.fields after).bind ((takes_phase _).bind ?_)
    exact Takes.pure _ _
  exact (takes_skipBlanks (Keyword.unblank_of_mem rfl rfl)).refuses <|
    (takes_expect Keyword.plain_select _).refuses <|
    (takes_enter .fields _).refuses (clauses.bind _)

end Reader
end TableQuery
