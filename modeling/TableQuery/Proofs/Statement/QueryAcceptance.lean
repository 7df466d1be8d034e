import TableQuery.Proofs.Statement.ClauseAcceptance

/-! A statement is read clause by clause. What has been read so far and the place that is reached
go hand in hand, whichever clauses a query has. -/
namespace TableQuery

section Places

variable {phase : Phase} {next : Place}

theorem Place.after_of_clause {place : Place} (unfinished : place.phase ≠ .done)
    (follows : ∀ t ∈ place.texts, phase.following? t = some place.phase) : place.After phase := by
  rw [Place.After, if_neg unfinished]
  exact follows

theorem Place.after_ofLimit (later : phase < .limit) (limit : Option Nat) :
    (Place.ofLimit limit).After phase := by
  cases limit with
  | none => exact Reader.after_finish
  | some n => exact after_of_clause nofun fun t mem => following?_limit later mem

theorem Place.After.ofOrdering (after : next.After phase) (later : phase < .ordering)
    (keys : Option (List SortKey)) : (Place.ofOrdering next keys).After phase := by
  cases keys with
  | none => exact after
  | some keys => exact after_of_clause nofun fun t mem => following?_ordering later mem

/-- A clause that is left out leaves the place as it is. One that is there comes after the clauses
before it, whatever comes next. -/
theorem Place.ofGrouping_eq_or_after (next : Place) (later : phase < .grouping)
    (fields : Option (List String)) :
    ofGrouping next fields = next ∨ (ofGrouping next fields).After phase := by
  cases fields with
  | none => exact .inl rfl
  | some fields => exact .inr (after_of_clause nofun fun t mem => following?_grouping later mem)

theorem Place.ofConditions_eq_or_after (next : Place) (later : phase < .conditions)
    (conditions : List Condition) :
    ofConditions next conditions = next ∨ (ofConditions next conditions).After phase := by
  unfold ofConditions
  split
  · exact .inl rfl
  · exact .inr (after_of_clause nofun fun t mem => following?_conditions later mem)

theorem Place.ofJoin_eq_or_after (next : Place) {join : Option Join}
    (wf : ∀ j ∈ join, j.WellFormed) :
    ofJoin next join = next ∨ (ofJoin next join).After .table := by
  cases join with
  | none => exact .inl rfl
  | some join =>
    have wf := wf join rfl
    exact .inr (after_of_clause nofun fun t mem => following?_join wf.kind wf.unreserved mem)

theorem Place.after_ofTable (table : String) : (Place.ofTable next table).After .fields :=
  after_of_clause nofun fun _ mem => following?_table mem

end Places

namespace Query

variable {query : Query}

theorem after_limitPlace {phase : Phase} (later : phase < .limit) : query.limitPlace.After phase :=
  Place.after_ofLimit later query.limit

theorem after_orderingPlace {phase : Phase} (later : phase < .ordering) :
    query.orderingPlace.After phase :=
  (after_limitPlace (Nat.lt_trans later (by decide))).ofOrdering later query.orderBy

theorem after_groupingPlace {phase : Phase} (later : phase < .grouping) :
    query.groupingPlace.After phase := by
  rcases query.orderingPlace.ofGrouping_eq_or_after later query.groupBy with same | after
  · rw [groupingPlace, same]
    exact after_orderingPlace (Nat.lt_trans later (by decide))
  · exact after

theorem after_conditionsPlace {phase : Phase} (later : phase < .conditions) :
    query.conditionsPlace.After phase := by
  rcases query.groupingPlace.ofConditions_eq_or_after later query.conditions with same | after
  · rw [conditionsPlace, same]
    exact after_groupingPlace (Nat.lt_trans later (by decide))
  · exact after

theorem after_joinPlace (wf : query.WellFormed) : query.joinPlace.After .table := by
  rcases query.conditionsPlace.ofJoin_eq_or_after wf.join with same | after
  · rw [joinPlace, same]
    exact after_conditionsPlace (by decide)
  · exact after

theorem endsKey_limitPlace : Reader.EndsKey query.limitPlace.start := by
  have starts : ∀ t ∈ query.limitPlace.start, t = [] ∨ ∃ c u, t = c :: u ∧
      (c = ';' ∨ c.toUpper = 'L') := by
    rw [limitPlace]
    cases query.limit with
    | none =>
      rintro t (rfl | ⟨_, rfl, more, -, rfl⟩)
      · exact .inl rfl
      · exact .inr ⟨';', more, rfl, .inl rfl⟩
    | some n =>
      rintro t ⟨w, spelled, m, -, rfl⟩
      obtain ⟨c, v, rfl, upper⟩ := Keyword.exists_cons_of_spelled spelled rfl
      exact .inr ⟨c, v ++ m, rfl, .inr upper⟩
  have other {keyword : Keyword} {first : Char} {word : List Char}
      (shape : keyword.word = first :: word) (letter : first ≠ 'L' ∧ first ≠ Char.toUpper ';') :
      ∀ t ∈ query.limitPlace.start, keyword.isFront t = false := by
    intro t mem
    cases front : keyword.isFront t with
    | false => rfl
    | true =>
      obtain ⟨d, more, rfl, upper⟩ := Keyword.head_of_isFront front shape
      obtain empty | ⟨c, u, same, rfl | upperC⟩ := starts _ mem
      · cases empty
      · cases same
        exact absurd upper.symm letter.2
      · cases same
        exact absurd (upper.symm.trans upperC) letter.1
  refine ⟨?_, other rfl (by decide), other rfl (by decide)⟩
  intro t mem c head
  obtain rfl | ⟨d, u, rfl, rfl | upper⟩ := starts t mem
  · simp at head
  · obtain rfl : ';' = c := by simpa using head
    decide
  · obtain rfl : d = c := by simpa using head
    exact not_isBlank_of_isWordChar (isWordChar_of_isUpper_toUpper (by rw [upper]; rfl))

/-- What is known of a query before a clause is read. -/
def upTo (query : Query) : Phase → Query
  | .fields => {}
  | .table => { fields := query.fields }
  | .join => { fields := query.fields, table := query.table }
  | .conditions => { fields := query.fields, table := query.table, join := query.join }
  | .grouping =>
    { fields := query.fields, table := query.table, join := query.join,
      conditions := query.conditions }
  | .ordering =>
    { fields := query.fields, table := query.table, join := query.join,
      conditions := query.conditions, groupBy := query.groupBy }
  | .limit =>
    { fields := query.fields, table := query.table, join := query.join,
      conditions := query.conditions, groupBy := query.groupBy, orderBy := query.orderBy }
  | .done =>
    { fields := query.fields, table := query.table, join := query.join,
      conditions := query.conditions, groupBy := query.groupBy, orderBy := query.orderBy,
      limit := query.limit }

end Query

namespace Reader

variable {query : Query}

def addClause (known : Query) : Phase → Reader Query
  | .fields => do
    let fields ← readFields
    if (← Reader.phase) ≠ Phase.table then fail .expectedFrom
    return { known with fields }
  | .table => return { known with table := ← readTable }
  | .join => return { known with join := some (← readJoin) }
  | .conditions => return { known with conditions := ← readConditions }
  | .grouping => return { known with groupBy := some (← readGrouping) }
  | .ordering => return { known with orderBy := some (← readOrdering) }
  | .limit => return { known with limit := some (← readLimit) }
  | .done => return known

theorem run_readClause (known : Query) (clause : Phase) (c : Cursor) :
    (readClause known clause).run c =
      if c.phase = clause then (addClause known clause).run c else .done known c := by
  by_cases now : c.phase = clause
  · subst now
    rw [if_pos rfl, readClause.eq_def, run_bind]
    change (ite (c.phase ≠ c.phase) _ _ : Reader Query).run c = _
    rw [if_neg (not_not_intro rfl)]
    cases c.phase <;> rfl
  · rw [if_neg now, readClause.eq_def, run_bind]
    change (ite (c.phase ≠ clause) _ _ : Reader Query).run c = _
    rw [if_pos now]
    rfl

/-- A clause that does not come now is passed over. -/
theorem takes_absent {clause : Phase} {place : Place} (known : Query) (readable : clause ≠ .done)
    (after : place.After clause) : (readClause known clause).Takes place known place := by
  intro c at_
  have other : c.phase ≠ clause := by
    rw [at_.1]
    unfold Place.After at after
    split at after
    · rename_i finished
      rw [finished]
      exact readable.symm
    · rintro rfl
      exact absurd (follows_of_following? (after c.rest at_.2)).later (Nat.lt_irrefl _)
  exact ⟨c, by rw [run_readClause, if_neg other], at_⟩

theorem takes_present {clause : Phase} {L : Language Char} {known result : Query} {there : Place}
    (takes : (addClause known clause).Takes ⟨clause, L⟩ result there) :
    (readClause known clause).Takes ⟨clause, L⟩ result there := by
  intro c at_
  rw [run_readClause, if_pos at_.1]
  exact takes c at_

theorem takes_fieldsClause (wf : query.WellFormed) :
    (readClause (query.upTo .fields) .fields).Takes query.fieldsPlace (query.upTo .table)
      query.tablePlace := by
  refine takes_present ((takes_fields wf.someField wf.fields (Place.after_ofTable _)).bind ?_)
  refine (takes_phase _).bind ?_
  simp only [Place.ofTable, ne_eq, not_true_eq_false, if_false]
  exact Takes.pure _ _

theorem takes_tableClause (wf : query.WellFormed) :
    (readClause (query.upTo .table) .table).Takes query.tablePlace (query.upTo .join)
      query.joinPlace :=
  takes_present ((takes_table wf.table (Query.after_joinPlace wf)).bind (Takes.pure _ _))

/-- A clause that may be left out is read by its reader where it is there. -/
theorem takes_part {α : Type} {reader : Reader α} {clause : Phase} {next : Place} {part : Option α}
    (place : Option α → Place) (into : Option α → Query)
    (adds : addClause (into none) clause = reader >>= fun x => pure (into (some x)))
    (absent : place none = next) (phase : ∀ x ∈ part, (place (some x)).phase = clause)
    (readable : clause ≠ .done) (after : next.After clause)
    (takes : ∀ x ∈ part, reader.Takes (place (some x)) x next) :
    (readClause (into none) clause).Takes (place part) (into part) next := by
  cases part with
  | none =>
    rw [absent]
    exact takes_absent _ readable after
  | some x =>
    obtain rfl := phase x rfl
    refine takes_present ?_
    rw [adds]
    exact (takes x rfl).bind (Takes.pure _ _)

theorem takes_joinClause (wf : query.WellFormed) :
    (readClause (query.upTo .join) .join).Takes query.joinPlace (query.upTo .conditions)
      query.conditionsPlace := by
  have after : query.conditionsPlace.After .join := Query.after_conditionsPlace (by decide)
  exact takes_part (.ofJoin query.conditionsPlace)
    (fun join => { query.upTo .join with join }) rfl rfl (fun _ _ => rfl) nofun after
    fun join given => takes_join (wf.join join given) after

theorem takes_conditionsClause (wf : query.WellFormed) :
    (readClause (query.upTo .conditions) .conditions).Takes query.conditionsPlace
      (query.upTo .grouping) query.groupingPlace := by
  have after : query.groupingPlace.After .conditions := Query.after_groupingPlace (by decide)
  have takes (some : query.conditions ≠ []) := takes_conditions some wf.conditions after
  simp only [Query.conditionsPlace, Query.upTo]
  unfold Place.ofConditions at takes ⊢
  split
  · rename_i none
    rw [none]
    exact takes_absent _ nofun after
  · rename_i some
    have takes := takes some
    rw [if_neg some] at takes
    exact takes_present (takes.bind (Takes.pure _ _))

theorem takes_groupingClause (wf : query.WellFormed) :
    (readClause (query.upTo .grouping) .grouping).Takes query.groupingPlace (query.upTo .ordering)
      query.orderingPlace := by
  have after : query.orderingPlace.After .grouping := Query.after_orderingPlace (by decide)
  refine takes_part (.ofGrouping query.orderingPlace)
    (fun groupBy => { query.upTo .grouping with groupBy }) rfl rfl (fun _ _ => rfl) nofun after ?_
  intro fields given
  refine takes_grouping ?_ (wf.grouping fields given) after
  rintro rfl
  exact wf.someGrouping given

theorem takes_orderingClause (wf : query.WellFormed) :
    (readClause (query.upTo .ordering) .ordering).Takes query.orderingPlace (query.upTo .limit)
      query.limitPlace := by
  have after : query.limitPlace.After .ordering := Query.after_limitPlace (by decide)
  refine takes_part (.ofOrdering query.limitPlace)
    (fun orderBy => { query.upTo .ordering with orderBy }) rfl rfl (fun _ _ => rfl) nofun after ?_
  intro keys given
  refine takes_ordering ?_ (wf.ordering keys given) Query.endsKey_limitPlace after
  rintro rfl
  exact wf.someOrdering given

theorem takes_limitClause (wf : query.WellFormed) :
    (readClause (query.upTo .limit) .limit).Takes query.limitPlace (query.upTo .done)
      .finish :=
  takes_part .ofLimit (fun limit => { query.upTo .limit with limit }) rfl rfl (fun _ _ => rfl) nofun
    after_finish fun n given => takes_limit (wf.limit n given)

theorem withAggregates_upTo (wf : query.WellFormed) : (query.upTo .done).withAggregates = query := by
  have aggregates := wf.aggregates
  have whole := wf.wholeTable
  rw [aggregates] at whole
  cases query
  simp only [Query.upTo, Query.withAggregates, Query.mk.injEq, true_and, and_true] at *
  exact ⟨aggregates.symm, whole.symm⟩

theorem takes_query (wf : query.WellFormed) :
    readQuery.Takes ⟨.fields, query.texts⟩ query .finish := by
  have clauses : (Phase.clauses.foldlM readClause {}).Takes query.fieldsPlace (query.upTo .done)
      .finish := by
    simp only [Phase.clauses, List.foldlM_cons, List.foldlM_nil]
    exact (takes_fieldsClause wf).bind <| (takes_tableClause wf).bind <|
      (takes_joinClause wf).bind <| (takes_conditionsClause wf).bind <|
      (takes_groupingClause wf).bind <| (takes_orderingClause wf).bind <|
      (takes_limitClause wf).bind (Takes.pure _ _)
  exact (takes_skipBlanks (Keyword.unblank_of_mem rfl rfl)).bind <|
    (takes_expect Keyword.plain_select _).bind <|
    (takes_enter .fields _).bind <| clauses.bind (by rw [withAggregates_upTo wf]; exact Takes.pure _ _)

end Reader

/-- Every text of a well-formed query is read as that query. -/
theorem Query.parse_of_mem_texts {query : Query} (wf : query.WellFormed) {text : String}
    (mem : text.toList ∈ query.texts) : Query.parse text = .ok query := by
  obtain ⟨d, ran, -⟩ := Reader.takes_query wf (Cursor.ofString text) ⟨rfl, mem⟩
  rw [Query.parse, Reader.read, ran]

end TableQuery
