import TableQuery.Proofs.Statement.ClauseOrigin

/-! A statement that was read is one of the texts of the query it gave, and that query is well
formed. The clauses are followed in order, with what the reading before leaves to know of each. -/
namespace TableQuery

theorem Phase.rank_injective {a b : Phase} (same : a.rank = b.rank) : a = b := by
  cases a <;> cases b <;> first | rfl | cases same

/-- Before a clause is read the clauses before it are over, and after the last one nothing is left
to read. A join that comes next begins with no keyword of a later clause. -/
structure Cursor.Waits (c : Cursor) (clause : Phase) : Prop where
  later : ¬ c.phase < clause
  finished : c.phase = .done → c.rest = []
  unreserved : c.phase = .join →
    Keyword.limit.isFront c.rest = false ∧ Keyword.whereRows.isFront c.rest = false

theorem Cursor.Reached.waits {d : Cursor} {phase clause : Phase} (reached : d.Reached phase)
    (next : clause.rank = phase.rank + 1) : d.Waits clause := by
  rcases reached with ⟨finished, rest⟩ | ⟨unfinished, following⟩
  · refine ⟨?_, fun _ => rest, ?_⟩
    · rw [finished]
      cases clause <;> decide
    · intro join
      rw [finished] at join
      cases join
  · have follows := follows_of_following? following
    have later : phase.rank < d.phase.rank := follows.later
    refine ⟨?_, fun finished => absurd finished unfinished, follows.unreserved⟩
    intro earlier
    have earlier : d.phase.rank < clause.rank := earlier
    omega

/-- A clause that does not come now never comes. -/
theorem Cursor.Waits.pass {c : Cursor} {clause after : Phase} (waits : c.Waits clause)
    (other : c.phase ≠ clause) (next : after.rank = clause.rank + 1) : c.Waits after := by
  refine ⟨?_, waits.finished, waits.unreserved⟩
  intro earlier
  have earlier : c.phase.rank < after.rank := earlier
  have later : ¬ c.phase.rank < clause.rank := waits.later
  exact other (Phase.rank_injective (by omega))

namespace Reader

variable {c d : Cursor} {known result : Query}

theorem of_phase_ne {clause : Phase} (ran : (readClause known clause).run c = .done result d)
    (other : c.phase ≠ clause) : result = known ∧ d = c := by
  rw [run_readClause, if_neg other] at ran
  cases ran
  exact ⟨rfl, rfl⟩

theorem of_phase_eq {clause : Phase} (ran : (readClause known clause).run c = .done result d)
    (now : c.phase = clause) : (addClause known clause).run c = .done result d := by
  rwa [run_readClause, if_pos now] at ran

/-- A clause that may be left out, with the query it was read into. -/
structure TookPart {α : Type} (WellFormed : α → Prop) (part : Place → Option α → Place)
    (into : Option α → Query) (after : Phase) (c : Cursor) (x : Option α) (result : Query)
    (d : Cursor) : Prop where
  into : result = into x
  wellFormed : ∀ y ∈ x, WellFormed y
  waits : d.Waits after
  at_ : ∀ {next : Place}, d.At next → c.At (part next x)

/-- A clause was read by its reader, or it was left out and the query stays as it is. -/
theorem part_done {α : Type} {reader : Reader α} {WellFormed : α → Prop}
    {part : Place → Option α → Place} {into : Option α → Query} {clause after : Phase}
    (adds : addClause (into none) clause = reader >>= fun x => pure (into (some x)))
    (took : ∀ {x : α} {d : Cursor}, reader.run c = .done x d → c.phase = clause →
      TookClause WellFormed (fun place x => part place (some x)) c x d)
    (ran : (readClause (into none) clause).run c = .done result d) (waits : c.Waits clause)
    (next : after.rank = clause.rank + 1) (absent : ∀ place, part place none = place)
    (phase : ∀ place x, WellFormed x → (part place (some x)).phase = clause) :
    ∃ x, TookPart WellFormed part into after c x result d := by
  by_cases now : c.phase = clause
  · have added := of_phase_eq ran now
    rw [adds] at added
    obtain ⟨x, m, read, rest⟩ := run_bind_done added
    obtain ⟨rfl, rfl⟩ := pure_done rest
    have clauseTook := took read now
    have reached : m.Reached clause := now ▸ clauseTook.reached
    refine ⟨some x, rfl, ?_, reached.waits next, fun {place} at_ => ⟨?_, clauseTook.mem at_⟩⟩
    · intro y mem
      obtain rfl : x = y := by simpa using mem
      exact clauseTook.wellFormed
    · rw [now, phase place x clauseTook.wellFormed]
  · obtain ⟨same, rfl⟩ := of_phase_ne ran now
    refine ⟨none, same, nofun, waits.pass now next, fun {place} at_ => ?_⟩
    rw [absent]
    exact at_

theorem joinPart_done (ran : (readClause known .join).run c = .done result d) (waits : c.Waits .join)
    (none : known.join = none) :
    ∃ join, TookPart Join.WellFormed .ofJoin (fun join => { known with join }) .conditions c join
      result d := by
  refine part_done rfl ?_ (by rw [← none]; exact ran) waits rfl (fun _ => rfl) (fun _ _ _ => rfl)
  intro join d read now
  exact readJoin_done read (waits.unreserved now)

theorem conditionsPart_done (ran : (readClause known .conditions).run c = .done result d)
    (waits : c.Waits .conditions) (none : known.conditions = []) :
    ∃ conditions, TookPart (fun xs => xs ≠ [] ∧ ∀ x ∈ xs, Condition.WellFormed x)
      (fun next conditions => .ofConditions next (conditions.getD []))
      (fun conditions => { known with conditions := conditions.getD [] }) .grouping c conditions
      result d := by
  refine part_done rfl readConditions_done (by rw [Option.getD_none, ← none]; exact ran) waits rfl
    (fun _ => rfl) ?_
  intro place xs wf
  rw [Option.getD_some, Place.ofConditions, if_neg wf.1]

theorem groupingPart_done (ran : (readClause known .grouping).run c = .done result d)
    (waits : c.Waits .grouping) (none : known.groupBy = none) :
    ∃ groupBy, TookPart (fun xs => xs ≠ [] ∧ ∀ x ∈ xs, IsWord x) .ofGrouping
      (fun groupBy => { known with groupBy }) .ordering c groupBy result d :=
  part_done rfl readGrouping_done (by rw [← none]; exact ran) waits rfl (fun _ => rfl)
    fun _ _ _ => rfl

theorem orderingPart_done (ran : (readClause known .ordering).run c = .done result d)
    (waits : c.Waits .ordering) (none : known.orderBy = none) :
    ∃ orderBy, TookPart (fun xs => xs ≠ [] ∧ ∀ x ∈ xs, IsItem (SortKey.field x)) .ofOrdering
      (fun orderBy => { known with orderBy }) .limit c orderBy result d :=
  part_done rfl readOrdering_done (by rw [← none]; exact ran) waits rfl (fun _ => rfl)
    fun _ _ _ => rfl

theorem limitPart_done (ran : (readClause known .limit).run c = .done result d)
    (waits : c.Waits .limit) (none : known.limit = none) :
    ∃ limit, TookPart (· < 2 ^ 64) (fun next limit => limit.elim next fun n => .ofLimit (some n))
      (fun limit => { known with limit }) .done c limit result d :=
  part_done rfl readLimit_done (by rw [← none]; exact ran) waits rfl (fun _ => rfl)
    fun _ _ _ => rfl

/-- After the last clause nothing is left to read. -/
theorem at_finish (waits : c.Waits .done) : c.At .finish := by
  have finished : c.phase = .done := by
    have later := waits.later
    cases phase : c.phase with
    | done => rfl
    | _ => exact absurd (by rw [phase]; decide) later
  exact ⟨finished, waits.finished finished⟩

theorem fieldsClause_done (ran : (readClause known .fields).run c = .done result d)
    (now : c.phase = .fields) :
    ∃ fields, result = { known with fields } ∧ d.phase = .table ∧
      TookList (fun xs place => commaList (xs.map itemTexts) * place.lead false) IsItem c fields d := by
  obtain ⟨fields, m, read, rest⟩ := run_bind_done (of_phase_eq ran now)
  have rest := phase_bind_done rest
  by_cases table : m.phase = .table
  · rw [if_neg (not_not_intro table)] at rest
    obtain ⟨rfl, rfl⟩ := pure_done rest
    exact ⟨fields, rfl, table, readFields_done read now⟩
  · rw [if_pos table] at rest
    cases rest

theorem tableClause_done (ran : (readClause known .table).run c = .done result d)
    (now : c.phase = .table) :
    ∃ table, result = { known with table } ∧ TookClause IsWord Place.ofTable c table d := by
  obtain ⟨table, m, read, rest⟩ := run_bind_done (of_phase_eq ran now)
  obtain ⟨rfl, rfl⟩ := pure_done rest
  exact ⟨table, rfl, readTable_done read⟩

theorem readQuery_done {query : Query} (ran : readQuery.run c = .done query d) :
    query.WellFormed ∧ c.rest ∈ query.texts := by
  obtain ⟨u, m, expected, rest⟩ := run_bind_done (skipBlanks_bind_done ran)
  have select := expect_done Keyword.plain_select expected
  obtain ⟨u, c₁, entered, rest⟩ := run_bind_done rest
  have started : c₁.phase = .fields ∧ c₁.skipBlanks.rest = m.skipBlanks.rest := by
    cases entered
    exact ⟨rfl, rfl⟩
  obtain ⟨found, last, clauses, rest⟩ := run_bind_done rest
  obtain ⟨rfl, rfl⟩ := pure_done rest
  simp only [Phase.clauses, List.foldlM_cons, List.foldlM_nil] at clauses
  obtain ⟨_, c₂, ran₁, clauses⟩ := run_bind_done clauses
  obtain ⟨_, c₃, ran₂, clauses⟩ := run_bind_done clauses
  obtain ⟨_, c₄, ran₃, clauses⟩ := run_bind_done clauses
  obtain ⟨_, c₅, ran₄, clauses⟩ := run_bind_done clauses
  obtain ⟨_, c₆, ran₅, clauses⟩ := run_bind_done clauses
  obtain ⟨_, c₇, ran₆, clauses⟩ := run_bind_done clauses
  obtain ⟨_, c₈, ran₇, clauses⟩ := run_bind_done clauses
  obtain ⟨rfl, rfl⟩ := pure_done clauses
  obtain ⟨fields, rfl, phase₂, took₁⟩ := fieldsClause_done ran₁ started.1
  obtain ⟨table, rfl, took₂⟩ := tableClause_done ran₂ phase₂
  have waits : c₃.Waits .join := took₂.reached.waits (by rw [phase₂]; rfl)
  obtain ⟨join, part₃⟩ := joinPart_done ran₃ waits rfl
  obtain rfl := part₃.into
  obtain ⟨conditions, part₄⟩ := conditionsPart_done ran₄ part₃.waits rfl
  obtain rfl := part₄.into
  obtain ⟨groupBy, part₅⟩ := groupingPart_done ran₅ part₄.waits rfl
  obtain rfl := part₅.into
  obtain ⟨orderBy, part₆⟩ := orderingPart_done ran₆ part₅.waits rfl
  obtain rfl := part₆.into
  obtain ⟨limit, part₇⟩ := limitPart_done ran₇ part₆.waits rfl
  obtain rfl := part₇.into
  have at₇ : c₇.At (.ofLimit limit) := by
    have at_ := part₇.at_ (at_finish part₇.waits)
    cases limit with
    | none => exact at_
    | some n => exact at_
  have at₂ := took₂.mem (part₃.at_ (part₄.at_ (part₅.at_ (part₆.at_ at₇))))
  constructor
  · exact {
      someField := took₁.some
      fields := took₁.wellFormed
      table := took₂.wellFormed
      join := part₃.wellFormed
      conditions := by
        cases conditions with
        | none => exact fun x mem => absurd mem List.not_mem_nil
        | some xs => exact (part₄.wellFormed xs rfl).2
      someGrouping := fun none => (part₅.wellFormed [] none).1 rfl
      grouping := fun xs mem => (part₅.wellFormed xs mem).2
      someOrdering := fun none => (part₆.wellFormed [] none).1 rfl
      ordering := fun xs mem => (part₆.wellFormed xs mem).2
      limit := part₇.wellFormed
      aggregates := rfl
      wholeTable := rfl }
  · have text := took₁.mem ⟨phase₂, at₂⟩
    rw [started.2] at text
    simp only [Query.texts, Query.fieldsPlace, Query.tablePlace, Query.joinPlace,
      Query.conditionsPlace, Query.groupingPlace, Query.orderingPlace, Query.limitPlace,
      Query.withAggregates]
    exact Cursor.mem_blanks (select.mem text)

end Reader
end TableQuery
