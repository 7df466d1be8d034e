import TableQuery.Proofs.Statement.ErrorPlace
import TableQuery.Proofs.Statement.QueryOrigin

/-! Reading goes on. A clause that was read moves the cursor and leaves a later clause, or the end,
to be read, so a statement is read in a few rounds, each of another clause. -/
namespace TableQuery
open Token

/-- Whether two queries are the same as far as one clause goes. -/
def Query.SamePart (a b : Query) : Phase → Prop
  | .fields => a.fields = b.fields
  | .table => a.table = b.table
  | .join => a.join = b.join
  | .conditions => a.conditions = b.conditions
  | .grouping => a.groupBy = b.groupBy
  | .ordering => a.orderBy = b.orderBy
  | .limit => a.limit = b.limit
  | .done => True

theorem Query.SamePart.refl (query : Query) (clause : Phase) : query.SamePart query clause := by
  cases clause with
  | done => trivial
  | _ => rfl

theorem Query.SamePart.trans {a b c : Query} {clause : Phase} (first : a.SamePart b clause)
    (second : b.SamePart c clause) : a.SamePart c clause := by
  cases clause with
  | done => trivial
  | _ => exact Eq.trans first second

namespace Phase

theorem lt_trans {a b c : Phase} (first : a < b) (second : b < c) : a < c :=
  Nat.lt_trans first second

theorem lt_irrefl (a : Phase) : ¬ a < a := Nat.lt_irrefl a.rank

theorem ne_of_lt {a b : Phase} (earlier : a < b) : b ≠ a := by
  rintro rfl
  exact lt_irrefl b earlier

theorem not_done_lt (a : Phase) : ¬ done < a := by
  cases a <;> decide

theorem lt_done {a : Phase} (unfinished : a ≠ done) : a < done := by
  cases a with
  | done => exact absurd rfl unfinished
  | _ => decide

/-- Of two clauses one comes first. -/
theorem lt_of_not_lt {a b : Phase} (later : ¬ b < a) (other : a ≠ b) : a < b := by
  refine Nat.lt_of_le_of_ne (Nat.le_of_not_lt later) ?_
  intro same
  exact other (rank_injective same)

end Phase

namespace Cursor

variable {c d : Cursor}

theorem Reached.later {phase : Phase} (reached : d.Reached phase) (unfinished : phase ≠ .done) :
    phase < d.phase := by
  rcases reached with ⟨finished, -⟩ | ⟨-, following⟩
  · rw [finished]
    exact Phase.lt_done unfinished
  · exact (follows_of_following? following).later

/-- With nothing left to read a cursor inside its text stands at the end. -/
theorem position_of_rest (within : c.Within) (rest : c.rest = []) : c.position = c.text.length :=
  Nat.le_antisymm within (List.drop_eq_nil_iff.mp rest)

theorem nextClause_of_true (within : c.Within) (moved : c.nextClause.1 = true) :
    c.phase < c.nextClause.2.phase ∨
      c.nextClause.2.phase = .done ∧ c.nextClause.2.position = c.text.length := by
  have leaves : c.Leaves c.nextClause.2 := leaves_of_nextClause (Prod.ext moved rfl)
  rcases leaves.reached with ⟨finished, rest⟩ | ⟨-, following⟩
  · refine .inr ⟨finished, ?_⟩
    rw [← c.ahead_nextClause.1]
    exact position_of_rest (within_nextClause within) rest
  · exact .inl (follows_of_following? following).later

/-- Where no clause begins and the text goes on, something other than a blank stands there. -/
theorem exists_after_blanks (refused : c.nextClause.1 = false) :
    ∃ skipped ch after, c.rest = skipped ++ ch :: after ∧ (∀ b ∈ skipped, isBlank b) ∧
      isBlank ch = false ∧ c.nextClause.2.position = c.position + skipped.length := by
  cases left : c.skipBlanks.rest with
  | nil =>
    rw [nextClause_of_nil left] at refused
    cases refused
  | cons ch after =>
    refine ⟨c.rest.takeWhile isBlank, ch, after, ?_, c.takeWhile_mem_blanks, ?_, ?_⟩
    · rw [← left]
      exact c.takeWhile_append_skipBlanks.symm
    · have stop := List.head?_dropWhile_not isBlank c.rest
      rw [← rest_skipBlanks_eq, left] at stop
      exact stop
    · rw [nextClause_of_false refused]
      rfl

end Cursor

namespace Reader

variable {α β : Type} {c d : Cursor}

/-- Whether a reader moves the cursor whenever it ends well. -/
def Consumes (reader : Reader α) : Prop :=
  ∀ ⦃c d : Cursor⦄ ⦃value : α⦄, reader.run c = .done value d → c.position < d.position

section Consumes

theorem Consumes.bind {first : Reader α} (consumes : first.Consumes) (next : α → Reader β) :
    (first >>= next).Consumes := by
  intro c d value ran
  obtain ⟨a, m, ran, rest⟩ := run_bind_done ran
  exact Nat.lt_of_lt_of_le (consumes ran) (ahead_of_done rest).2

theorem consumes_expect {keyword : Keyword} (some : 0 < keyword.word.length)
    (problem : SyntaxProblem) : (expect keyword problem).Consumes := by
  intro c d value ran
  obtain ⟨accepted, m, accepts, rest⟩ := run_bind_done ran
  cases accepted with
  | false => cases rest
  | true =>
    cases rest
    rw [run_accept] at accepts
    split at accepts
    · cases accepts
      exact Nat.lt_add_of_pos_right some
    · cases accepts

theorem length_item_le (depth : Nat) (text : List Char) :
    (scanItem depth text).item.length ≤ (scanItem depth text).length := by
  induction text generalizing depth with
  | nil => exact Nat.le_refl _
  | cons ch rest ih =>
    unfold scanItem
    split
    · exact Nat.le_refl _
    · split
      · exact Nat.le_refl _
      · dsimp only
        split
        · exact Nat.le_succ_of_le (ih _)
        · exact Nat.succ_le_succ (ih _)

theorem consumes_field (problem : SyntaxProblem) : (nonempty readItem problem).Consumes := by
  intro c d item ran
  obtain ⟨some, read⟩ := nonempty_done ran
  simp only [readItem] at read
  split at read
  · cases read
    have long := length_item_le 0 c.skipBlanks.rest
    have taken : 0 < (scanItem 0 c.skipBlanks.rest).item.length := by
      refine List.length_pos_of_ne_nil ?_
      intro empty
      exact some (by rw [empty])
    have skipped := (c.ahead_forward (c.rest.takeWhile isBlank).length).2
    exact Nat.lt_of_le_of_lt skipped (Nat.lt_add_of_pos_right (Nat.lt_of_lt_of_le taken long))
  · cases read

theorem Consumes.list {item : Reader α} (consumes : item.Consumes) (more : Reader Bool)
    (advances : more.Advances) : (list item more advances).Consumes := by
  intro c d xs ran
  refine runList_induct (motive := fun c _ d => c.position < d.position) ?_ ?_ ran
  · intro c x m d read asked
    exact Nat.lt_of_lt_of_le (consumes read) (ahead_of_done asked).2
  · intro c x m e xs d read asked rest
    have further := Nat.lt_of_lt_of_le (consumes read) (ahead_of_done asked).2
    exact Nat.lt_trans further rest

theorem length_joinKeyword?_pos {text : List Char} {kind : String} {length : Nat}
    (found : joinKeyword? text = some (kind, length)) : 0 < length := by
  unfold joinKeyword? at found
  split at found
  · cases found
    decide
  · dsimp only at found
    split at found
    · cases found
      exact Nat.add_pos_right _ (by decide)
    · cases found

theorem consumes_readJoinKeyword : readJoinKeyword.Consumes := by
  intro c d kind ran
  simp only [readJoinKeyword] at ran
  split at ran
  · rename_i found
    cases ran
    exact Nat.lt_add_of_pos_right (length_joinKeyword?_pos found)
  · cases ran

end Consumes

section Clauses

inductive ReadsClause (c d : Cursor) : Phase → Prop where
  | fields {fields : List String} (ran : readFields.run c = .done fields d) :
      ReadsClause c d .fields
  | table {table : String} (ran : readTable.run c = .done table d) : ReadsClause c d .table
  | join {join : Join} (ran : readJoin.run c = .done join d) : ReadsClause c d .join
  | conditions {conditions : List Condition} (ran : readConditions.run c = .done conditions d) :
      ReadsClause c d .conditions
  | grouping {fields : List String} (ran : readGrouping.run c = .done fields d) :
      ReadsClause c d .grouping
  | ordering {keys : List SortKey} (ran : readOrdering.run c = .done keys d) :
      ReadsClause c d .ordering
  | limit {n : Nat} (ran : readLimit.run c = .done n d) : ReadsClause c d .limit

namespace ReadsClause

variable {clause : Phase}

theorem unfinished (reads : ReadsClause c d clause) : clause ≠ .done := by
  cases reads <;> decide

theorem reached (reads : ReadsClause c d clause) (now : c.phase = clause) : d.Reached clause := by
  rw [← now]
  cases reads with
  | fields ran => exact (readFields_done ran now).reached
  | table ran => exact (readTable_done ran).reached
  | join ran => exact (readJoin_took ran).reached
  | conditions ran => exact (readConditions_done ran now).reached
  | grouping ran => exact (readGrouping_done ran now).reached
  | ordering ran => exact (readOrdering_done ran now).reached
  | limit ran => exact (readLimit_done ran now).reached

theorem further (reads : ReadsClause c d clause) (now : c.phase = clause) :
    c.position < d.position := by
  cases reads with
  | fields ran => exact (consumes_field _).list _ _ (listWithin_done ran now)
  | table ran => exact (consumes_expect (by decide) _).bind _ ran
  | join ran => exact consumes_readJoinKeyword.bind _ ran
  | conditions ran => exact (consumes_expect (by decide) _).bind _ ran
  | grouping ran => exact (consumes_expect (by decide) _).bind _ ran
  | ordering ran => exact (consumes_expect (by decide) _).bind _ ran
  | limit ran => exact (consumes_expect (by decide) _).bind _ ran

theorem within (reads : ReadsClause c d clause) (within : c.Within) :
    d.text = c.text ∧ d.Within := by
  have inside {α : Type} {reader : Reader α} {value : α} (sound : SoundFrom 0 reader)
      (ran : reader.run c = .done value d) : d.text = c.text ∧ d.Within := by
    obtain ⟨text, within, -⟩ := sound.done within (Nat.zero_le _) ran
    exact ⟨text, within⟩
  cases reads with
  | fields ran => exact inside soundFrom_readFields ran
  | table ran => exact inside soundFrom_readTable ran
  | join ran => exact inside soundFrom_readJoin ran
  | conditions ran => exact inside soundFrom_readConditions ran
  | grouping ran => exact inside soundFrom_readGrouping ran
  | ordering ran => exact inside soundFrom_readOrdering ran
  | limit ran => exact inside soundFrom_readLimit ran

end ReadsClause

variable {query next : Query}

/-- What is added to a query was read by the reader of the clause. -/
theorem readsClause_of_addClause {clause : Phase} (unfinished : clause ≠ .done)
    (ran : (addClause query clause).run c = .done next d) : ReadsClause c d clause := by
  cases clause with
  | done => exact absurd rfl unfinished
  | fields =>
    obtain ⟨fields, m, read, rest⟩ := run_bind_done ran
    have rest := phase_bind_done rest
    split at rest
    · cases rest
    · obtain ⟨-, rfl⟩ := pure_done rest
      exact .fields read
  | _ =>
    obtain ⟨value, m, read, rest⟩ := run_bind_done ran
    obtain ⟨-, rfl⟩ := pure_done rest
    constructor
    exact read

/-- Only the part of the clause that was read is written. -/
theorem samePart_of_addClause {clause other : Phase} (different : other ≠ clause)
    (ran : (addClause query clause).run c = .done next d) : next.SamePart query other := by
  cases clause with
  | done =>
    obtain ⟨rfl, -⟩ := pure_done ran
    exact .refl query other
  | fields =>
    obtain ⟨fields, m, read, rest⟩ := run_bind_done ran
    have rest := phase_bind_done rest
    split at rest
    · cases rest
    · obtain ⟨rfl, -⟩ := pure_done rest
      cases other with
      | fields => exact absurd rfl different
      | done => trivial
      | _ => rfl
  | _ =>
    obtain ⟨value, m, read, rest⟩ := run_bind_done ran
    obtain ⟨rfl, -⟩ := pure_done rest
    cases other with
    | done => trivial
    | _ => first | rfl | exact absurd rfl different

end Clauses

section Rounds

variable {query next : Query} {rounds : List (Phase × Query)} {outcome : Outcome Query}

/-- Reading a statement in rounds. As long as it is not over the clause that has begun is read into
the query. A round is told by its clause and the query before it. -/
inductive Rounds : Query → Cursor → List (Phase × Query) → Outcome Query → Prop where
  | ended {query : Query} {c : Cursor} (finished : c.phase = .done) :
      Rounds query c [] (.done query c)
  | failed {query : Query} {c d : Cursor} {error : SyntaxError} (unfinished : c.phase ≠ .done)
      (ran : (readClause query c.phase).run c = .failed error d) :
      Rounds query c [(c.phase, query)] (.failed error d)
  | round {query next : Query} {c d : Cursor} {rounds : List (Phase × Query)}
      {outcome : Outcome Query} (unfinished : c.phase ≠ .done)
      (ran : (readClause query c.phase).run c = .done next d)
      (others : Rounds next d rounds outcome) :
      Rounds query c ((c.phase, query) :: rounds) outcome

theorem later_of_round (unfinished : c.phase ≠ .done)
    (ran : (readClause query c.phase).run c = .done next d) : c.phase < d.phase := by
  have reads := readsClause_of_addClause unfinished (of_phase_eq ran rfl)
  exact (reads.reached rfl).later unfinished

namespace Rounds

theorem length_le (reading : Rounds query c rounds outcome) :
    rounds.length + c.phase.rank ≤ 7 := by
  have small (phase : Phase) (unfinished : phase ≠ .done) : phase.rank < 7 :=
    Phase.lt_done unfinished
  induction reading with
  | ended finished =>
    rw [finished]
    exact Nat.le_refl 7
  | failed unfinished =>
    have before := small _ unfinished
    rw [List.length_singleton]
    omega
  | round unfinished ran others ih =>
    have later := Nat.succ_le_of_lt (later_of_round unfinished ran)
    rw [List.length_cons]
    omega

theorem not_earlier (reading : Rounds query c rounds outcome) :
    ∀ round ∈ rounds, ¬ round.1 < c.phase := by
  induction reading with
  | ended => nofun
  | failed =>
    intro round mem
    rw [List.mem_singleton.mp mem]
    exact Phase.lt_irrefl _
  | round unfinished ran others ih =>
    intro round mem earlier
    rcases List.mem_cons.mp mem with rfl | mem
    · exact Phase.lt_irrefl _ earlier
    · exact ih round mem (Phase.lt_trans earlier (later_of_round unfinished ran))

/-- The rounds after a round are about later clauses. -/
theorem later (unfinished : c.phase ≠ .done)
    (ran : (readClause query c.phase).run c = .done next d)
    (others : Rounds next d rounds outcome) : ∀ round ∈ rounds, c.phase < round.1 := by
  intro round mem
  have now := later_of_round unfinished ran
  have after := others.not_earlier round mem
  exact Nat.lt_of_lt_of_le now (Nat.le_of_not_lt after)

theorem pairwise (reading : Rounds query c rounds outcome) :
    rounds.Pairwise (fun first second => first.1 < second.1) := by
  induction reading with
  | ended => exact .nil
  | failed => exact List.pairwise_singleton _ _
  | round unfinished ran others ih => exact .cons (others.later unfinished ran) ih

/-- When a clause is read nothing has been written for it before. -/
theorem samePart (reading : Rounds query c rounds outcome) :
    ∀ round ∈ rounds, round.2.SamePart query round.1 := by
  induction reading with
  | ended => nofun
  | failed =>
    intro round mem
    rw [List.mem_singleton.mp mem]
    exact .refl _ _
  | round unfinished ran others ih =>
    intro round mem
    rcases List.mem_cons.mp mem with rfl | mem
    · exact .refl _ _
    · have later := others.later unfinished ran round mem
      have kept := samePart_of_addClause (Phase.ne_of_lt later) (of_phase_eq ran rfl)
      exact (ih round mem).trans kept

end Rounds

/-- Reading the clauses in order is reading in rounds: a clause that does not come now is passed
over, and one that comes is followed by later ones only. -/
theorem exists_rounds {clauses : List Phase} (sorted : clauses.Pairwise (· < ·))
    (ends : .done ∉ clauses)
    (all : ∀ clause, clause ≠ .done → ¬ clause < c.phase → clause ∈ clauses) :
    ∃ rounds, Rounds query c rounds ((clauses.foldlM readClause query).run c) := by
  induction clauses generalizing query c with
  | nil =>
    have finished : c.phase = .done := by
      by_contra unfinished
      exact List.not_mem_nil (all c.phase unfinished (Phase.lt_irrefl _))
    exact ⟨[], .ended finished⟩
  | cons clause clauses ih =>
    obtain ⟨later, ordered⟩ := List.pairwise_cons.mp sorted
    obtain ⟨ends, others⟩ := not_or.mp (mt List.mem_cons.mpr ends)
    rw [List.foldlM_cons, run_bind]
    by_cases now : c.phase = clause
    · subst now
      cases ran : (readClause query c.phase).run c with
      | failed error d => exact ⟨_, .failed (Ne.symm ends) ran⟩
      | done next d =>
        have after := later_of_round (Ne.symm ends) ran
        have rest (clause : Phase) (other : clause ≠ .done) (reached : ¬ clause < d.phase) :
            clause ∈ clauses := by
          have beyond : c.phase < clause := Nat.lt_of_lt_of_le after (Nat.le_of_not_lt reached)
          have mem := all clause other fun earlier =>
            Phase.lt_irrefl _ (Phase.lt_trans beyond earlier)
          exact (List.mem_cons.mp mem).resolve_left (Phase.ne_of_lt beyond)
        obtain ⟨rounds, reading⟩ := ih ordered others rest
        exact ⟨_, .round (Ne.symm ends) ran reading⟩
    · rw [run_readClause, if_neg now]
      refine ih ordered others ?_
      intro other ongoing reached
      refine (List.mem_cons.mp (all other ongoing reached)).resolve_left ?_
      rintro rfl
      have behind : c.phase < other := Phase.lt_of_not_lt reached now
      have unfinished := (Phase.ne_of_lt (Phase.lt_trans behind (Phase.lt_done ongoing))).symm
      have among : c.phase ∈ clauses :=
        (List.mem_cons.mp (all c.phase unfinished (Phase.lt_irrefl _))).resolve_left now
      exact Phase.lt_irrefl _ (Phase.lt_trans behind (later c.phase among))

theorem Rounds.unique {other : List (Phase × Query)} {result : Outcome Query}
    (reading : Rounds query c rounds outcome) (again : Rounds query c other result) :
    other = rounds ∧ result = outcome := by
  induction reading generalizing other result with
  | ended finished =>
    cases again with
    | ended => exact ⟨rfl, rfl⟩
    | failed unfinished => exact absurd finished unfinished
    | round unfinished => exact absurd finished unfinished
  | failed unfinished ran =>
    cases again with
    | ended finished => exact absurd finished unfinished
    | failed _ ran' =>
      cases ran.symm.trans ran'
      exact ⟨rfl, rfl⟩
    | round _ ran' => cases ran.symm.trans ran'
  | round unfinished ran others ih =>
    cases again with
    | ended finished => exact absurd finished unfinished
    | failed _ ran' => cases ran.symm.trans ran'
    | round _ ran' others' =>
      cases ran.symm.trans ran'
      obtain ⟨rfl, rfl⟩ := ih others'
      exact ⟨rfl, rfl⟩

end Rounds

end Reader

/-- How reading goes on from a cursor. -/
structure Cursor.Progresses (c : Cursor) : Prop where
  /-- The search for the next clause never goes back to an earlier one. -/
  forward : ¬ c.nextClause.2.phase < c.phase
  found : c.nextClause.1 = true → c.phase < c.nextClause.2.phase ∨
    c.nextClause.2.phase = .done ∧ c.nextClause.2.position = c.text.length
  /-- A search that fails stops at the first character that is no blank, whatever it looked at. -/
  missed : c.nextClause.1 = false → c.nextClause.2.phase = c.phase ∧
    ∃ skipped ch after, c.rest = skipped ++ ch :: after ∧ (∀ b ∈ skipped, isBlank b) ∧
      isBlank ch = false ∧ c.nextClause.2.position = c.position + skipped.length
  clause : ∀ d, Reader.ReadsClause c d c.phase →
    c.phase < d.phase ∧ c.position < d.position ∧ d.text = c.text ∧ d.Within
  kept : ∀ query next d other, other ≠ c.phase →
    (Reader.readClause query c.phase).run c = .done next d → next.SamePart query other
  /-- What reads the clauses in order is the one way to read them in rounds. These are seven at
  most, no two of one clause, and in each the query has for the clause what it had at first. -/
  rounds : ∀ query, ∃ rounds,
    Reader.Rounds query c rounds ((Phase.clauses.foldlM Reader.readClause query).run c) ∧
      (∀ other outcome, Reader.Rounds query c other outcome → other = rounds ∧
        outcome = (Phase.clauses.foldlM Reader.readClause query).run c) ∧
      rounds.length ≤ 7 ∧ rounds.Pairwise (fun first second => first.1 < second.1) ∧
      ∀ round ∈ rounds, round.2.SamePart query round.1

/-- From every cursor inside its text reading goes on, clause by clause. -/
theorem Cursor.progresses {c : Cursor} (within : c.Within) : c.Progresses where
  forward := by
    cases moved : c.nextClause.1 with
    | true =>
      intro back
      rcases nextClause_of_true within moved with later | ⟨finished, -⟩
      · exact Phase.lt_irrefl _ (Phase.lt_trans back later)
      · rw [finished] at back
        exact Phase.not_done_lt _ back
    | false =>
      rw [nextClause_of_false moved]
      exact Phase.lt_irrefl c.phase
  found := nextClause_of_true within
  missed := by
    intro refused
    refine ⟨?_, exists_after_blanks refused⟩
    rw [nextClause_of_false refused]
    rfl
  clause := by
    intro d reads
    exact ⟨(reads.reached rfl).later reads.unfinished, reads.further rfl, reads.within within⟩
  kept := by
    intro query next d other different ran
    exact Reader.samePart_of_addClause different (Reader.of_phase_eq ran rfl)
  rounds := by
    intro query
    have all (clause : Phase) (unfinished : clause ≠ .done) (_ : ¬ clause < c.phase) :
        clause ∈ Phase.clauses := by
      cases clause with
      | done => exact absurd rfl unfinished
      | _ => decide
    obtain ⟨rounds, reading⟩ := Reader.exists_rounds (by decide) (by decide) all
    refine ⟨rounds, reading, fun _ _ again => reading.unique again, ?_, reading.pairwise,
      reading.samePart⟩
    have bound := reading.length_le
    omega

/-- A semicolon with more text after it ends nothing: the cursor stays at it, in its clause. -/
theorem Cursor.progresses_before_semicolon :
    Cursor.Within ⟨"GROUP BY a ; b".toList, 10, .grouping⟩ ∧
      (Cursor.nextClause ⟨"GROUP BY a ; b".toList, 10, .grouping⟩).1 = false ∧
      (Cursor.nextClause ⟨"GROUP BY a ; b".toList, 10, .grouping⟩).2.position = 11 ∧
      Cursor.Progresses ⟨"GROUP BY a ; b".toList, 10, .grouping⟩ := by
  have within : Cursor.Within ⟨"GROUP BY a ; b".toList, 10, .grouping⟩ := by
    unfold Cursor.Within
    decide
  exact ⟨within, by decide, by decide, Cursor.progresses within⟩

end TableQuery
