import Mathlib
import TableQuery.Statement.Select

/-! Every error points into the statement. A reading step that begins inside the text stays inside
it, and an error lies between a place that was passed before and the place where the step
stopped. -/
namespace TableQuery

/-- Whether a place lies in its text, or right after it. -/
def Cursor.Within (c : Cursor) : Prop := c.position ≤ c.text.length

/-- Whether an error lies in a text and shows what stands there, one character past its end. -/
structure SyntaxError.PointsInto (error : SyntaxError) (text : List Char) : Prop where
  ordered : error.start ≤ error.stop
  within : error.stop ≤ text.length
  shown : error.text.toList = (text.take (min (error.stop + 1) text.length)).drop error.start

/-- Whether a step ended inside the text, with an error that points into it if it failed. -/
def Outcome.Sound {α : Type} (text : List Char) : Outcome α → Prop
  | .done _ cursor => cursor.text = text ∧ cursor.Within
  | .failed error _ => error.PointsInto text

/-- Whether a reader stays inside the text, and points into it when it fails, wherever it begins at
or after a position. -/
def Reader.SoundFrom {α : Type} (start : Nat) (reader : Reader α) : Prop :=
  ∀ c : Cursor, c.Within → start ≤ c.position → (reader.run c).Sound c.text

namespace Cursor

variable {c : Cursor} {count : Nat}

theorem within_forward (within : c.Within) (long : count ≤ c.rest.length) :
    (c.forward count).Within := by
  rw [length_rest, remaining] at long
  unfold Within forward at *
  dsimp only
  omega

theorem within_skipBlanks (within : c.Within) : c.skipBlanks.Within :=
  within_forward within (List.takeWhile_prefix _).length_le

theorem within_nextClause (within : c.Within) : c.nextClause.2.Within := by
  have skipped := within_skipBlanks within
  unfold nextClause
  dsimp only
  split
  · exact skipped
  · rename_i after rest
    split
    · exact within_forward skipped (by rw [rest]; rfl)
    · exact skipped
  · split
    · exact skipped
    · exact skipped

theorem pointsInto_between (within : c.Within) (problem : SyntaxProblem) {start : Nat}
    (before : start ≤ c.position) :
    (SyntaxError.between problem start c).PointsInto c.text where
  ordered := before
  within := within
  shown := by
    rw [← List.take_eq_take_min]
    exact String.toList_ofList

end Cursor

section Scans

theorem Token.length_scanItem_le (depth : Nat) (text : List Char) :
    (scanItem depth text).length ≤ text.length := by
  induction text generalizing depth with
  | nil => exact Nat.le_refl _
  | cons c rest ih =>
    unfold scanItem
    split
    · exact Nat.zero_le _
    · split
      · exact Nat.zero_le _
      · exact Nat.succ_le_succ (ih _)

theorem length_joinKeyword?_le {text : List Char} {kind : String} {length : Nat}
    (found : joinKeyword? text = some (kind, length)) : length ≤ text.length := by
  unfold joinKeyword? at found
  split at found
  · rename_i front
    cases found
    exact Keyword.length_le_of_isFront front
  · dsimp only at found
    split at found
    · rename_i front
      cases found
      have long := Keyword.length_le_of_isFront (Bool.and_eq_true_iff.mp front).2
      have : 0 < Keyword.join.word.length := by decide
      rw [List.length_drop] at long
      omega
    · cases found

end Scans

namespace Reader

variable {α β : Type} {start : Nat}

theorem soundFrom_pure (value : α) : SoundFrom start (pure value) :=
  fun _ within _ => ⟨rfl, within⟩

theorem SoundFrom.failed {reader : Reader α} (sound : SoundFrom start reader) {c after : Cursor}
    (within : c.Within) (reached : start ≤ c.position) {error : SyntaxError}
    (ran : reader.run c = .failed error after) : error.PointsInto c.text := by
  have ended := sound c within reached
  rwa [ran] at ended

theorem SoundFrom.done {reader : Reader α} (sound : SoundFrom start reader) {c after : Cursor}
    (within : c.Within) (reached : start ≤ c.position) {value : α}
    (ran : reader.run c = .done value after) :
    after.text = c.text ∧ after.Within ∧ start ≤ after.position := by
  have ended := sound c within reached
  rw [ran] at ended
  exact ⟨ended.1, ended.2, Nat.le_trans reached (ahead_of_done ran).2⟩

theorem SoundFrom.bind {first : Reader α} {next : α → Reader β} (sound : SoundFrom start first)
    (sound' : ∀ value, SoundFrom start (next value)) : SoundFrom start (first >>= next) := by
  intro c within reached
  rw [run_bind]
  cases ran : first.run c with
  | failed error after => exact sound.failed within reached ran
  | done value mid =>
    obtain ⟨text, within', reached'⟩ := sound.done within reached ran
    rw [← text]
    exact sound' value mid within' reached'

/-- A check fails, or the reading goes on. -/
theorem SoundFrom.unless {refused : Prop} [Decidable refused] {failure : Reader Unit}
    {next : Unit → Reader β} (sound : SoundFrom start failure)
    (sound' : SoundFrom start (next ())) :
    SoundFrom start (if refused then failure >>= next else next ()) := by
  split
  · exact sound.bind fun _ => sound'
  · exact sound'

/-- A position that is kept is one from which the rest of the reading goes on. -/
theorem soundFrom_position_bind {next : Nat → Reader β}
    (sound : ∀ kept, start ≤ kept → SoundFrom kept (next kept)) :
    SoundFrom start (position >>= next) :=
  fun c within reached => sound c.position reached c within (Nat.le_refl _)

theorem soundFrom_failFrom (problem : SyntaxProblem) :
    SoundFrom start (failFrom problem start : Reader α) :=
  fun _ within reached => Cursor.pointsInto_between within problem reached

theorem soundFrom_fail (problem : SyntaxProblem) : SoundFrom start (fail problem : Reader α) :=
  fun _ within _ => Cursor.pointsInto_between within problem (Nat.le_refl _)

theorem soundFrom_phase : SoundFrom start phase := fun _ within _ => ⟨rfl, within⟩

theorem soundFrom_enter (phase : Phase) : SoundFrom start (enter phase) :=
  fun _ within _ => ⟨rfl, within⟩

theorem soundFrom_skipBlanks : SoundFrom start skipBlanks :=
  fun _ within _ => ⟨rfl, Cursor.within_skipBlanks within⟩

theorem soundFrom_readWhile (kept : Char → Bool) : SoundFrom start (readWhile kept) :=
  fun _ within _ => ⟨rfl, Cursor.within_forward within (List.takeWhile_prefix _).length_le⟩

theorem soundFrom_acceptChar (ch : Char) : SoundFrom start (acceptChar ch) := by
  intro c within _
  rw [run_acceptChar]
  split
  · rename_i stands
    have long : 1 ≤ c.rest.length := by
      cases rest : c.rest with
      | nil => simp [rest] at stands
      | cons => simp
    exact ⟨rfl, Cursor.within_forward within long⟩
  · exact ⟨rfl, within⟩

theorem soundFrom_accept (keyword : Keyword) : SoundFrom start (accept keyword) := by
  intro c within _
  rw [run_accept]
  split
  · rename_i front
    exact ⟨rfl, Cursor.within_forward within (Keyword.length_le_of_isFront front)⟩
  · exact ⟨rfl, within⟩

theorem soundFrom_expect (keyword : Keyword) (problem : SyntaxProblem) :
    SoundFrom start (expect keyword problem) := by
  refine (soundFrom_accept keyword).bind fun accepted => ?_
  cases accepted with
  | false => exact soundFrom_fail problem
  | true => exact soundFrom_pure ()

theorem soundFrom_nextClause : SoundFrom start nextClause :=
  fun c within _ => ⟨c.ahead_nextClause.1, Cursor.within_nextClause within⟩

theorem soundFrom_endClause (problem : SyntaxProblem) : SoundFrom start (endClause problem) := by
  refine soundFrom_nextClause.bind fun ends => ?_
  cases ends with
  | false => exact soundFrom_fail problem
  | true => exact soundFrom_pure ()

theorem soundFrom_readItem : SoundFrom start readItem := by
  intro c within _
  have within' := Cursor.within_forward within (Token.length_scanItem_le 0 c.rest)
  unfold readItem
  dsimp only
  split
  · exact ⟨rfl, within'⟩
  · exact Cursor.pointsInto_between within' .unbalancedParentheses (Nat.le_add_right _ _)

theorem soundFrom_readLiteral : SoundFrom start readLiteral := by
  intro c within _
  unfold readLiteral
  dsimp only
  split
  · rename_i quote inner rest
    split
    · split
      · rename_i closed
        exact ⟨rfl, Cursor.within_forward within (rest ▸ Nat.succ_le_succ closed)⟩
      · have taken : (inner.takeWhile (· != quote)).length + 1 ≤ c.rest.length := by
          rw [rest]
          exact Nat.succ_le_succ (List.takeWhile_prefix _).length_le
        have within' := Cursor.within_forward within taken
        exact Cursor.pointsInto_between within' .unterminatedText (Nat.le_add_right _ _)
    · exact ⟨rfl, Cursor.within_forward within (List.takeWhile_prefix _).length_le⟩
  · exact ⟨rfl, within⟩

theorem soundFrom_readJoinKeyword : SoundFrom start readJoinKeyword := by
  intro c within _
  unfold readJoinKeyword
  dsimp only
  split
  · rename_i found
    exact ⟨rfl, Cursor.within_forward within (length_joinKeyword?_le found)⟩
  · exact Cursor.pointsInto_between within .invalidJoin (Nat.le_refl _)

theorem soundFrom_list {item : Reader α} {more : Reader Bool} {advances : more.Advances}
    (sound : SoundFrom start item) (sound' : SoundFrom start more) :
    SoundFrom start (list item more advances) := by
  intro c within reached
  change (runList item more advances c).Sound c.text
  fun_induction runList item more advances c with
  | case1 c error stop read => exact sound.failed within reached read
  | case2 c value mid read error stop asked =>
    obtain ⟨text, within', reached'⟩ := sound.done within reached read
    exact text ▸ sound'.failed within' reached' asked
  | case3 c value mid read stop asked =>
    obtain ⟨text, within', reached'⟩ := sound.done within reached read
    obtain ⟨text', within'', -⟩ := sound'.done within' reached' asked
    exact ⟨text'.trans text, within''⟩
  | case4 c value mid read again asked _ error stop rest ih =>
    obtain ⟨text, within', reached'⟩ := sound.done within reached read
    obtain ⟨text', within'', reached''⟩ := sound'.done within' reached' asked
    rw [rest, text'.trans text] at ih
    exact ih within'' reached''
  | case5 c value mid read again asked _ values stop rest ih =>
    obtain ⟨text, within', reached'⟩ := sound.done within reached read
    obtain ⟨text', within'', reached''⟩ := sound'.done within' reached' asked
    rw [rest, text'.trans text] at ih
    exact ih within'' reached''

theorem soundFrom_commaOrNext (problem : SyntaxProblem) :
    SoundFrom start (commaOrNext problem) := by
  refine soundFrom_skipBlanks.bind fun _ => (soundFrom_acceptChar ',').bind fun accepted => ?_
  cases accepted with
  | true => exact soundFrom_pure true
  | false => exact (soundFrom_endClause problem).bind fun _ => soundFrom_pure false

theorem soundFrom_nextOrAnd : SoundFrom start nextOrAnd := by
  refine soundFrom_nextClause.bind fun ends => ?_
  cases ends with
  | true => exact soundFrom_pure false
  | false => exact (soundFrom_expect .and .expectedAnd).bind fun _ => soundFrom_pure true

theorem soundFrom_listWithin (clause : Phase) {item : Reader α} {more : Reader Bool}
    {advances : more.Advances} (sound : SoundFrom start item) (sound' : SoundFrom start more) :
    SoundFrom start (listWithin clause item more advances) := by
  refine soundFrom_phase.bind fun phase => ?_
  split
  · exact soundFrom_list sound sound'
  · exact soundFrom_pure []

theorem soundFrom_nonempty {token : Reader String} (sound : ∀ kept, SoundFrom kept token)
    (problem : SyntaxProblem) : SoundFrom start (nonempty token problem) := by
  refine soundFrom_skipBlanks.bind fun _ => soundFrom_position_bind fun kept _ => ?_
  refine (sound kept).bind fun text => ?_
  split
  · exact soundFrom_failFrom problem
  · exact soundFrom_pure text

theorem soundFrom_readFields : SoundFrom start readFields :=
  soundFrom_listWithin .fields (soundFrom_nonempty (fun _ => soundFrom_readItem) _)
    (soundFrom_commaOrNext _)

theorem soundFrom_readTable : SoundFrom start readTable := by
  refine (soundFrom_expect _ _).bind fun _ => ?_
  refine (soundFrom_nonempty (fun _ => soundFrom_readWhile _) _).bind fun table => ?_
  exact (soundFrom_endClause _).bind fun _ => soundFrom_pure table

theorem soundFrom_readJoin : SoundFrom start readJoin := by
  refine soundFrom_readJoinKeyword.bind fun kind => soundFrom_skipBlanks.bind fun _ => ?_
  refine (soundFrom_readWhile _).bind fun table => ?_
  refine (soundFrom_fail _).unless (soundFrom_skipBlanks.bind fun _ => ?_)
  refine (soundFrom_expect _ _).bind fun _ => soundFrom_skipBlanks.bind fun _ => ?_
  refine (soundFrom_readWhile _).bind fun left => soundFrom_skipBlanks.bind fun _ => ?_
  refine soundFrom_position_bind fun kept _ => (soundFrom_readWhile _).bind fun operator => ?_
  refine (soundFrom_failFrom _).unless (soundFrom_skipBlanks.bind fun _ => ?_)
  refine (soundFrom_readWhile _).bind fun right => (soundFrom_fail _).unless ?_
  exact (soundFrom_endClause _).bind fun _ => soundFrom_pure _

theorem soundFrom_readCondition : SoundFrom start readCondition := by
  refine (soundFrom_nonempty (fun _ => soundFrom_readWhile _) _).bind fun field => ?_
  refine (soundFrom_nonempty (fun _ => soundFrom_readWhile _) _).bind fun operator => ?_
  exact (soundFrom_nonempty (fun _ => soundFrom_readLiteral) _).bind fun literal =>
    soundFrom_pure _

theorem soundFrom_readConditions : SoundFrom start readConditions :=
  (soundFrom_expect _ _).bind fun _ =>
    soundFrom_listWithin .conditions soundFrom_readCondition soundFrom_nextOrAnd

theorem soundFrom_readGrouping : SoundFrom start readGrouping :=
  (soundFrom_expect _ _).bind fun _ =>
    soundFrom_listWithin .grouping (soundFrom_nonempty (fun _ => soundFrom_readWhile _) _)
      (soundFrom_commaOrNext _)

theorem soundFrom_readDirection : SoundFrom start readDirection := by
  refine (soundFrom_accept .ascending).bind fun ascends => ?_
  split
  · exact soundFrom_pure _
  · refine (soundFrom_accept .descending).bind fun descends => ?_
    split
    · exact soundFrom_pure _
    · exact soundFrom_pure _

theorem soundFrom_readSortKey : SoundFrom start readSortKey := by
  refine soundFrom_readItem.bind fun field => (soundFrom_fail _).unless ?_
  refine soundFrom_skipBlanks.bind fun _ => ?_
  exact soundFrom_readDirection.bind fun direction => soundFrom_pure _

theorem soundFrom_readOrdering : SoundFrom start readOrdering :=
  (soundFrom_expect _ _).bind fun _ =>
    soundFrom_listWithin .ordering (soundFrom_skipBlanks.bind fun _ => soundFrom_readSortKey)
      (soundFrom_commaOrNext _)

theorem soundFrom_readLimit : SoundFrom start readLimit := by
  refine (soundFrom_expect _ _).bind fun _ => soundFrom_skipBlanks.bind fun _ => ?_
  refine soundFrom_position_bind fun kept _ => (soundFrom_readWhile _).bind fun word => ?_
  split
  · exact (soundFrom_endClause _).bind fun _ => soundFrom_pure _
  · exact soundFrom_failFrom _

theorem soundFrom_readClause (query : Query) (clause : Phase) :
    SoundFrom start (readClause query clause) := by
  refine soundFrom_phase.bind fun phase => ?_
  split
  · exact soundFrom_pure query
  cases clause with
  | fields =>
    refine soundFrom_readFields.bind fun fields => soundFrom_phase.bind fun phase => ?_
    exact (soundFrom_fail _).unless (soundFrom_pure _)
  | table => exact soundFrom_readTable.bind fun _ => soundFrom_pure _
  | join => exact soundFrom_readJoin.bind fun _ => soundFrom_pure _
  | conditions => exact soundFrom_readConditions.bind fun _ => soundFrom_pure _
  | grouping => exact soundFrom_readGrouping.bind fun _ => soundFrom_pure _
  | ordering => exact soundFrom_readOrdering.bind fun _ => soundFrom_pure _
  | limit => exact soundFrom_readLimit.bind fun _ => soundFrom_pure _
  | done => exact soundFrom_pure query

theorem soundFrom_clauses (clauses : List Phase) (query : Query) :
    SoundFrom start (clauses.foldlM readClause query) := by
  induction clauses generalizing query with
  | nil => exact soundFrom_pure query
  | cons clause rest ih => exact (soundFrom_readClause query clause).bind fun query => ih query

theorem soundFrom_readQuery : SoundFrom start readQuery := by
  refine soundFrom_skipBlanks.bind fun _ => (soundFrom_expect _ _).bind fun _ => ?_
  refine (soundFrom_enter _).bind fun _ => (soundFrom_clauses _ _).bind fun query => ?_
  exact soundFrom_pure _

end Reader

/-- An error lies inside the statement and shows the characters from its start up to and with the
one at its end, if there is one. -/
theorem Query.parse_error_shows {statement : String} {error : SyntaxError}
    (refused : Query.parse statement = .error error) :
    error.start ≤ error.stop ∧ error.stop ≤ statement.length ∧
      error.text.toList =
        (statement.toList.take (min (error.stop + 1) statement.length)).drop error.start := by
  unfold Query.parse Reader.read at refused
  split at refused
  · cases refused
  · rename_i found after ran
    cases refused
    have points := Reader.soundFrom_readQuery.failed (Nat.zero_le _) (Nat.le_refl _) ran
    exact ⟨points.ordered, points.within, points.shown⟩

/-- A literal that is not closed is shown from its quote to the end, characters and not bytes
counted. -/
theorem Query.parse_error_shows_literal :
    Query.parse "SELECT a FROM t WHERE b = 'é" = .error ⟨.unterminatedText, "'é", 26, 28⟩ ∧
      26 ≤ 28 ∧ 28 ≤ "SELECT a FROM t WHERE b = 'é".length ∧
      "'é".toList = ("SELECT a FROM t WHERE b = 'é".toList.take
        (min 29 "SELECT a FROM t WHERE b = 'é".length)).drop 26 := by
  have refused : Query.parse "SELECT a FROM t WHERE b = 'é" =
      .error ⟨.unterminatedText, "'é", 26, 28⟩ := by decide +kernel
  exact ⟨refused, Query.parse_error_shows refused⟩

end TableQuery
