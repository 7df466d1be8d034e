import TableQuery.Proofs.Statement.Token

/-! Every text of a well-formed query is read, and as that query. One lemma for each reader tells
the place where it begins and the place where it stops. -/
namespace TableQuery
open Token

section NextClause

variable {c : Cursor}

theorem Cursor.rest_skipBlanks {g t : List Char} (blank : g ∈ blanks)
    (stop : ∀ ch ∈ t.head?, isBlank ch = false) (rest : c.rest = g ++ t) :
    c.skipBlanks.rest = t := by
  rw [skipBlanks, rest, takeWhile_append_of_stop blank stop, rest_forward, rest, List.drop_left]

theorem Cursor.nextClause_of_nil (rest : c.skipBlanks.rest = []) :
    c.nextClause = (true, { c.skipBlanks with phase := .done }) := by
  simp only [nextClause, rest]

theorem Cursor.nextClause_of_semicolon {after : List Char} (rest : c.skipBlanks.rest = ';' :: after)
    (blank : after ∈ blanks) :
    c.nextClause =
      (true, { c.skipBlanks.forward (after.length + 1) with phase := .done }) := by
  have all : after.all isBlank := List.all_eq_true.mpr blank
  simp only [nextClause, rest, all, if_true]

theorem Cursor.nextClause_of_following {ch : Char} {t : List Char}
    (rest : c.skipBlanks.rest = ch :: t) (other : ch ≠ ';') :
    c.nextClause =
      match c.phase.following? (ch :: t) with
      | some phase => (true, { c.skipBlanks with phase })
      | none => (false, c.skipBlanks) := by
  unfold nextClause
  simp only [rest]
  split
  · rename_i same
    cases same
  · rename_i same
    cases same
    exact absurd rfl other
  · rfl

/-- A place that the reading may move on to from a clause: the end, or a clause whose texts all
begin with its keyword. -/
def Place.After (place : Place) (phase : Phase) : Prop :=
  if place.phase = .done then place = .finish
  else ∀ t ∈ place.texts, phase.following? t = some place.phase

theorem Place.lead_finish (loose : Bool) : Place.finish.lead loose = ending := if_pos rfl

theorem Place.lead_clause {place : Place} (unfinished : place.phase ≠ .done) (loose : Bool) :
    place.lead loose = space loose * place.texts := if_neg unfinished

theorem space_subset_blanks {loose : Bool} {g : List Char} (mem : g ∈ space loose) :
    g ∈ blanks := by
  cases loose with
  | false => exact gap_subset_blanks mem
  | true => exact mem

theorem Reader.takes_nextClause {phase : Phase} {place : Place} (loose : Bool)
    (after : place.After phase) : nextClause.Takes ⟨phase, place.lead loose⟩ true place := by
  rintro c ⟨same, mem⟩
  refine ⟨c.nextClause.2, ?_⟩
  change c.phase = phase at same
  change c.rest ∈ place.lead loose at mem
  unfold Place.After at after
  split at after
  · subst after
    rw [Place.lead_finish] at mem
    obtain blank | ⟨g, blank, _, ⟨_, rfl, more, blank', rfl⟩, rest⟩ := mem
    · have rest : c.skipBlanks.rest = [] :=
        Cursor.rest_skipBlanks blank nofun (List.append_nil _).symm
      rw [Cursor.nextClause_of_nil rest]
      exact ⟨by simp [nextClause, Cursor.nextClause_of_nil rest], rfl, rest⟩
    · have rest : c.skipBlanks.rest = ';' :: more :=
        Cursor.rest_skipBlanks blank (by simp +decide) rest.symm
      rw [Cursor.nextClause_of_semicolon rest blank']
      refine ⟨by simp [nextClause, Cursor.nextClause_of_semicolon rest blank'], rfl, ?_⟩
      change (c.skipBlanks.forward (more.length + 1)).rest = []
      rw [Cursor.rest_forward, rest]
      simp
  · rename_i unfinished
    rw [Place.lead_clause unfinished] at mem
    obtain ⟨g, space, t, memT, rest⟩ := mem
    have blank := space_subset_blanks space
    have following := after t memT
    obtain ⟨ch, u, rfl, letter⟩ := (follows_of_following? following).letter
    have rest : c.skipBlanks.rest = ch :: u :=
      Cursor.rest_skipBlanks blank (by simp [not_isBlank_of_isWordChar letter]) rest.symm
    have other : ch ≠ ';' := by
      rintro rfl
      exact absurd letter (by decide)
    have step := Cursor.nextClause_of_following rest other
    rw [same, following] at step
    refine ⟨by simp [nextClause, step], ?_, ?_⟩
    · rw [step]
    · rw [step]
      exact rest ▸ memT

/-- Where a word stands that begins no clause, nothing but the blanks before it is read. -/
theorem Reader.takes_nextClause_none {phase : Phase} {L : Language Char} (loose : Bool)
    (letter : ∀ t ∈ L, ∃ ch u, t = ch :: u ∧ isWordChar ch)
    (unled : ∀ t ∈ L, phase.following? t = none) :
    nextClause.Takes ⟨phase, space loose * L⟩ false ⟨phase, L⟩ := by
  rintro c ⟨same, g, space, t, memT, rest⟩
  obtain ⟨ch, u, rfl, word⟩ := letter t memT
  have rest : c.skipBlanks.rest = ch :: u :=
    Cursor.rest_skipBlanks (space_subset_blanks space)
      (by simp [not_isBlank_of_isWordChar word]) rest.symm
  have other : ch ≠ ';' := by
    rintro rfl
    exact absurd word (by decide)
  have step := Cursor.nextClause_of_following rest other
  change c.phase = phase at same
  rw [same, unled _ memT] at step
  exact ⟨c.skipBlanks, by simp [nextClause, step], same, rest ▸ memT⟩

namespace Place

/-- The texts at the end of a statement or at a place, with the blanks before them read. -/
def start (place : Place) : Language Char :=
  if place.phase = .done then 1 + mark ';' * blanks else place.texts

theorem lead_true (place : Place) : place.lead true = blanks * place.start := by
  unfold lead start
  split
  · rw [ending, mul_add, mul_one]
  · rfl

theorem After.begins_start {phase : Phase} {place : Place} (after : place.After phase) :
    Begins (fun c => isWordChar c || c == ';') place.start := by
  unfold After at after
  unfold start
  split at after
  · rename_i finished
    rw [if_pos finished]
    rintro t (rfl | ⟨_, rfl, more, -, rfl⟩) c head
    · simp at head
    · obtain rfl : ';' = c := by simpa using head
      decide
  · rename_i unfinished
    rw [if_neg unfinished]
    intro t mem c head
    obtain ⟨d, u, rfl, letter⟩ := (follows_of_following? (after t mem)).letter
    obtain rfl : d = c := by simpa using head
    simp [letter]

theorem begins_lead (place : Place) :
    Begins (fun c => isBlank c || c == ';') (place.lead false) := by
  unfold lead
  split
  · rintro t (blank | ⟨g, blank, _, ⟨_, rfl, more, -, rfl⟩, rfl⟩) c head
    · simp [begins_blanks t blank c head]
    · cases g with
      | nil =>
        obtain rfl : ';' = c := by simpa using head
        decide
      | cons d g =>
        obtain rfl : d = c := by simpa using head
        simp [blank d List.mem_cons_self]
  · exact (begins_gap.mul nil_notMem_gap).mono (by simp +contextual)

theorem start_subset_lead (place : Place) {t : List Char} (mem : t ∈ place.start) :
    t ∈ place.lead true := by
  rw [lead_true]
  exact ⟨[], nil_mem_blanks, t, mem, rfl⟩

end Place

namespace Reader

variable {phase : Phase} {place : Place}

theorem takes_endClause (problem : SyntaxProblem) (loose : Bool) (after : place.After phase) :
    (endClause problem).Takes ⟨phase, place.lead loose⟩ () place :=
  (takes_nextClause loose after).bind (Takes.pure () _)

theorem takes_commaOrNext_comma (problem : SyntaxProblem) (R : Language Char) :
    (commaOrNext problem).Takes ⟨phase, blanks * (mark ',' * R)⟩ true ⟨phase, R⟩ := by
  have stop : ∀ t ∈ mark ',' * R, ∀ c ∈ t.head?, isBlank c = false := by
    rintro _ ⟨_, rfl, t, -, rfl⟩ c head
    obtain rfl : ',' = c := by simpa using head
    decide
  exact (takes_skipBlanks stop).bind ((takes_acceptChar ',').bind (Takes.pure true _))

theorem takes_commaOrNext_next (problem : SyntaxProblem) (after : place.After phase) :
    (commaOrNext problem).Takes ⟨phase, place.lead true⟩ false place := by
  have begins := after.begins_start
  have stop : ∀ t ∈ place.start, ∀ c ∈ t.head?, isBlank c = false := by
    intro t mem c head
    have first := begins t mem c head
    simp only [Bool.or_eq_true, beq_iff_eq] at first
    rcases first with letter | rfl
    · exact not_isBlank_of_isWordChar letter
    · decide
  have other : ∀ t ∈ place.start, t.head? ≠ some ',' := by
    intro t mem comma
    exact absurd (begins t mem ',' comma) (by decide)
  rw [Place.lead_true]
  refine (takes_skipBlanks stop).bind ((takes_acceptChar_false other).bind ?_)
  have next := (takes_endClause problem true after).of_subset fun t => place.start_subset_lead
  exact next.bind (Takes.pure false _)

section Lists

variable {α : Type} {item : Reader α} {more : Reader Bool} {advances : more.Advances}
  {here mid next there : Place} {x : α} {xs : List α}

/-- What is done once some items of a list are read: as long as more follow, they are read too. -/
def listAfter (item : Reader α) (more : Reader Bool) (advances : more.Advances) (read : List α) :
    Reader (List α) := do
  if ← more then return read ++ (← list item more advances) else return read

theorem run_list (c : Cursor) :
    (list item more advances).run c = runList item more advances c := rfl

theorem goesOn_list_last (first : item.Takes here x mid) :
    (list item more advances).GoesOn here (listAfter item more advances [x]) mid := by
  intro c at_
  obtain ⟨d, ran, at_⟩ := first c at_
  refine ⟨d, ?_, at_⟩
  rw [run_list, runList_eq, ran]
  simp only [listAfter, run_bind]
  cases more.run d with
  | failed error e => rfl
  | done follows e =>
    cases follows with
    | false => rfl
    | true =>
      simp only [if_true, run_bind, run_list]
      cases runList item more advances e <;> rfl

theorem goesOn_list_cons (first : item.Takes here x mid) (goes : more.Takes mid true next)
    (rest : (list item more advances).GoesOn next (listAfter item more advances xs) there) :
    (list item more advances).GoesOn here (listAfter item more advances (x :: xs)) there := by
  intro c at_
  obtain ⟨d, ran, at_⟩ := first c at_
  obtain ⟨e, asked, at_⟩ := goes d at_
  obtain ⟨f, others, at_⟩ := rest e at_
  refine ⟨f, ?_, at_⟩
  rw [run_list] at others ⊢
  rw [runList_eq, ran]
  simp only [asked, others, listAfter, run_bind]
  cases more.run f with
  | failed error g => rfl
  | done follows g =>
    cases follows with
    | false => rfl
    | true =>
      simp only [if_true, run_bind, run_list]
      cases runList item more advances g <;> rfl

theorem takes_listAfter (ends : more.Takes mid false there) :
    (listAfter item more advances xs).Takes mid xs there :=
  ends.bind (Takes.pure xs there)

theorem goesOn_listWithin {later : Reader (List α)}
    (goes : (list item more advances).GoesOn here later there) :
    (listWithin here.phase item more advances).GoesOn here later there := by
  refine GoesOn.bind (takes_phase here) ?_
  rw [if_pos rfl]
  exact goes

/-- A comma list is read item by item, when each item is read before a comma and before what
stands after the list. Then comes the question whether one more follows. -/
theorem goesOn_commaList {texts : α → Language Char} {L M : Language Char}
    (problem : SyntaxProblem) (some : xs ≠ [])
    (inner : ∀ x ∈ xs, ∀ R, item.Takes ⟨phase, blanks * (texts x * (blanks * (mark ',' * R)))⟩ x
      ⟨phase, blanks * (mark ',' * R)⟩)
    (last : ∀ x ∈ xs, item.Takes ⟨phase, blanks * (texts x * L)⟩ x ⟨phase, M⟩) :
    (list item (commaOrNext problem) (commaOrNext_advances problem)).GoesOn
      ⟨phase, blanks * (commaList (xs.map texts) * L)⟩
      (listAfter item (commaOrNext problem) (commaOrNext_advances problem) xs) ⟨phase, M⟩ := by
  induction xs with
  | nil => exact absurd rfl some
  | cons x xs ih =>
    cases xs with
    | nil => exact goesOn_list_last (last x List.mem_cons_self)
    | cons y ys =>
      have rest := ih (List.cons_ne_nil y ys) (fun z mem => inner z (List.mem_cons_of_mem x mem))
        (fun z mem => last z (List.mem_cons_of_mem x mem))
      have first := inner x List.mem_cons_self (blanks * (commaList ((y :: ys).map texts) * L))
      have whole := goesOn_list_cons first (takes_commaOrNext_comma problem _) rest
      simpa only [List.map_cons, commaList, mul_assoc] using whole

end Lists

section Items

variable {L : Language Char}

theorem takes_nonempty {token : Reader String} {s : String} {there : Place}
    (problem : SyntaxProblem) (some : s ≠ "") (stop : ∀ t ∈ L, ∀ c ∈ t.head?, isBlank c = false)
    (takes : token.Takes ⟨phase, L⟩ s there) :
    (nonempty token problem).Takes ⟨phase, blanks * L⟩ s there := by
  have full : s.isEmpty = false := by simpa using some
  refine (takes_skipBlanks stop).bind (Takes.position_bind fun start => takes.bind ?_)
  simp only [full, Bool.false_eq_true, if_false]
  exact Takes.pure s there

theorem head_verbatim {kept : Char → Bool} {s : String} (run : IsRun kept s) :
    ∀ t ∈ verbatim s * L, ∀ c ∈ t.head?, kept c := by
  refine Begins.mul ?_ ?_
  · rintro _ rfl c head
    exact run.2 c (List.mem_of_head? head)
  · intro empty
    exact run.1 (by rw [← String.toList_inj]; exact empty.symm)

theorem head_itemTexts {item : String} (isItem : IsItem item) :
    ∀ t ∈ itemTexts item * L, ∀ c ∈ t.head?, isBlank c = false := by
  rintro _ ⟨w, ⟨same, enclosed⟩, t, -, rfl⟩ c head
  cases w with
  | nil => exact absurd (String.toList_inj.mp (same.symm.trans rfl)) isItem.nonempty
  | cons d w =>
    obtain rfl : d = c := by simpa using head
    cases blank : isBlank d with
    | false => rfl
    | true =>
      have := enclosed [] d w rfl blank
      simp at this

theorem endsWord_of_comma (R : Language Char) : Begins endsWord (blanks * (mark ',' * R)) := by
  refine (begins_blanks.mono ?_).mul' (Begins.mul ?_ ?_)
  · simp +contextual [endsWord]
  · rintro _ rfl c head
    obtain rfl : ',' = c := by simpa using head
    decide
  · exact fun empty => List.cons_ne_nil _ _ empty.symm

theorem endsWord_of_lead (place : Place) : Begins endsWord (place.lead false) := by
  refine place.begins_lead.mono fun c first => ?_
  simp only [Bool.or_eq_true, beq_iff_eq] at first
  rcases first with blank | rfl
  · simp [endsWord, blank]
  · decide

theorem lead_false_subset (place : Place) {t : List Char} (mem : t ∈ place.lead false) :
    t ∈ place.lead true := by
  unfold Place.lead at mem ⊢
  split
  · rename_i finished
    rwa [if_pos finished] at mem
  · rename_i unfinished
    rw [if_neg unfinished] at mem
    obtain ⟨g, space, t, memT, rfl⟩ := mem
    exact ⟨g, gap_subset_blanks space, t, memT, rfl⟩

theorem Takes.lead {α : Type} {reader : Reader α} {here : Place} {x : α}
    (takes : reader.Takes here x ⟨phase, place.lead false⟩) :
    reader.Takes here x ⟨phase, place.lead true⟩ := by
  intro c at_
  obtain ⟨d, ran, same, mem⟩ := takes c at_
  exact ⟨d, ran, same, lead_false_subset place mem⟩

theorem takes_word {word : String} (isWord : IsWord word) (problem : SyntaxProblem)
    (stop : Begins endsWord L) :
    (nonempty readWord problem).Takes ⟨phase, blanks * (verbatim word * L)⟩ word ⟨phase, L⟩ := by
  refine takes_nonempty problem isWord.1 ?_ (takes_readWhile isWord stop.not)
  intro t mem c head
  have := head_verbatim isWord t mem c head
  simp only [endsWord, Bool.not_eq_true', Bool.or_eq_false_iff] at this
  exact this.1.1

theorem takes_field {item : String} (isItem : IsItem item) (problem : SyntaxProblem)
    (stop : Begins endsWord L) :
    (nonempty readItem problem).Takes ⟨phase, blanks * (itemTexts item * L)⟩ item ⟨phase, L⟩ :=
  takes_nonempty problem isItem.nonempty (head_itemTexts isItem) (takes_readItem isItem stop)

section SortKeys

variable {S : Language Char} {key : SortKey}

theorem Takes.union {α : Type} {reader : Reader α} {M : Language Char} {there : Place} {x : α}
    (left : reader.Takes ⟨phase, L⟩ x there) (right : reader.Takes ⟨phase, M⟩ x there) :
    reader.Takes ⟨phase, L + M⟩ x there := by
  rintro c ⟨same, mem | mem⟩
  · exact left c ⟨same, mem⟩
  · exact right c ⟨same, mem⟩

theorem Takes.assoc {α β γ : Type} {first : Reader α} {next : α → Reader β} {last : β → Reader γ}
    {here there : Place} {x : γ} (takes : ((first >>= next) >>= last).Takes here x there) :
    (first >>= fun a => next a >>= last).Takes here x there := by
  intro c at_
  obtain ⟨d, ran, at_⟩ := takes c at_
  refine ⟨d, ?_, at_⟩
  rw [← ran]
  simp only [run_bind]
  cases first.run c <;> rfl

theorem Takes.widen {α : Type} {reader : Reader α} {here : Place} {M : Language Char} {x : α}
    (takes : reader.Takes here x ⟨phase, L⟩) (sub : ∀ t ∈ L, t ∈ M) :
    reader.Takes here x ⟨phase, M⟩ := by
  intro c at_
  obtain ⟨d, ran, same, mem⟩ := takes c at_
  exact ⟨d, ran, same, sub _ mem⟩

/-- What may stand after a sort key, once blanks are read: nothing that looks like a direction. -/
structure EndsKey (S : Language Char) : Prop where
  unblank : ∀ t ∈ S, ∀ c ∈ t.head?, isBlank c = false
  ascending : ∀ t ∈ S, Keyword.ascending.isFront t = false
  descending : ∀ t ∈ S, Keyword.descending.isFront t = false

theorem takes_direction_none (ends : EndsKey S) :
    readDirection.Takes ⟨phase, S⟩ .ascending ⟨phase, S⟩ :=
  (takes_accept_false ends.ascending).bind
    ((takes_accept_false ends.descending).bind (Takes.pure _ _))

theorem takes_direction {keyword : Keyword} (shape : keyword = .ascending ∨ keyword = .descending)
    (stop : Begins endsWord L) :
    (accept keyword).Takes ⟨phase, keyword.spellings * L⟩ true ⟨phase, L⟩ := by
  refine takes_accept fun t mem => ?_
  have ends := stop t mem
  cases t with
  | nil => rcases shape with rfl | rfl <;> rfl
  | cons c t =>
    have := ends c rfl
    simp only [endsWord, Bool.or_eq_true, beq_iff_eq] at this
    rcases shape with rfl | rfl <;>
      simpa [Keyword.mayPrecede, Keyword.ascending, Keyword.descending, or_assoc] using this

/-- After the item of a sort key: the direction, where one is written, and the blanks. -/
theorem takes_sortKey_rest (ends : EndsKey S) (stop : Begins endsWord L)
    (sub : ∀ t ∈ L, t ∈ blanks * S) (direction : Direction) :
    (do skipBlanks; readDirection : Reader Direction).Takes ⟨phase, direction.texts * L⟩ direction
      ⟨phase, blanks * S⟩ := by
  have spaced : ∀ t ∈ S, t ∈ blanks * S := fun t mem => ⟨[], nil_mem_blanks, t, mem, rfl⟩
  have loosen (M : Language Char) : ∀ t ∈ gap * M, t ∈ blanks * M := by
    rintro _ ⟨g, space, t, mem, rfl⟩
    exact ⟨g, gap_subset_blanks space, t, mem, rfl⟩
  cases direction with
  | ascending =>
    rw [Direction.texts, add_mul, one_mul, mul_assoc]
    refine Takes.union (Takes.of_subset ?_ sub) (Takes.of_subset ?_ (loosen _))
    · exact ((takes_skipBlanks ends.unblank).bind (takes_direction_none ends)).widen spaced
    · refine Takes.widen ((takes_skipBlanks (Keyword.unblank_of_mem rfl rfl)).bind ?_) sub
      exact (takes_direction (.inl rfl) stop).bind (Takes.pure _ _)
  | descending =>
    rw [Direction.texts, mul_assoc]
    refine Takes.of_subset ?_ (loosen _)
    refine Takes.widen ((takes_skipBlanks (Keyword.unblank_of_mem rfl rfl)).bind ?_) sub
    refine (takes_accept_false fun t mem => ?_).bind
      ((takes_direction (.inr rfl) stop).bind (Takes.pure _ _))
    exact Keyword.not_isFront_of_spelled .ascending mem (by decide) (by decide)

theorem takes_sortKey (isItem : IsItem key.field) (ends : EndsKey S) (stop : Begins endsWord L)
    (sub : ∀ t ∈ L, t ∈ blanks * S) :
    (do skipBlanks; readSortKey : Reader SortKey).Takes ⟨phase, blanks * (key.texts * L)⟩ key
      ⟨phase, blanks * S⟩ := by
  have full : key.field.isEmpty = false := by simpa using isItem.nonempty
  have stopItem : Begins endsWord (key.direction.texts * L) := by
    have first : Begins endsWord gap := begins_gap.mono (by simp +contextual [endsWord])
    cases key.direction with
    | ascending =>
      rw [Direction.texts, add_mul, one_mul, mul_assoc]
      rintro t (mem | mem)
      · exact stop t mem
      · exact first.mul nil_notMem_gap t mem
    | descending =>
      rw [Direction.texts, mul_assoc]
      exact first.mul nil_notMem_gap
  rw [SortKey.texts, mul_assoc]
  refine (takes_skipBlanks (head_itemTexts isItem)).bind
    ((takes_readItem isItem stopItem).bind ?_)
  simp only [full, Bool.false_eq_true, if_false]
  refine Takes.assoc ?_
  exact (takes_sortKey_rest ends stop sub key.direction).bind (Takes.pure key _)

end SortKeys

end Items

end Reader
end NextClause
end TableQuery
