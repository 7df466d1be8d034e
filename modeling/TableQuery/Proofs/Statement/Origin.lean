import TableQuery.Proofs.Statement.QueryAcceptance

/-! What a reader gives stood in the text. Each lemma starts from a run that ended well and tells
what was read, and what the text was if what is left after the run is a text of some language. -/
namespace TableQuery
open Token

namespace Cursor

variable {c : Cursor} {L : Language Char}

theorem rest_forward_takeWhile (c : Cursor) (p : Char → Bool) :
    (c.forward (c.rest.takeWhile p).length).rest = c.rest.dropWhile p := by
  rw [rest_forward]
  induction c.rest with
  | nil => rfl
  | cons ch rest ih =>
    by_cases kept : p ch
    · simpa [kept] using ih
    · simp [kept]

theorem rest_skipBlanks_eq (c : Cursor) : c.skipBlanks.rest = c.rest.dropWhile isBlank :=
  c.rest_forward_takeWhile isBlank

theorem takeWhile_mem_blanks (c : Cursor) : c.rest.takeWhile isBlank ∈ blanks :=
  List.all_eq_true.mp List.all_takeWhile

theorem takeWhile_append_skipBlanks (c : Cursor) :
    c.rest.takeWhile isBlank ++ c.skipBlanks.rest = c.rest := by
  rw [rest_skipBlanks_eq]
  exact List.takeWhile_append_dropWhile

theorem mem_blanks (mem : c.skipBlanks.rest ∈ L) : c.rest ∈ blanks * L :=
  ⟨_, c.takeWhile_mem_blanks, _, mem, c.takeWhile_append_skipBlanks⟩

theorem mem_gap {b : Char} {more : List Char} (starts : c.rest = b :: more) (blank : isBlank b)
    (mem : c.skipBlanks.rest ∈ L) : c.rest ∈ gap * L := by
  refine ⟨_, ⟨?_, c.takeWhile_mem_blanks⟩, _, mem, c.takeWhile_append_skipBlanks⟩
  simp [starts, blank]

/-- A clause or the end is reached from a cursor by reading blanks, or the semicolon at the end. -/
def Leaves (c d : Cursor) : Prop :=
  d.phase = .done ∧ d.rest = [] ∧ c.rest ∈ ending ∨
    d.phase ≠ .done ∧ c.phase.following? d.rest = some d.phase ∧ ∃ g ∈ blanks, c.rest = g ++ d.rest

def Reached (phase : Phase) (d : Cursor) : Prop :=
  d.phase = .done ∧ d.rest = [] ∨ d.phase ≠ .done ∧ phase.following? d.rest = some d.phase

theorem Leaves.reached {d : Cursor} (h : c.Leaves d) : d.Reached c.phase := by
  rcases h with ⟨finished, rest, -⟩ | ⟨unfinished, following, -⟩
  · exact .inl ⟨finished, rest⟩
  · exact .inr ⟨unfinished, following⟩

theorem blanks_append_ending {g t : List Char} (blank : g ∈ blanks) (mem : t ∈ ending) :
    g ++ t ∈ ending := by
  have both {u : List Char} (blank' : u ∈ blanks) : g ++ u ∈ blanks := by
    intro ch mem
    rcases List.mem_append.mp mem with mem | mem
    · exact blank ch mem
    · exact blank' ch mem
  rcases mem with blank' | ⟨u, blank', m, mem, rfl⟩
  · exact .inl (both blank')
  · exact .inr ⟨g ++ u, both blank', m, mem, List.append_assoc g u m⟩

theorem Leaves.of_skipBlanks {d : Cursor} (h : c.skipBlanks.Leaves d) : c.Leaves d := by
  have split := c.takeWhile_append_skipBlanks
  have blank := c.takeWhile_mem_blanks
  rcases h with ⟨finished, rest, mem⟩ | ⟨unfinished, following, g, blank', mem⟩
  · refine .inl ⟨finished, rest, ?_⟩
    rw [← split]
    exact blanks_append_ending blank mem
  · refine .inr ⟨unfinished, following, c.rest.takeWhile isBlank ++ g, ?_, ?_⟩
    · intro ch mem
      rcases List.mem_append.mp mem with mem | mem
      · exact blank ch mem
      · exact blank' ch mem
    · rw [List.append_assoc, ← mem, split]

theorem leaves_of_nextClause {d : Cursor} (h : c.nextClause = (true, d)) : c.Leaves d := by
  refine Leaves.of_skipBlanks ?_
  unfold nextClause at h
  dsimp only at h
  split at h
  · rename_i rest
    obtain ⟨-, rfl⟩ := Prod.mk.inj h
    refine .inl ⟨rfl, rest, ?_⟩
    rw [rest]
    exact .inl nil_mem_blanks
  · rename_i after rest
    split at h
    · rename_i blank
      obtain ⟨-, rfl⟩ := Prod.mk.inj h
      refine .inl ⟨rfl, ?_, ?_⟩
      · change (c.skipBlanks.forward (after.length + 1)).rest = []
        rw [rest_forward, rest]
        simp
      · rw [rest]
        exact .inr ⟨[], nil_mem_blanks, _, ⟨[';'], rfl, after, List.all_eq_true.mp blank, rfl⟩, rfl⟩
    · cases h
  · split at h
    · rename_i phase following
      obtain ⟨-, rfl⟩ := Prod.mk.inj h
      have unfinished := (follows_of_following? following).unfinished
      exact .inr ⟨unfinished, following, [], nil_mem_blanks, rfl⟩
    · cases h

theorem nextClause_of_false (refused : c.nextClause.1 = false) : c.nextClause.2 = c.skipBlanks := by
  revert refused
  unfold nextClause
  dsimp only
  split
  · nofun
  · split
    · nofun
    · exact fun _ => rfl
  · split
    · nofun
    · exact fun _ => rfl

theorem Leaves.mem_lead_true {d : Cursor} {place : Place} (h : c.Leaves d) (at_ : d.At place) :
    c.rest ∈ place.lead true := by
  unfold Place.lead
  rcases h with ⟨finished, -, mem⟩ | ⟨unfinished, -, g, blank, rest⟩
  · rw [if_pos (at_.1 ▸ finished)]
    exact mem
  · rw [if_neg (at_.1 ▸ unfinished)]
    exact ⟨g, blank, d.rest, at_.2, rest.symm⟩

/-- Where no word goes on, blanks must stand before the next clause. -/
theorem Leaves.mem_lead {d : Cursor} {place : Place} (h : c.Leaves d)
    (stop : ∀ ch ∈ c.rest.head?, isWordChar ch = false) (at_ : d.At place) :
    c.rest ∈ place.lead false := by
  unfold Place.lead
  rcases h with ⟨finished, -, mem⟩ | ⟨unfinished, following, g, blank, rest⟩
  · rw [if_pos (at_.1 ▸ finished)]
    exact mem
  · rw [if_neg (at_.1 ▸ unfinished)]
    refine ⟨g, ⟨?_, blank⟩, d.rest, at_.2, rest.symm⟩
    rintro rfl
    obtain ⟨ch, more, starts, letter⟩ := (follows_of_following? following).letter
    rw [rest, List.nil_append, starts] at stop
    simp [stop ch rfl] at letter

end Cursor

namespace Reader

variable {α β : Type} {c d : Cursor} {L : Language Char}

theorem run_bind_done {first : Reader α} {next : α → Reader β} {b : β}
    (ran : (first >>= next).run c = .done b d) :
    ∃ a m, first.run c = .done a m ∧ (next a).run m = .done b d := by
  rw [run_bind] at ran
  cases eq : first.run c with
  | done a m =>
    rw [eq] at ran
    exact ⟨a, m, rfl, ran⟩
  | failed error m =>
    rw [eq] at ran
    cases ran

theorem pure_done {a b : α} (ran : (Pure.pure a : Reader α).run c = .done b d) : a = b ∧ c = d := by
  cases ran
  exact ⟨rfl, rfl⟩

theorem skipBlanks_bind_done {next : Unit → Reader β} {b : β}
    (ran : (skipBlanks >>= next).run c = .done b d) : (next ()).run c.skipBlanks = .done b d := ran

theorem position_bind_done {next : Nat → Reader β} {b : β}
    (ran : (position >>= next).run c = .done b d) : (next c.position).run c = .done b d := ran

theorem phase_bind_done {next : Phase → Reader β} {b : β}
    (ran : (Reader.phase >>= next).run c = .done b d) : (next c.phase).run c = .done b d := ran

structure TookRun (kept : Char → Bool) (c : Cursor) (s : String) (d : Cursor) : Prop where
  phase : d.phase = c.phase
  run : ∀ ch ∈ s.toList, kept ch
  stop : ∀ ch ∈ d.rest.head?, kept ch = false
  mem : ∀ {L : Language Char}, d.rest ∈ L → c.rest ∈ verbatim s * L

theorem readWhile_done {kept : Char → Bool} {s : String}
    (ran : (readWhile kept).run c = .done s d) : TookRun kept c s d := by
  cases ran
  have split := List.takeWhile_append_dropWhile (p := kept) (l := c.rest)
  refine ⟨rfl, ?_, ?_, ?_⟩
  · rw [String.toList_ofList]
    exact List.all_eq_true.mp List.all_takeWhile
  · rw [Cursor.rest_forward_takeWhile]
    intro ch head
    have := List.head?_dropWhile_not kept c.rest
    rw [head] at this
    exact this
  · intro L mem
    rw [Cursor.rest_forward_takeWhile] at mem
    exact ⟨_, String.toList_ofList.symm, _, mem, split⟩

/-- A keyword that was read, with the blank after it still to read. -/
structure TookKeyword (keyword : Keyword) (c d : Cursor) : Prop where
  phase : d.phase = c.phase
  blank : ∃ b more, d.rest = b :: more ∧ isBlank b
  mem : ∀ {L : Language Char}, d.skipBlanks.rest ∈ L → c.rest ∈ keyword.spellings * (gap * L)

theorem accept_true_done {keyword : Keyword} (ran : (accept keyword).run c = .done true d) :
    d.phase = c.phase ∧
      ∃ w ∈ keyword.spellings, c.rest = w ++ d.rest ∧ keyword.mayPrecede d.rest := by
  rw [run_accept] at ran
  split at ran
  · rename_i front
    obtain ⟨w, spelled, rest, split, follows⟩ := Keyword.isFront_iff.mp front
    have length : w.length = keyword.word.length := by rw [← spelled, List.length_map]
    cases ran
    refine ⟨rfl, w, spelled, ?_, ?_⟩ <;> rw [Cursor.rest_forward, split, ← length, List.drop_left]
    exact follows
  · cases ran

theorem accept_false_done {keyword : Keyword} (ran : (accept keyword).run c = .done false d) :
    d = c := by
  rw [run_accept] at ran
  split at ran
  · cases ran
  · cases ran
    rfl

theorem expect_done {keyword : Keyword} (plain : keyword.Plain) {problem : SyntaxProblem} {u : Unit}
    (ran : (expect keyword problem).run c = .done u d) : TookKeyword keyword c d := by
  obtain ⟨accepted, m, accepts, rest⟩ := run_bind_done ran
  cases accepted with
  | false => cases rest
  | true =>
    cases rest
    obtain ⟨phase, w, spelled, split, follows⟩ := accept_true_done accepts
    obtain ⟨b, more, starts, blank⟩ := plain.mayPrecede_iff.mp follows
    exact ⟨phase, ⟨b, more, starts, blank⟩,
      fun mem => ⟨w, spelled, _, Cursor.mem_gap starts blank mem, split.symm⟩⟩

theorem nextClause_true_done (ran : nextClause.run c = .done true d) : c.Leaves d := by
  refine Cursor.leaves_of_nextClause ?_
  simp only [nextClause, Outcome.done.injEq] at ran
  exact Prod.ext ran.1 ran.2

theorem nextClause_false_done (ran : nextClause.run c = .done false d) : d = c.skipBlanks := by
  simp only [nextClause, Outcome.done.injEq] at ran
  obtain ⟨refused, rfl⟩ := ran
  exact Cursor.nextClause_of_false refused

theorem endClause_done {problem : SyntaxProblem} {u : Unit}
    (ran : (endClause problem).run c = .done u d) : c.Leaves d := by
  obtain ⟨entered, m, enters, rest⟩ := run_bind_done ran
  cases entered with
  | false => cases rest
  | true =>
    cases rest
    exact nextClause_true_done enters

section Lists

variable {item : Reader α} {more : Reader Bool} {advances : more.Advances}

/-- What holds of one last item, and goes from a list to the list with an item before it, holds of
every list that is read. -/
theorem runList_induct {motive : Cursor → List α → Cursor → Prop}
    (last : ∀ c x m d, item.run c = .done x m → more.run m = .done false d → motive c [x] d)
    (cons : ∀ c x m e xs d, item.run c = .done x m → more.run m = .done true e → motive e xs d →
      motive c (x :: xs) d)
    {c d : Cursor} {xs : List α} (ran : (list item more advances).run c = .done xs d) :
    motive c xs d := by
  change runList item more advances c = _ at ran
  fun_induction runList item more advances c generalizing xs d with
  | case1 => cases ran
  | case2 => cases ran
  | case3 c x m read e asked =>
    cases ran
    exact last c x m _ read asked
  | case4 => cases ran
  | case5 c x m read e asked _ ys f others ih =>
    cases ran
    exact cons c x m e ys _ read asked (ih others)

theorem listWithin_done {clause : Phase} {xs : List α}
    (ran : (listWithin clause item more advances).run c = .done xs d) (now : c.phase = clause) :
    (list item more advances).run c = .done xs d := by
  have rest := phase_bind_done ran
  rwa [if_pos now] at rest

theorem commaOrNext_true_done {problem : SyntaxProblem}
    (ran : (commaOrNext problem).run c = .done true d) :
    d.phase = c.phase ∧ ∀ {R : Language Char}, d.rest ∈ R → c.rest ∈ blanks * (mark ',' * R) := by
  obtain ⟨comma, e, asked, rest⟩ := run_bind_done (skipBlanks_bind_done ran)
  rw [run_acceptChar] at asked
  split at asked
  · rename_i head
    cases asked
    cases rest
    obtain ⟨t, starts⟩ := List.head?_eq_some_iff.mp head
    refine ⟨rfl, fun mem => Cursor.mem_blanks ?_⟩
    rw [starts]
    rw [Cursor.rest_forward, starts] at mem
    exact ⟨[','], rfl, t, mem, rfl⟩
  · cases asked
    obtain ⟨u, m, ended, rest⟩ := run_bind_done rest
    cases rest

theorem commaOrNext_false_done {problem : SyntaxProblem}
    (ran : (commaOrNext problem).run c = .done false d) : c.Leaves d := by
  obtain ⟨comma, e, asked, rest⟩ := run_bind_done (skipBlanks_bind_done ran)
  cases comma with
  | true => cases rest
  | false =>
    rw [run_acceptChar] at asked
    split at asked
    · cases asked
    · cases asked
      obtain ⟨u, m, ended, rest⟩ := run_bind_done rest
      cases rest
      exact (endClause_done ended).of_skipBlanks

/-- An item of a comma list that was read: it is well formed, and its text stood before the comma or
the next clause. -/
structure TookItem (texts : α → Language Char) (WellFormed : α → Prop) (c : Cursor) (x : α)
    (d : Cursor) : Prop where
  phase : d.phase = c.phase
  wellFormed : WellFormed x
  comma : ∀ {R : Language Char}, d.rest ∈ blanks * (mark ',' * R) →
    c.skipBlanks.rest ∈ texts x * (blanks * (mark ',' * R))
  lead : ∀ {e : Cursor} {place : Place}, d.Leaves e → e.At place →
    c.skipBlanks.rest ∈ texts x * place.lead false

structure TookList (listTexts : List α → Place → Language Char) (WellFormed : α → Prop) (c : Cursor)
    (xs : List α) (d : Cursor) : Prop where
  some : xs ≠ []
  wellFormed : ∀ x ∈ xs, WellFormed x
  reached : d.Reached c.phase
  mem : ∀ {place : Place}, d.At place → c.skipBlanks.rest ∈ listTexts xs place

theorem commaList_done {texts : α → Language Char} {WellFormed : α → Prop} {problem : SyntaxProblem}
    (took : ∀ {c x d}, item.run c = .done x d → TookItem texts WellFormed c x d) {xs : List α}
    (ran : (list item (commaOrNext problem) (commaOrNext_advances problem)).run c = .done xs d) :
    TookList (fun xs place => commaList (xs.map texts) * place.lead false) WellFormed c xs d := by
  refine runList_induct ?_ ?_ ran
  · intro c x m d read asked
    have item := took read
    have leaves := commaOrNext_false_done asked
    refine ⟨List.cons_ne_nil x [], ?_, item.phase ▸ leaves.reached, fun at_ => item.lead leaves at_⟩
    intro y mem
    exact List.mem_singleton.mp mem ▸ item.wellFormed
  · intro c x m e xs d read asked rest
    have item := took read
    obtain ⟨phase, comma⟩ := commaOrNext_true_done asked
    refine ⟨List.cons_ne_nil x xs, ?_, ?_, fun at_ => ?_⟩
    · intro y mem
      rcases List.mem_cons.mp mem with rfl | mem
      · exact item.wellFormed
      · exact rest.wellFormed y mem
    · rw [← item.phase, ← phase]
      exact rest.reached
    · have whole := item.comma (comma (Cursor.mem_blanks (rest.mem at_)))
      obtain ⟨y, ys, rfl⟩ := List.exists_cons_of_ne_nil rest.some
      simpa only [List.map_cons, commaList, mul_assoc] using whole

end Lists

section Items

theorem nonempty_done {token : Reader String} {problem : SyntaxProblem} {s : String}
    (ran : (nonempty token problem).run c = .done s d) :
    s ≠ "" ∧ token.run c.skipBlanks = .done s d := by
  have rest := position_bind_done (skipBlanks_bind_done ran)
  obtain ⟨text, e, read, rest⟩ := run_bind_done rest
  split at rest
  · cases rest
  · rename_i full
    obtain ⟨rfl, rfl⟩ := pure_done rest
    exact ⟨by simpa using full, read⟩

theorem not_isWordChar_of_endsWord {ch : Char} (ends : endsWord ch) : isWordChar ch = false :=
  eq_false_of_apart not_endsWord_of_isWordChar ends

theorem word_done {problem : SyntaxProblem} {word : String}
    (ran : (nonempty readWord problem).run c = .done word d) :
    TookItem verbatim IsWord c word d := by
  obtain ⟨some, read⟩ := nonempty_done ran
  have took := readWhile_done read
  have stop : ∀ ch ∈ d.rest.head?, isWordChar ch = false := by
    intro ch head
    exact not_isWordChar_of_endsWord (by simpa using took.stop ch head)
  exact ⟨took.phase, ⟨some, took.run⟩, took.mem, fun leaves at_ => took.mem (leaves.mem_lead stop at_)⟩

theorem readItem_done {item : String} (some : item ≠ "") (ran : readItem.run c = .done item d) :
    IsItem item ∧ d.phase = c.phase ∧ (∀ ch ∈ d.rest.head?, endsWord ch) ∧
      ∀ {L : Language Char}, d.rest ∈ L → c.rest ∈ itemTexts item * L := by
  simp only [readItem] at ran
  split at ran
  · rename_i balanced
    cases ran
    have scan : scanItem 0 c.rest = ⟨(scanItem 0 c.rest).item, (scanItem 0 c.rest).length, true⟩ := by
      rw [← balanced]
    obtain ⟨w, rest, split, length, same, closing, stop⟩ := closing_of_scanItem scan
    rw [same] at some ⊢
    have full : w.filter (!isBlank ·) ≠ [] := by
      intro empty
      exact some (by rw [empty])
    obtain ⟨isItem, mem⟩ := isItem_of_closing closing full
    have left : (c.forward (scanItem 0 c.rest).length).rest = rest := by
      rw [Cursor.rest_forward, ← length, split, List.drop_left]
    refine ⟨isItem, rfl, left ▸ stop, fun memL => ?_⟩
    rw [left] at memL
    exact ⟨w, mem, rest, memL, split.symm⟩
  · cases ran

theorem field_done {problem : SyntaxProblem} {item : String}
    (ran : (nonempty readItem problem).run c = .done item d) :
    TookItem itemTexts IsItem c item d := by
  obtain ⟨some, read⟩ := nonempty_done ran
  obtain ⟨isItem, phase, stop, mem⟩ := readItem_done some read
  refine ⟨phase, isItem, mem, fun leaves at_ => mem (leaves.mem_lead ?_ at_)⟩
  exact fun ch head => not_isWordChar_of_endsWord (stop ch head)

end Items

end Reader
end TableQuery
