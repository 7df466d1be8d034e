import TableQuery.Proofs.Statement.Following

/-! What readers give on the texts of a language. A reader takes a value between two places when,
from every cursor at the first, it gives the value and stops at the second. -/
namespace TableQuery

/-- A cursor stands at a place: in its clause, with one of its texts left to read. -/
def Cursor.At (c : Cursor) (place : Place) : Prop := c.phase = place.phase ∧ c.rest ∈ place.texts

namespace Reader
open Token

variable {α β : Type}

def Takes (reader : Reader α) (here : Place) (value : α) (there : Place) : Prop :=
  ∀ c : Cursor, c.At here → ∃ d, reader.run c = .done value d ∧ d.At there

namespace Takes

theorem pure (value : α) (place : Place) : (Pure.pure value : Reader α).Takes place value place :=
  fun c at_ => ⟨c, rfl, at_⟩

theorem bind {first : Reader α} {next : α → Reader β} {here mid there : Place} {a : α} {b : β}
    (head : first.Takes here a mid) (tail : (next a).Takes mid b there) :
    (first >>= next).Takes here b there := by
  intro c at_
  obtain ⟨d, ran, at_⟩ := head c at_
  obtain ⟨e, ran', at_⟩ := tail d at_
  exact ⟨e, by rw [run_bind, ran]; exact ran', at_⟩

theorem of_subset {reader : Reader α} {phase : Phase} {L M : Language Char} {there : Place} {a : α}
    (takes : reader.Takes ⟨phase, M⟩ a there) (sub : ∀ t ∈ L, t ∈ M) :
    reader.Takes ⟨phase, L⟩ a there :=
  fun c at_ => takes c ⟨at_.1, sub _ at_.2⟩

theorem position_bind {next : Nat → Reader β} {here there : Place} {b : β}
    (tail : ∀ n, (next n).Takes here b there) : (position >>= next).Takes here b there :=
  fun c at_ => tail c.position c at_

end Takes

/-- From the first place on a reader does what another one does from the second place on. -/
def GoesOn (reader : Reader α) (here : Place) (later : Reader α) (there : Place) : Prop :=
  ∀ c : Cursor, c.At here → ∃ d, reader.run c = later.run d ∧ d.At there

namespace GoesOn

variable {reader later : Reader α} {here mid there : Place}

theorem refl (reader : Reader α) (place : Place) : reader.GoesOn place reader place :=
  fun c at_ => ⟨c, rfl, at_⟩

theorem bind {first : Reader α} {next : α → Reader β} {later : Reader β} {a : α}
    (head : first.Takes here a mid) (tail : (next a).GoesOn mid later there) :
    (first >>= next).GoesOn here later there := by
  intro c at_
  obtain ⟨d, ran, at_⟩ := head c at_
  obtain ⟨e, ran', at_⟩ := tail d at_
  exact ⟨e, by rw [run_bind, ran]; exact ran', at_⟩

theorem position_bind {next : Nat → Reader α} (tail : ∀ n, (next n).GoesOn here later there) :
    (position >>= next).GoesOn here later there :=
  fun c at_ => tail c.position c at_

theorem of_subset {phase : Phase} {L M : Language Char}
    (goes : reader.GoesOn ⟨phase, M⟩ later there) (sub : ∀ t ∈ L, t ∈ M) :
    reader.GoesOn ⟨phase, L⟩ later there :=
  fun c at_ => goes c ⟨at_.1, sub _ at_.2⟩

theorem takes {a : α} (goes : reader.GoesOn here later mid) (takes : later.Takes mid a there) :
    reader.Takes here a there := by
  intro c at_
  obtain ⟨d, same, at_⟩ := goes c at_
  obtain ⟨e, ran, at_⟩ := takes d at_
  exact ⟨e, same.trans ran, at_⟩

end GoesOn

section Leaves

variable {phase : Phase} {L M : Language Char}

theorem takes_phase (place : Place) : Reader.phase.Takes place place.phase place :=
  fun c at_ => ⟨c, by rw [← at_.1]; rfl, at_⟩

theorem takes_enter (phase : Phase) (here : Place) :
    (enter phase).Takes here () ⟨phase, here.texts⟩ :=
  fun _ at_ => ⟨_, rfl, rfl, at_.2⟩

theorem at_forward {c : Cursor} {w t : List Char} (same : c.phase = phase) (rest : c.rest = w ++ t)
    (mem : t ∈ L) : (c.forward w.length).At ⟨phase, L⟩ :=
  ⟨same, by rw [Cursor.rest_forward, rest, List.drop_left]; exact mem⟩

theorem takes_skipBlanks (stop : ∀ t ∈ L, ∀ c ∈ t.head?, isBlank c = false) :
    skipBlanks.Takes ⟨phase, blanks * L⟩ () ⟨phase, L⟩ := by
  rintro c ⟨same, g, memG, t, mem, rest⟩
  have run : c.rest.takeWhile isBlank = g := by
    rw [← rest]
    exact takeWhile_append_of_stop memG (stop t mem)
  refine ⟨c.skipBlanks, rfl, ?_⟩
  rw [Cursor.skipBlanks, run]
  exact at_forward same rest.symm mem

theorem takes_readWhile {kept : Char → Bool} {w : String} (run : IsRun kept w)
    (stop : ∀ t ∈ L, ∀ c ∈ t.head?, kept c = false) :
    (readWhile kept).Takes ⟨phase, verbatim w * L⟩ w ⟨phase, L⟩ := by
  rintro c ⟨same, _, rfl, t, mem, rest⟩
  have taken : c.rest.takeWhile kept = w.toList := by
    rw [← rest]
    exact takeWhile_append_of_stop run.2 (stop t mem)
  refine ⟨c.forward w.toList.length, ?_, at_forward same rest.symm mem⟩
  simp only [readWhile, taken, String.ofList_toList]

theorem takes_acceptChar (ch : Char) :
    (acceptChar ch).Takes ⟨phase, mark ch * L⟩ true ⟨phase, L⟩ := by
  rintro c ⟨same, _, rfl, t, mem, rest⟩
  refine ⟨c.forward 1, ?_, at_forward same (w := [ch]) rest.symm mem⟩
  simp [run_acceptChar, ← rest]

theorem takes_acceptChar_false {ch : Char} (other : ∀ t ∈ L, t.head? ≠ some ch) :
    (acceptChar ch).Takes ⟨phase, L⟩ false ⟨phase, L⟩ :=
  fun c at_ => ⟨c, by rw [run_acceptChar, if_neg (other _ at_.2)], at_⟩

theorem takes_accept {keyword : Keyword} (follows : ∀ t ∈ L, keyword.mayPrecede t) :
    (accept keyword).Takes ⟨phase, keyword.spellings * L⟩ true ⟨phase, L⟩ := by
  rintro c ⟨same, w, spelled, t, mem, rest⟩
  have front : keyword.isFront c.rest :=
    Keyword.isFront_iff.mpr ⟨w, spelled, t, rest.symm, follows t mem⟩
  have length : w.length = keyword.word.length := by rw [← spelled, List.length_map]
  refine ⟨c.forward w.length, ?_, at_forward same rest.symm mem⟩
  rw [run_accept, if_pos front, length]

theorem takes_accept_false {keyword : Keyword} (other : ∀ t ∈ L, keyword.isFront t = false) :
    (accept keyword).Takes ⟨phase, L⟩ false ⟨phase, L⟩ :=
  fun c at_ => ⟨c, by rw [run_accept, other _ at_.2]; rfl, at_⟩

/-- A keyword that wants a blank after it is read up to that blank. -/
theorem takes_expect {keyword : Keyword} (plain : keyword.Plain) (problem : SyntaxProblem) :
    (expect keyword problem).Takes ⟨phase, keyword.spellings * (gap * L)⟩ () ⟨phase, gap * L⟩ := by
  have follows : ∀ t ∈ gap * L, keyword.mayPrecede t := by
    rintro _ ⟨g, memG, t, -, rfl⟩
    rw [plain.mayPrecede_iff]
    cases g with
    | nil => exact absurd rfl memG.1
    | cons b g => exact ⟨b, g ++ t, rfl, memG.2 b List.mem_cons_self⟩
  exact (takes_accept follows).bind (Takes.pure () _)

end Leaves
end Reader
end TableQuery
