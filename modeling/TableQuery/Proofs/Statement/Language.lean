import TableQuery.Proofs.Runs
import TableQuery.Proofs.Statement.Grammar

/-! Languages by how their texts begin. -/
namespace TableQuery

/-- Nothing is of two kinds when one kind rules out the other. -/
theorem eq_false_of_apart {a b : Bool} (apart : a = true → b = false) (h : b) : a = false := by
  cases a with
  | false => rfl
  | true => simp [apart rfl] at h

/-- Every text of a language, the empty one apart, begins with a character of a kind. -/
def Begins (kind : Char → Bool) (L : Language Char) : Prop := ∀ t ∈ L, ∀ c ∈ t.head?, kind c

namespace Begins

variable {kind other : Char → Bool} {L M : Language Char}

theorem mono (h : Begins kind L) (sub : ∀ c, kind c → other c) : Begins other L :=
  fun t mem c head => sub c (h t mem c head)

theorem mul (h : Begins kind L) (solid : [] ∉ L) : Begins kind (L * M) := by
  rintro t ⟨w, memW, v, -, rfl⟩ c head
  cases w with
  | nil => exact absurd memW solid
  | cons d w => exact h (d :: w) memW c head

theorem mul' (h : Begins kind L) (next : Begins kind M) : Begins kind (L * M) := by
  rintro t ⟨w, memW, v, memV, rfl⟩ c head
  cases w with
  | nil => exact next v memV c head
  | cons d w => exact h (d :: w) memW c head

theorem not (h : Begins kind L) : ∀ t ∈ L, ∀ c ∈ t.head?, (fun c => !kind c) c = false := by
  intro t mem c head
  simp [h t mem c head]

end Begins

theorem begins_blanks : Begins isBlank blanks := fun _ mem c head => mem c (List.mem_of_head? head)

theorem begins_gap : Begins isBlank gap := fun _ mem c head => mem.2 c (List.mem_of_head? head)

theorem nil_notMem_gap : [] ∉ gap := fun mem => mem.1 rfl

theorem gap_subset_blanks {g : List Char} (h : g ∈ gap) : g ∈ blanks := h.2

theorem blank_mem_gap : [' '] ∈ gap :=
  ⟨List.cons_ne_nil _ _, List.forall_mem_singleton.mpr (by decide)⟩

theorem nil_mem_blanks : [] ∈ blanks := fun _ mem => absurd mem List.not_mem_nil

end TableQuery
