import Mathlib

/-! Texts that split into a run of one kind of character and a rest that stops it. -/
namespace TableQuery

theorem takeWhile_append_of_stop {p : Char → Bool} {w rest : List Char} (run : ∀ c ∈ w, p c)
    (stop : ∀ c ∈ rest.head?, p c = false) : (w ++ rest).takeWhile p = w := by
  rw [List.takeWhile_append_of_pos run]
  cases rest with
  | nil => simp
  | cons c rest => simp [stop c rfl]

theorem dropWhile_append_of_stop {p : Char → Bool} {w rest : List Char} (run : ∀ c ∈ w, p c)
    (stop : ∀ c ∈ rest.head?, p c = false) : (w ++ rest).dropWhile p = rest := by
  have whole := (w ++ rest).takeWhile_append_dropWhile (p := p)
  rw [takeWhile_append_of_stop run stop] at whole
  exact List.append_cancel_left whole

theorem exists_takeWhile (p : Char → Bool) (text : List Char) :
    ∃ w rest, text = w ++ rest ∧ text.takeWhile p = w ∧ (∀ c ∈ w, p c) ∧
      ∀ c ∈ rest.head?, p c = false := by
  refine ⟨text.takeWhile p, text.dropWhile p, List.takeWhile_append_dropWhile.symm, rfl,
    List.all_eq_true.mp List.all_takeWhile, ?_⟩
  intro c head
  have stop := List.head?_dropWhile_not p text
  rw [head] at stop
  exact stop

/-- A text splits in one way into a run and a rest that stops the run. -/
theorem append_inj_of_stop {p : Char → Bool} {w v rest more : List Char}
    (same : w ++ rest = v ++ more) (runW : ∀ c ∈ w, p c) (runV : ∀ c ∈ v, p c)
    (stopW : ∀ c ∈ rest.head?, p c = false) (stopV : ∀ c ∈ more.head?, p c = false) :
    w = v ∧ rest = more := by
  have hw := takeWhile_append_of_stop runW stopW
  have hv := takeWhile_append_of_stop runV stopV
  rw [same, hv] at hw
  subst hw
  exact ⟨rfl, List.append_cancel_left same⟩

end TableQuery
