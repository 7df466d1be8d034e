import TableQuery.Proofs.Statement.Reading

/-! Items and literals: what the scanners read is what the grammar of tokens allows. -/
namespace TableQuery
open Token

section Items

def depthAfter (depth : Nat) (c : Char) : Nat :=
  if c = '(' then depth + 1 else if c = ')' then depth - 1 else depth

/-- A text that closes the parentheses that are open before it, with the ends of words only where
one is open. -/
structure Closing (depth : Nat) (text : List Char) : Prop where
  closes : depth + text.count '(' = text.count ')'
  opens : ∀ before after, text = before ++ after → before.count ')' ≤ depth + before.count '('
  enclosed : ∀ before c after, text = before ++ c :: after → endsWord c →
    before.count ')' < depth + before.count '('

theorem closing_nil_iff {depth : Nat} : Closing depth [] ↔ depth = 0 := by
  constructor
  · intro h
    simpa using h.closes
  · rintro rfl
    refine ⟨rfl, ?_, ?_⟩
    · intro before after split
      simp [(List.append_eq_nil_iff.mp split.symm).1]
    · intro before c after split
      simp at split

theorem count_cons_depthAfter {depth : Nat} {c : Char} (inside : ¬ (depth = 0 ∧ c = ')'))
    (text : List Char) :
    depth + (c :: text).count '(' + text.count ')' =
      depthAfter depth c + text.count '(' + (c :: text).count ')' := by
  by_cases left : c = '('
  · subst left
    simp only [depthAfter, if_true, List.count_cons_self]
    simp
    omega
  · by_cases right : c = ')'
    · subst right
      have deep : depth ≠ 0 := fun zero => inside ⟨zero, rfl⟩
      simp [depthAfter]
      omega
    · simp [depthAfter, left, right]

theorem closing_cons_iff {depth : Nat} {c : Char} {text : List Char} :
    Closing depth (c :: text) ↔
      ¬ (depth = 0 ∧ endsWord c) ∧ ¬ (depth = 0 ∧ c = ')') ∧ Closing (depthAfter depth c) text := by
  constructor
  · intro h
    have inside : ¬ (depth = 0 ∧ c = ')') := by
      rintro ⟨rfl, rfl⟩
      have := h.opens [')'] text rfl
      simp at this
    have count := count_cons_depthAfter inside
    refine ⟨?_, inside, ?_, ?_, ?_⟩
    · rintro ⟨rfl, ends⟩
      have := h.enclosed [] c text rfl ends
      simp at this
    · have := h.closes
      have := count text
      omega
    · intro before after split
      have := h.opens (c :: before) after (by rw [split]; rfl)
      have := count before
      omega
    · intro before d after split ends
      have := h.enclosed (c :: before) d after (by rw [split]; rfl) ends
      have := count before
      omega
  · rintro ⟨free, inside, h⟩
    have count := count_cons_depthAfter inside
    refine ⟨?_, ?_, ?_⟩
    · have := h.closes
      have := count text
      omega
    · intro before after split
      cases before with
      | nil => simp
      | cons d before =>
        simp only [List.cons_append, List.cons.injEq] at split
        obtain ⟨rfl, split⟩ := split
        have := h.opens before after split
        have := count before
        omega
    · intro before d after split ends
      cases before with
      | nil =>
        simp only [List.nil_append, List.cons.injEq] at split
        obtain ⟨rfl, -⟩ := split
        simp only [ends, and_true] at free
        simpa using Nat.pos_of_ne_zero free
      | cons e before =>
        simp only [List.cons_append, List.cons.injEq] at split
        obtain ⟨rfl, split⟩ := split
        have := h.enclosed before d after split ends
        have := count before
        omega

theorem scanItem_of_closing {depth : Nat} {w rest : List Char} (closing : Closing depth w)
    (stop : ∀ c ∈ rest.head?, endsWord c) :
    scanItem depth (w ++ rest) = ⟨w.filter (!isBlank ·), w.length, true⟩ := by
  induction w generalizing depth with
  | nil =>
    obtain rfl := closing_nil_iff.mp closing
    cases rest with
    | nil => rfl
    | cons c rest => simp [scanItem, stop c rfl]
  | cons c w ih =>
    obtain ⟨free, inside, closing⟩ := closing_cons_iff.mp closing
    have scan := ih closing
    simp only [depthAfter] at scan
    simp only [List.cons_append, scanItem, if_neg free, if_neg inside, scan, List.length_cons,
      ItemScan.mk.injEq, and_true]
    cases blank : isBlank c <;> simp [blank]

theorem closing_of_scanItem {depth n : Nat} {text item : List Char}
    (scan : scanItem depth text = ⟨item, n, true⟩) :
    ∃ w rest, text = w ++ rest ∧ w.length = n ∧ item = w.filter (!isBlank ·) ∧ Closing depth w ∧
      ∀ c ∈ rest.head?, endsWord c := by
  induction text generalizing depth n item with
  | nil =>
    simp only [scanItem, ItemScan.mk.injEq, beq_iff_eq] at scan
    obtain ⟨rfl, rfl, rfl⟩ := scan
    exact ⟨[], [], rfl, rfl, rfl, closing_nil_iff.mpr rfl, nofun⟩
  | cons c text ih =>
    unfold scanItem at scan
    split at scan
    · rename_i ends
      simp only [ItemScan.mk.injEq, and_true] at scan
      obtain ⟨rfl, rfl⟩ := scan
      refine ⟨[], c :: text, rfl, rfl, rfl, closing_nil_iff.mpr ends.1, ?_⟩
      intro d head
      simp only [List.head?_cons, Option.mem_some_iff] at head
      exact head ▸ ends.2
    · rename_i free
      split at scan
      · simp at scan
      · rename_i inside
        simp only [ItemScan.mk.injEq] at scan
        obtain ⟨rfl, rfl, balanced⟩ := scan
        have inner : scanItem (depthAfter depth c) text =
            ⟨(scanItem (depthAfter depth c) text).item, (scanItem (depthAfter depth c) text).length,
              true⟩ := by
          rw [← balanced]
          rfl
        obtain ⟨w, rest, rfl, length, item, closing, stop⟩ := ih inner
        refine ⟨c :: w, rest, rfl, ?_, ?_, closing_cons_iff.mpr ⟨free, inside, closing⟩, stop⟩
        · rw [List.length_cons, length]
          rfl
        · simp only [depthAfter] at item
          rw [List.filter_cons, item]
          cases isBlank c <;> simp

theorem count_unblank {c : Char} (h : isBlank c = false) (text : List Char) :
    (text.filter (!isBlank ·)).count c = text.count c := List.count_filter (by simp [h])

theorem closing_of_mem_itemTexts {item : String} {w : List Char} (isItem : IsItem item)
    (mem : w ∈ itemTexts item) : Closing 0 w := by
  obtain ⟨same, blanks⟩ := mem
  have left : ∀ text : List Char, (text.filter (!isBlank ·)).count '(' = text.count '(' :=
    count_unblank (by decide)
  have right : ∀ text : List Char, (text.filter (!isBlank ·)).count ')' = text.count ')' :=
    count_unblank (by decide)
  refine ⟨?_, ?_, ?_⟩
  · have := isItem.balanced.closes
    rw [← same, left, right] at this
    omega
  · rintro before after rfl
    rw [List.filter_append] at same
    have := isItem.balanced.opens _ _ same.symm
    rw [left, right] at this
    omega
  · rintro before c after rfl ends
    rw [Nat.zero_add]
    cases blank : isBlank c with
    | true => exact blanks before c after rfl blank
    | false =>
      have split : item.toList = before.filter (!isBlank ·) ++ c :: after.filter (!isBlank ·) := by
        rw [← same, List.filter_append, List.filter_cons_of_pos (by simp [blank])]
      have := isItem.enclosed _ _ _ split (by simpa [endsWord, blank] using ends)
      rwa [left, right] at this

theorem isItem_of_closing {w : List Char} (closing : Closing 0 w)
    (some : w.filter (!isBlank ·) ≠ []) :
    IsItem (String.ofList (w.filter (!isBlank ·))) ∧
      w ∈ itemTexts (String.ofList (w.filter (!isBlank ·))) := by
  have left : ∀ text : List Char, (text.filter (!isBlank ·)).count '(' = text.count '(' :=
    count_unblank (by decide)
  have right : ∀ text : List Char, (text.filter (!isBlank ·)).count ')' = text.count ')' :=
    count_unblank (by decide)
  refine ⟨⟨?_, ?_, ⟨?_, ?_⟩, ?_⟩, String.toList_ofList.symm, ?_⟩
  · intro empty
    rw [← String.toList_inj, String.toList_ofList] at empty
    exact some empty
  · intro c mem
    rw [String.toList_ofList] at mem
    simpa using (List.mem_filter.mp mem).2
  · have := closing.closes
    rw [String.toList_ofList, left, right]
    omega
  · intro before after split
    rw [String.toList_ofList] at split
    obtain ⟨w₁, w₂, rfl, rfl, rfl⟩ := List.filter_eq_append_iff.mp split
    have := closing.opens w₁ w₂ rfl
    rw [left, right]
    omega
  · intro before c after split ends
    rw [String.toList_ofList] at split
    obtain ⟨w₁, w₂, rfl, rfl, rest⟩ := List.filter_eq_append_iff.mp split
    obtain ⟨skipped, after', rfl, unkept, -, rfl⟩ := List.filter_eq_cons_iff.mp rest
    have open' := closing.enclosed (w₁ ++ skipped) c after' (by simp) (by
      simp only [Bool.or_eq_true, beq_iff_eq] at ends
      simp [endsWord, or_assoc, ends])
    have none : ∀ d, isBlank d = false → skipped.count d = 0 := by
      intro d unblank
      refine List.count_eq_zero.mpr fun mem => ?_
      have := unkept d mem
      simp [unblank] at this
    rw [left, right]
    rw [List.count_append, List.count_append, none '(' (by decide), none ')' (by decide)] at open'
    omega
  · intro before c after split blank
    have := closing.enclosed before c after split (by simp [endsWord, blank])
    omega

theorem IsItem.mem_itemTexts {s : String} (isItem : IsItem s) : s.toList ∈ itemTexts s := by
  constructor
  · rw [List.filter_eq_self]
    intro c mem
    simp [isItem.unblank c mem]
  · intro before c after split blank
    have := isItem.unblank c (by rw [split]; simp)
    rw [blank] at this
    cases this

/-- An item is what the scan takes whole. -/
theorem isItem_iff_scanItem {s : String} :
    IsItem s ↔ s ≠ "" ∧ scanItem 0 s.toList = ⟨s.toList, s.toList.length, true⟩ := by
  constructor
  · intro isItem
    have mem := isItem.mem_itemTexts
    have stop : ∀ c ∈ ([] : List Char).head?, endsWord c := nofun
    have scan := scanItem_of_closing (closing_of_mem_itemTexts isItem mem) stop
    rw [List.append_nil, mem.1] at scan
    exact ⟨isItem.nonempty, scan⟩
  · rintro ⟨some, scan⟩
    obtain ⟨w, rest, split, length, item, closing, -⟩ := closing_of_scanItem scan
    have whole : rest = [] := by
      rw [split, List.length_append] at length
      exact List.length_eq_zero_iff.mp (by omega)
    subst whole
    rw [List.append_nil] at split
    have isItem := (isItem_of_closing closing (by
      rw [← item]
      intro empty
      exact some (by rw [← String.toList_inj, empty]; rfl))).1
    rwa [← item, String.ofList_toList] at isItem

instance : DecidablePred IsItem := fun _ => decidable_of_iff _ isItem_iff_scanItem.symm

end Items

section Readers

variable {phase : Phase} {L : Language Char}

theorem Reader.takes_readItem {item : String} (isItem : IsItem item) (stop : Begins endsWord L) :
    readItem.Takes ⟨phase, itemTexts item * L⟩ item ⟨phase, L⟩ := by
  rintro c ⟨same, w, memW, t, mem, rest⟩
  have scan : scanItem 0 c.rest = ⟨w.filter (!isBlank ·), w.length, true⟩ := by
    rw [← rest]
    exact scanItem_of_closing (closing_of_mem_itemTexts isItem memW) (stop t mem)
  refine ⟨c.forward w.length, ?_, at_forward same rest.symm mem⟩
  simp only [readItem, scan, if_true, memW.1, String.ofList_toList]

theorem takeWhile_ne {quote : Char} {body rest : List Char} (h : quote ∉ body) :
    (body ++ quote :: rest).takeWhile (· != quote) = body := by
  apply takeWhile_append_of_stop
  · intro c mem
    simp only [bne_iff_ne]
    rintro rfl
    exact h mem
  · intro c head
    simp only [List.head?_cons, Option.mem_some_iff] at head
    simp [head]

/-- A quoted literal ends at its quote, a bare one before a blank or a semicolon. -/
theorem Reader.takes_readLiteral {literal : String} (isLiteral : IsLiteral literal)
    (stop : beginsQuoted literal = false → ∀ t ∈ L, ∀ c ∈ t.head?, inBareLiteral c = false) :
    readLiteral.Takes ⟨phase, verbatim literal * L⟩ literal ⟨phase, L⟩ := by
  rintro c ⟨same, _, rfl, t, mem, rest⟩
  refine ⟨c.forward literal.toList.length, ?_, at_forward same rest.symm mem⟩
  rcases isLiteral with ⟨quote, body, isQuote, fresh, shape⟩ | ⟨run, unquoted⟩
  · have text : c.rest = quote :: (body ++ quote :: t) := by
      rw [← rest, shape]
      simp
    have short : body.length < (body ++ quote :: t).length := by simp
    have length : literal.toList.length = body.length + 2 := by simp [shape]
    have whole : String.ofList (quote :: body ++ [quote]) = literal := by
      rw [List.cons_append, ← shape, String.ofList_toList]
    simp only [readLiteral, text, isQuote, if_true, takeWhile_ne fresh]
    rw [if_pos short, whole, length]
  · have some : literal.toList ≠ [] := by simp [run.1]
    obtain ⟨first, more, shape⟩ := List.exists_cons_of_ne_nil some
    have bare : isQuote first = false := by simpa [beginsQuoted, shape] using unquoted
    have text : c.rest = first :: (more ++ t) := by
      rw [← rest, shape]
      rfl
    have taken : (first :: (more ++ t)).takeWhile inBareLiteral = literal.toList := by
      rw [← text, ← rest]
      exact takeWhile_append_of_stop run.2 (stop unquoted t mem)
    simp only [readLiteral, text, bare, Bool.false_eq_true, if_false, taken, String.ofList_toList]

theorem Reader.takes_readJoinKeyword {kind : String} (run : IsRun isWordChar kind)
    (free : upperAscii kind ≠ "JOIN") :
    readJoinKeyword.Takes ⟨phase, joinTexts kind * (gap * L)⟩ kind ⟨phase, gap * L⟩ := by
  rintro c ⟨same, mem⟩
  obtain ⟨n, found, left⟩ := joinKeyword?_of_mem run free mem
  refine ⟨c.forward n, by simp only [readJoinKeyword, found], same, ?_⟩
  rw [Cursor.rest_forward]
  exact left

end Readers
end TableQuery
