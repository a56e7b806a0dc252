import SourceIndex.Text.Blank

/-!
# Trimmed text

What trimming leaves is a piece of the text, and **trimming keeps the order between a text and its
pieces** (`isInfix_trim`): what is left of a piece is found in what is left of the whole.  Of a text
that neither begins nor ends with white space nothing is trimmed but white space in front of it
(`Trimmed.trim_append`), and every trimmed text is one (`trimmed_trim`).
-/

namespace SourceIndex.Text

variable {s t : List Char}

theorem trimRight_isPrefix (text : List Char) : trimRight text <+: text := by
  rw [trimRight, ← List.reverse_suffix, List.reverse_reverse]
  exact List.dropWhile_suffix isBlank

theorem trim_isInfix (text : List Char) : trim text <:+: text :=
  (trimRight_isPrefix (trimLeft text)).isInfix.trans (List.dropWhile_suffix isBlank).isInfix

/-- Dropping from the front keeps the order between a list and its pieces. -/
theorem isInfix_dropWhile {α : Type} (p : α → Bool) {s t : List α} (h : s <:+: t) :
    s.dropWhile p <:+: t.dropWhile p := by
  obtain ⟨before, after, rfl⟩ := h
  have hleft : s.dropWhile p <:+: (s ++ after).dropWhile p := by
    rw [List.dropWhile_append]
    split
    · next he => rw [List.isEmpty_iff.mp he]; exact List.nil_infix
    · exact (List.prefix_append _ _).isInfix
  rw [List.append_assoc, List.dropWhile_append]
  split
  · exact hleft
  · exact hleft.trans ((List.dropWhile_suffix p).trans (List.suffix_append _ _)).isInfix

theorem isInfix_trim (h : s <:+: t) : trim s <:+: trim t := by
  have hreverse : (trimLeft s).reverse <:+: (trimLeft t).reverse :=
    List.reverse_infix.mpr (isInfix_dropWhile isBlank h)
  exact List.reverse_infix.mpr (isInfix_dropWhile isBlank hreverse)

/-! ## Texts with nothing to trim -/

/-- A text neither begins nor ends with white space. -/
structure Trimmed (text : List Char) : Prop where
  front : ∀ c, text.head? = some c → isBlank c = false
  back : ∀ c, text.getLast? = some c → isBlank c = false

theorem dropWhile_of_head? {p : Char → Bool} {text : List Char}
    (h : ∀ c, text.head? = some c → p c = false) : text.dropWhile p = text := by
  cases text with
  | nil => rfl
  | cons c rest => rw [List.dropWhile_cons_of_neg (by simp [h c rfl])]

theorem trimRight_of_back {text : List Char}
    (h : ∀ c, text.getLast? = some c → isBlank c = false) : trimRight text = text := by
  rw [trimRight, dropWhile_of_head? (by simpa using h), List.reverse_reverse]

/-- **White space in front is all that is trimmed of it.** -/
theorem Trimmed.trim_append {text : List Char} (h : Trimmed text) {blanks : List Char}
    (hb : ∀ c ∈ blanks, isBlank c = true) : trim (blanks ++ text) = text := by
  rw [trim, trimLeft, List.dropWhile_append_of_pos hb, dropWhile_of_head? h.front,
    trimRight_of_back h.back]

theorem Trimmed.trim_eq {text : List Char} (h : Trimmed text) : trim text = text :=
  @trim_append text h [] (by simp)

/-! ## What trimming leaves -/

theorem of_head?_dropWhile {p : Char → Bool} {text : List Char} {c : Char}
    (h : (text.dropWhile p).head? = some c) : p c = false := by
  have hnot := List.head?_dropWhile_not p text
  rwa [h] at hnot

/-- Trimming the end is enough if there is nothing to trim in front. -/
theorem trimmed_trimRight {text : List Char}
    (h : ∀ c, text.head? = some c → isBlank c = false) : Trimmed (trimRight text) where
  front := by
    intro c hc
    obtain ⟨rest, hrest⟩ := trimRight_isPrefix text
    refine h c ?_
    rw [← hrest, List.head?_append, hc, Option.some_or]
  back := by
    intro c hc
    rw [trimRight, List.getLast?_reverse] at hc
    exact of_head?_dropWhile hc

theorem trimmed_trim (text : List Char) : Trimmed (trim text) :=
  trimmed_trimRight (fun _ hc => of_head?_dropWhile hc)

end SourceIndex.Text
