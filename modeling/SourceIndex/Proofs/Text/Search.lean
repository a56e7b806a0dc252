import SourceIndex.Proofs.Text.Utf8
import SourceIndex.Text.Search

/-!
# What a search finds

A search finds the first occurrence of its pattern, and nothing only if there is none
(`indexFrom_found`).  What comes first is said without positions: `BeforeFirst` relates a text to
the part of it before the first occurrence.

**Searching the bytes of a text finds what searching its characters would** (`beforeFirst_encode`,
`indexOfFrom?_encode`), since the bytes of a pattern stand nowhere else.
-/

namespace SourceIndex.Text

variable {α : Type}

/-- `part` is what stands in `text` before the first occurrence of `pattern`. -/
structure BeforeFirst (pattern text part : List α) : Prop where
  occurs : part ++ pattern <+: text
  first : ∀ other, other ++ pattern <+: text → part <+: other

namespace BeforeFirst

variable {pattern text part other : List α}

theorem isInfix (h : BeforeFirst pattern text part) : pattern <:+: text :=
  List.infix_append' part pattern [] |>.trans (by simpa using h.occurs.isInfix)

theorem isPrefix (h : BeforeFirst pattern text part) : part <+: text :=
  (List.prefix_append part pattern).trans h.occurs

/-- There is one part before the first occurrence. -/
theorem unique (h : BeforeFirst pattern text part) (h' : BeforeFirst pattern text other) :
    part = other :=
  (h.first other h'.occurs).eq_of_length_le (h'.first part h.occurs).length_le

theorem cons {x : α} (hnot : ¬pattern <+: x :: text) (h : BeforeFirst pattern text part) :
    BeforeFirst pattern (x :: text) (x :: part) where
  occurs := (List.prefix_cons_inj x).mpr h.occurs
  first other hother := by
    cases other with
    | nil => exact absurd hother hnot
    | cons y other =>
      obtain ⟨rfl, hrest⟩ := List.cons_prefix_cons.mp hother
      exact (List.prefix_cons_inj y).mpr (h.first other hrest)

/-- A beginning of the text comes before the first occurrence of an element exactly if the element
does not occur in it. -/
theorem prefix_iff {x : α} (h : BeforeFirst [x] text part) (hother : other <+: text) :
    other <+: part ↔ ¬[x] <:+: other := by
  constructor
  · rintro hpre ⟨before, after, rfl⟩
    have hpart : part <+: before := h.first before ((List.prefix_append _ after).trans hother)
    have hlength := (hpre.trans hpart).length_le
    rw [List.length_append, List.length_append, List.length_singleton] at hlength
    omega
  · intro hnot
    rcases List.prefix_or_prefix_of_prefix hother h.isPrefix with hpre | ⟨more, rfl⟩
    · exact hpre
    · cases more with
      | nil => simp
      | cons y more =>
        have hy : part ++ [y] <+: text := by
          refine List.IsPrefix.trans ?_ hother
          exact (List.prefix_append_right_inj part).mpr ⟨more, rfl⟩
        have heq : part ++ [x] = part ++ [y] :=
          (List.prefix_of_prefix_length_le h.occurs hy (by simp)).eq_of_length (by simp)
        refine absurd ⟨part, more, ?_⟩ hnot
        rw [heq, List.append_assoc, List.singleton_append]

end BeforeFirst

/-- A search finds the first occurrence, and finds nothing only if there is none. -/
theorem indexFrom_found [BEq α] [LawfulBEq α] (pattern : List α) (n : Nat) (text : List α) :
    (∃ part, BeforeFirst pattern text part ∧ indexFrom pattern n text = some (n + part.length)) ∨
      ¬pattern <:+: text ∧ indexFrom pattern n text = none := by
  fun_induction indexFrom pattern n text with
  | case1 n h =>
    have hp : pattern = [] := List.isEmpty_iff.mp h
    exact Or.inl ⟨[], ⟨by simp [hp], fun other _ => List.nil_prefix⟩, rfl⟩
  | case2 n h =>
    refine Or.inr ⟨?_, rfl⟩
    intro hin
    exact h (List.isEmpty_iff.mpr (List.infix_nil.mp hin))
  | case3 n x rest h =>
    have hpre : pattern <+: x :: rest := List.isPrefixOf_iff_prefix.mp h
    exact Or.inl ⟨[], ⟨hpre, fun other _ => List.nil_prefix⟩, rfl⟩
  | case4 n x rest h ih =>
    have hnot : ¬pattern <+: x :: rest := fun hpre => h (List.isPrefixOf_iff_prefix.mpr hpre)
    rcases ih with ⟨part, hpart, hfound⟩ | ⟨hnone, hfound⟩
    · refine Or.inl ⟨x :: part, hpart.cons hnot, ?_⟩
      rw [hfound, List.length_cons, Nat.add_assoc, Nat.add_comm 1]
    · refine Or.inr ⟨?_, hfound⟩
      intro hin
      rcases List.infix_cons_iff.mp hin with hpre | hin
      · exact hnot hpre
      · exact hnone hin

/-! ## Searching the bytes of a text -/

open Utf8 (encode encode_append)

/-- What stands before the first occurrence in the bytes encodes what does in the text. -/
theorem beforeFirst_encode {pattern text : List Char} {bytes : Bytes} (hne : pattern ≠ [])
    (h : BeforeFirst (encode pattern) (encode text) bytes) :
    ∃ part, bytes = encode part ∧ BeforeFirst pattern text part := by
  obtain ⟨part, rfl, hpart⟩ := Utf8.exists_of_prefix_encode hne h.occurs
  refine ⟨part, rfl, hpart, ?_⟩
  intro other hother
  have hbytes : encode other ++ encode pattern <+: encode text := by
    rw [← encode_append]
    exact Utf8.encode_prefix_encode_iff.mpr hother
  exact Utf8.encode_prefix_encode_iff.mp (h.first (encode other) hbytes)

theorem encode_isInfix_encode {s t : List Char} (h : s <:+: t) : encode s <:+: encode t := by
  obtain ⟨before, after, rfl⟩ := h
  exact ⟨encode before, encode after, by rw [encode_append, encode_append]⟩

/-- **A search in the bytes of a text, from the end of `head` on, cuts the text where its characters
have the pattern first.** -/
theorem indexOfFrom?_encode {pattern : List Char} (hne : pattern ≠ []) (head rest : List Char) :
    (∃ part, BeforeFirst pattern rest part ∧
      indexOfFrom? (encode pattern) (encode (head ++ rest)) (encode head).length
        = some (encode (head ++ part)).length) ∨
      ¬pattern <:+: rest ∧
        indexOfFrom? (encode pattern) (encode (head ++ rest)) (encode head).length = none := by
  have hstart : position (encode (head ++ rest)).length (encode head).length
      = (encode head).length := by
    rw [position, if_neg (Int.not_lt.mpr (Int.natCast_nonneg _)), Int.toNat_natCast]
  have hsearch : indexOfFrom? (encode pattern) (encode (head ++ rest)) (encode head).length
      = indexFrom (encode pattern) (encode head).length (encode rest) := by
    simp only [indexOfFrom?, hstart]
    rw [encode_append, if_neg (by simp), List.drop_left]
  rw [hsearch]
  rcases indexFrom_found (encode pattern) (encode head).length (encode rest) with
    ⟨bytes, hbytes, hfound⟩ | ⟨hnone, hfound⟩
  · obtain ⟨part, rfl, hpart⟩ := beforeFirst_encode hne hbytes
    exact Or.inl ⟨part, hpart, by rw [hfound, encode_append, List.length_append]⟩
  · exact Or.inr ⟨fun hin => hnone (encode_isInfix_encode hin), hfound⟩

end SourceIndex.Text
