import SourceIndex.Text.Utf8

/-!
# Encoded text

A text is read back from its encoding (`decode_encode`), character by character, and no encoding
begins with the encoding of another text unless that text is where it begins
(`encode_prefix_encode_iff`).

**The encoding of a text shows where its characters begin** (`exists_of_prefix_encode`): wherever
the bytes of a text that is not empty stand in the bytes of another, its characters stand there in
the other's, because the byte that a character begins with is never one that continues a character.
So a piece that is cut out between two characters is itself the encoding of a text
(`exists_slice_eq_encode`), and pieces that meet there can be put together
(`between_append_between`).
-/

namespace SourceIndex

/-- Two pieces that meet make up one. -/
theorem Bytes.slice_append_slice {start middle stop : Nat} (bytes : Bytes) (h₁ : start ≤ middle)
    (h₂ : middle ≤ stop) :
    bytes.slice start middle ++ bytes.slice middle stop = bytes.slice start stop := by
  have hlen : stop - start = (middle - start) + (stop - middle) := by omega
  have hdrop : bytes.drop middle = (bytes.drop start).drop (middle - start) := by
    rw [List.drop_drop, Nat.add_sub_cancel' h₁]
  rw [slice, slice, slice, hdrop, hlen, List.take_add]

/-- What stands in front of some bytes moves their offsets. -/
theorem Bytes.slice_append_left (before bytes : Bytes) (start stop : Nat) :
    (before ++ bytes).slice (start + before.length) (stop + before.length)
      = bytes.slice start stop := by
  rw [slice, slice, Nat.add_comm start, ← List.drop_drop, List.drop_left,
    Nat.add_comm before.length, Nat.add_sub_add_right]

/-- What stands behind some bytes is no part of a piece that ends within them. -/
theorem Bytes.slice_append_right {bytes : Bytes} (after : Bytes) (start : Nat) {stop : Nat}
    (h : stop ≤ bytes.length) : (bytes ++ after).slice start stop = bytes.slice start stop := by
  have hlen : stop - start ≤ (bytes.drop start).length := by
    rw [List.length_drop]
    omega
  rw [slice, slice, List.drop_append, List.take_append_of_le_length hlen]

theorem Bytes.slice_eq_nil_iff {start stop : Nat} {bytes : Bytes} :
    bytes.slice start stop = [] ↔ ¬(start < stop ∧ start < bytes.length) := by
  rw [slice, List.take_eq_nil_iff, List.drop_eq_nil_iff]
  omega

namespace Utf8

/-- Some text is read from any bytes at all. -/
theorem decode_eq_nil_iff {bytes : Bytes} : decode bytes = [] ↔ bytes = [] := by
  cases bytes with
  | nil => simp
  | cons b rest => simp [decode_cons]

/-! ## Reading one character back -/

theorem toNat_ofNat {n : Nat} (h : n < 256) : (UInt8.ofNat n).toNat = n := by
  rw [UInt8.toNat_ofNat']
  exact Nat.mod_eq_of_lt h

/-- What a byte opens, by its value. -/
theorem opened?_ofNat {n : Nat} (h : n < 256) :
    opened? (UInt8.ofNat n)
      = if n < 0x80 then some ⟨n, 0, 0x80, 0xBF⟩
        else if n < 0xC2 then none
        else if n < 0xE0 then some ⟨n % 32, 1, 0x80, 0xBF⟩
        else if n < 0xF0 then
          some ⟨n % 16, 2, if n = 0xE0 then 0xA0 else 0x80, if n = 0xED then 0x9F else 0xBF⟩
        else if n < 0xF5 then
          some ⟨n % 8, 3, if n = 0xF0 then 0x90 else 0x80, if n = 0xF4 then 0x8F else 0xBF⟩
        else none := by
  have hlt (b : UInt8) : UInt8.ofNat n < b ↔ n < b.toNat := by
    rw [UInt8.lt_iff_toNat_lt, toNat_ofNat h]
  have heq (b : UInt8) : UInt8.ofNat n = b ↔ n = b.toNat := by
    rw [← UInt8.toNat_inj, toNat_ofNat h]
  simp only [opened?, hlt, beq_iff_eq, heq, toNat_ofNat h]
  rfl

/-- A byte within the bounds adds its six bits. -/
theorem finish_cons {n : Nat} (h : n < 256) {low high : UInt8} (hlow : low.toNat ≤ n)
    (hhigh : n ≤ high.toNat) (bits left : Nat) (rest : Bytes) :
    finish bits (left + 1) low high (UInt8.ofNat n :: rest)
      = finish (bits * 64 + n % 64) left 0x80 0xBF rest := by
  have hbounds : low ≤ UInt8.ofNat n ∧ UInt8.ofNat n ≤ high := by
    rw [UInt8.le_iff_toNat_le, UInt8.le_iff_toNat_le, toNat_ofNat h]
    exact ⟨hlow, hhigh⟩
  rw [finish, if_pos hbounds, toNat_ofNat h]

theorem finish_tail (bits left v : Nat) (rest : Bytes) :
    finish bits (left + 1) 0x80 0xBF (UInt8.ofNat (v % 64 + 0x80) :: rest)
      = finish (bits * 64 + v % 64) left 0x80 0xBF rest := by
  have hsix : (v % 64 + 0x80) % 64 = v % 64 := by omega
  rw [finish_cons (by omega) (show 0x80 ≤ v % 64 + 0x80 by omega)
    (show v % 64 + 0x80 ≤ 0xBF by omega), hsix]

theorem next_two {v : Nat} (hlow : 0x80 ≤ v) (hhigh : v ≤ 0x7FF) (rest : Bytes) :
    next (UInt8.ofNat (v / 64 % 32 + 0xC0)) (UInt8.ofNat (v % 64 + 0x80) :: rest)
      = (Char.ofNat v, rest) := by
  have hv : (v / 64 % 32 + 0xC0) % 32 * 64 + v % 64 = v := by omega
  rw [next, opened?_ofNat (by omega), if_neg (by omega), if_neg (by omega), if_pos (by omega)]
  dsimp only
  rw [finish_tail, finish, hv]

/-- The bounds on the second byte keep out overlong forms and surrogates only. -/
theorem next_three {v : Nat} (hlow : 0x800 ≤ v) (hhigh : v ≤ 0xFFFF)
    (hvalid : v < 0xD800 ∨ 0xDFFF < v) (rest : Bytes) :
    next (UInt8.ofNat (v / 4096 % 16 + 0xE0))
        (UInt8.ofNat (v / 64 % 64 + 0x80) :: UInt8.ofNat (v % 64 + 0x80) :: rest)
      = (Char.ofNat v, rest) := by
  have hv : ((v / 4096 % 16 + 0xE0) % 16 * 64 + (v / 64 % 64 + 0x80) % 64) * 64 + v % 64 = v := by
    omega
  rw [next, opened?_ofNat (by omega), if_neg (by omega), if_neg (by omega), if_neg (by omega),
    if_pos (by omega)]
  dsimp only
  rw [finish_cons (by omega) ?_ ?_, finish_tail, finish, hv]
  · split
    · show 0xA0 ≤ v / 64 % 64 + 0x80
      omega
    · show 0x80 ≤ v / 64 % 64 + 0x80
      omega
  · split
    · show v / 64 % 64 + 0x80 ≤ 0x9F
      omega
    · show v / 64 % 64 + 0x80 ≤ 0xBF
      omega

theorem next_four {v : Nat} (hlow : 0x10000 ≤ v) (hhigh : v < 0x110000) (rest : Bytes) :
    next (UInt8.ofNat (v / 262144 % 8 + 0xF0))
        (UInt8.ofNat (v / 4096 % 64 + 0x80) :: UInt8.ofNat (v / 64 % 64 + 0x80) ::
          UInt8.ofNat (v % 64 + 0x80) :: rest)
      = (Char.ofNat v, rest) := by
  have hv : (((v / 262144 % 8 + 0xF0) % 8 * 64 + (v / 4096 % 64 + 0x80) % 64) * 64
      + v / 64 % 64) * 64 + v % 64 = v := by omega
  rw [next, opened?_ofNat (by omega), if_neg (by omega), if_neg (by omega), if_neg (by omega),
    if_neg (by omega), if_pos (by omega)]
  dsimp only
  rw [finish_cons (by omega) ?_ ?_, finish_tail, finish_tail, finish, hv]
  · split
    · show 0x90 ≤ v / 4096 % 64 + 0x80
      omega
    · show 0x80 ≤ v / 4096 % 64 + 0x80
      omega
  · split
    · show v / 4096 % 64 + 0x80 ≤ 0x8F
      omega
    · show v / 4096 % 64 + 0x80 ≤ 0xBF
      omega

theorem decode_encodeChar_append (c : Char) (rest : Bytes) :
    decode (String.utf8EncodeChar c ++ rest) = c :: decode rest := by
  have hvalid : c.val.toNat < 0xD800 ∨ 0xDFFF < c.val.toNat ∧ c.val.toNat < 0x110000 := c.valid
  have hchar : Char.ofNat c.val.toNat = c := Char.ofNat_toNat c
  fun_cases String.utf8EncodeChar c with
  | case1 v h =>
    have hopened : opened? (UInt8.ofNat v) = some ⟨v, 0, 0x80, 0xBF⟩ := by
      rw [opened?_ofNat (by omega), if_pos (by omega)]
    rw [List.cons_append, List.nil_append, decode_cons, next, hopened]
    dsimp only
    rw [finish, hchar]
  | case2 v h h' =>
    simp only [List.cons_append, List.nil_append]
    rw [decode_cons, next_two (by omega) (by omega), hchar]
  | case3 v h h' h'' =>
    simp only [List.cons_append, List.nil_append]
    rw [decode_cons, next_three (by omega) (by omega) (by omega), hchar]
  | case4 v h h' h'' =>
    simp only [List.cons_append, List.nil_append]
    rw [decode_cons, next_four (by omega) (by omega), hchar]

/-! ## Reading a text back -/

theorem encode_cons (c : Char) (text : List Char) :
    encode (c :: text) = String.utf8EncodeChar c ++ encode text :=
  List.flatMap_cons

/-- **A text is read back from its encoding.** -/
theorem decode_encode (text : List Char) : decode (encode text) = text := by
  induction text with
  | nil => exact decode_nil
  | cons c text ih => rw [encode_cons, decode_encodeChar_append, ih]

theorem encode_eq_nil_iff {text : List Char} : encode text = [] ↔ text = [] := by
  refine ⟨?_, fun h => by rw [h, encode_nil]⟩
  intro h
  rw [← decode_encode text, h, decode_nil]

/-- One encoding begins with another exactly if the one text begins with the other. -/
theorem encode_prefix_encode_iff {s t : List Char} : encode s <+: encode t ↔ s <+: t := by
  constructor
  · intro h
    induction s generalizing t with
    | nil => exact List.nil_prefix
    | cons c s ih =>
      obtain ⟨rest, hrest⟩ := h
      rw [encode_cons, List.append_assoc] at hrest
      have hread : c :: decode (encode s ++ rest) = t := by
        rw [← decode_encodeChar_append, hrest, decode_encode]
      subst hread
      rw [encode_cons] at hrest
      have hs : encode s <+: encode (decode (encode s ++ rest)) :=
        ⟨rest, List.append_cancel_left hrest⟩
      exact (List.prefix_cons_inj c).mpr (ih hs)
  · rintro ⟨rest, rfl⟩
    exact ⟨encode rest, (encode_append s rest).symm⟩

/-! ## Where characters begin -/

/-- The first byte of a character, and it alone, is one that characters begin with. -/
theorem exists_utf8EncodeChar_eq (c : Char) :
    ∃ lead tail, String.utf8EncodeChar c = lead :: tail ∧ lead.IsUTF8FirstByte ∧
      ∀ b ∈ tail, ¬b.IsUTF8FirstByte := by
  have hfirst {i : Nat} {b : UInt8} (h : (String.utf8EncodeChar c)[i]? = some b) :
      b.IsUTF8FirstByte ↔ i = 0 := by
    obtain ⟨hi, rfl⟩ := List.getElem?_eq_some_iff.mp h
    exact UInt8.isUTF8FirstByte_getElem_utf8EncodeChar
  obtain ⟨lead, tail, hc⟩ := List.exists_cons_of_ne_nil (String.utf8EncodeChar_ne_nil (c := c))
  refine ⟨lead, tail, hc, (hfirst (by rw [hc]; rfl)).mpr rfl, ?_⟩
  intro b hb hbyte
  obtain ⟨i, hi⟩ := List.getElem?_of_mem hb
  have hzero := (hfirst (i := i + 1) (by rw [hc]; exact hi)).mp hbyte
  exact Nat.succ_ne_zero i hzero

/-- If the bytes of a text stand inside the bytes of another, but not at their beginning, then they
stand behind the first character. -/
theorem utf8EncodeChar_prefix {b : UInt8} {bytes rest : Bytes} {c : Char} {pattern : List Char}
    (hne : pattern ≠ [])
    (h : (b :: bytes) ++ encode pattern <+: String.utf8EncodeChar c ++ rest) :
    String.utf8EncodeChar c <+: b :: bytes := by
  rcases List.prefix_or_prefix_of_prefix (List.prefix_append (String.utf8EncodeChar c) rest)
    ((List.prefix_append (b :: bytes) (encode pattern)).trans h) with hpast | ⟨left, hleft⟩
  · exact hpast
  · cases left with
    | nil => exact ⟨[], by rw [← hleft, List.append_nil, List.append_nil]⟩
    | cons x left =>
      -- The pattern would begin with `x`, which continues the character `c`.
      exfalso
      obtain ⟨lead, tail, hc, -, htail⟩ := exists_utf8EncodeChar_eq c
      obtain ⟨p, ps, rfl⟩ := List.exists_cons_of_ne_nil hne
      obtain ⟨lead', tail', hp, hlead, -⟩ := exists_utf8EncodeChar_eq p
      have hx : x ∈ tail := by
        rw [hc] at hleft
        rw [← (List.cons.inj hleft).2]
        simp
      rw [encode_cons, hp, ← hleft, List.append_assoc (b :: bytes),
        List.prefix_append_right_inj] at h
      have hhead : lead' = x := (List.cons_prefix_cons.mp h).1
      exact htail x hx (hhead ▸ hlead)

/-- **The bytes of a text stand in the bytes of another only where its characters do.** -/
theorem exists_of_prefix_encode {bytes : Bytes} {pattern text : List Char} (hne : pattern ≠ [])
    (h : bytes ++ encode pattern <+: encode text) :
    ∃ part, bytes = encode part ∧ part ++ pattern <+: text := by
  induction text generalizing bytes with
  | nil =>
    have hnil := (List.append_eq_nil_iff.mp (List.prefix_nil.mp h)).2
    exact absurd (encode_eq_nil_iff.mp hnil) hne
  | cons c text ih =>
    cases bytes with
    | nil => exact ⟨[], rfl, encode_prefix_encode_iff.mp h⟩
    | cons b bytes =>
      rw [encode_cons] at h
      obtain ⟨behind, hbehind⟩ := utf8EncodeChar_prefix hne h
      rw [← hbehind, List.append_assoc, List.prefix_append_right_inj] at h
      obtain ⟨part, rfl, hpart⟩ := ih h
      exact ⟨c :: part, by rw [← hbehind, encode_cons], (List.prefix_cons_inj c).mpr hpart⟩

/-! ## Pieces between characters -/

/-- The offset `n` lies between two characters of a text, or at one of its ends. -/
def IsBoundary (text : List Char) (n : Nat) : Prop :=
  ∃ before, before <+: text ∧ (encode before).length = n

theorem isBoundary_iff (text : List Char) (n : Nat) :
    IsBoundary text n ↔ ∃ k ∈ List.range (text.length + 1), (encode (text.take k)).length = n := by
  constructor
  · rintro ⟨before, hbefore, hlength⟩
    refine ⟨before.length, List.mem_range.mpr (Nat.lt_succ_of_le hbefore.length_le), ?_⟩
    rw [← List.prefix_iff_eq_take.mp hbefore, hlength]
  · rintro ⟨k, -, hlength⟩
    exact ⟨text.take k, List.take_prefix k text, hlength⟩

instance (text : List Char) (n : Nat) : Decidable (IsBoundary text n) :=
  decidable_of_iff _ (isBoundary_iff text n).symm

/-- The text between two offsets of a source. -/
def between (source : Bytes) (start stop : Nat) : List Char :=
  decode (source.slice start stop)

section

variable {text : List Char} {start middle stop : Nat}

/-- **What is cut out between two characters is the encoding of a text.** -/
theorem exists_slice_eq_encode (hstart : IsBoundary text start) (hstop : IsBoundary text stop)
    (hle : start ≤ stop) :
    ∃ piece, (encode text).slice start stop = encode piece ∧
      (encode piece).length = stop - start := by
  obtain ⟨before, hbefore, rfl⟩ := hstart
  obtain ⟨upTo, hupTo, rfl⟩ := hstop
  have hpre : before <+: upTo := by
    rcases List.prefix_or_prefix_of_prefix hbefore hupTo with h | h
    · exact h
    · have heq := (encode_prefix_encode_iff.mpr h).eq_of_length_le hle
      exact encode_prefix_encode_iff.mp (heq ▸ List.prefix_rfl)
  obtain ⟨piece, rfl⟩ := hpre
  obtain ⟨after, rfl⟩ := hupTo
  refine ⟨piece, ?_, by rw [encode_append, List.length_append, Nat.add_sub_cancel_left]⟩
  rw [encode_append (before ++ piece), encode_append before, List.length_append, Bytes.slice,
    List.append_assoc, List.drop_left, Nat.add_sub_cancel_left, List.take_left]

theorem encode_between (hstart : IsBoundary text start) (hstop : IsBoundary text stop)
    (hle : start ≤ stop) :
    encode (between (encode text) start stop) = (encode text).slice start stop := by
  obtain ⟨piece, hpiece, -⟩ := exists_slice_eq_encode hstart hstop hle
  rw [between, hpiece, decode_encode]

theorem length_encode_between (hstart : IsBoundary text start) (hstop : IsBoundary text stop)
    (hle : start ≤ stop) : (encode (between (encode text) start stop)).length = stop - start := by
  obtain ⟨piece, hpiece, hlength⟩ := exists_slice_eq_encode hstart hstop hle
  rw [between, hpiece, decode_encode, hlength]

/-- Pieces that meet between two characters make up one. -/
theorem between_append_between (hstart : IsBoundary text start) (hmiddle : IsBoundary text middle)
    (hstop : IsBoundary text stop) (h₁ : start ≤ middle) (h₂ : middle ≤ stop) :
    between (encode text) start middle ++ between (encode text) middle stop
      = between (encode text) start stop := by
  rw [← decode_encode (_ ++ _), encode_append, encode_between hstart hmiddle h₁,
    encode_between hmiddle hstop h₂, Bytes.slice_append_slice _ h₁ h₂, between]

theorem between_isInfix {first last : Nat} (hfirst : IsBoundary text first)
    (hstart : IsBoundary text start) (hstop : IsBoundary text stop) (hlast : IsBoundary text last)
    (h₁ : first ≤ start) (h₂ : start ≤ stop) (h₃ : stop ≤ last) :
    between (encode text) start stop <:+: between (encode text) first last := by
  refine ⟨between (encode text) first start, between (encode text) stop last, ?_⟩
  rw [between_append_between hfirst hstart hstop h₁ h₂,
    between_append_between hfirst hstop hlast (Nat.le_trans h₁ h₂) h₃]

end

end Utf8

end SourceIndex
