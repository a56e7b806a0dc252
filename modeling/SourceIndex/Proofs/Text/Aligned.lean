import SourceIndex.Proofs.FileSystem
import SourceIndex.Proofs.Text.Utf8
import SourceIndex.SyntaxTree.Basic
import Mathlib.Data.List.Forall2

/-!
# Text and offsets stay aligned

A file is read as text, ill-formed pieces replaced, and the text is encoded again before it is parsed;
the offsets of the nodes count the bytes of that encoding, not those of the file.

`forms` is the table of the well-formed sequences of UTF-8, and `WellFormed` bytes are such sequences
one after another.  That says nothing of encoding or decoding; it is a theorem that the sequences are
the encodings of characters (`isSequence_utf8EncodeChar`, `IsSequence.exists_char`), so **bytes are
well formed exactly if they are the encoding of some text** (`wellFormed_iff`), and exactly if reading
and encoding give them back (`encode_decode_eq_iff`).

So what is parsed is well formed and holds the text that was read; it is what the file holds exactly
if that is well formed; and **a node that spans a piece of the text has that piece as its text**
(`readSource_aligned`).
-/

namespace SourceIndex

namespace Utf8

/-! ## Well-formed bytes -/

/-- The ranges that the bytes of a character lie in, for each form that a character can have. -/
def forms : List (List (Nat × Nat)) :=
  [ [(0x00, 0x7F)],
    [(0xC2, 0xDF), (0x80, 0xBF)],
    [(0xE0, 0xE0), (0xA0, 0xBF), (0x80, 0xBF)],
    [(0xE1, 0xEC), (0x80, 0xBF), (0x80, 0xBF)],
    [(0xED, 0xED), (0x80, 0x9F), (0x80, 0xBF)],
    [(0xEE, 0xEF), (0x80, 0xBF), (0x80, 0xBF)],
    [(0xF0, 0xF0), (0x90, 0xBF), (0x80, 0xBF), (0x80, 0xBF)],
    [(0xF1, 0xF3), (0x80, 0xBF), (0x80, 0xBF), (0x80, 0xBF)],
    [(0xF4, 0xF4), (0x80, 0x8F), (0x80, 0xBF), (0x80, 0xBF)] ]

/-- A byte lies in a range. -/
def Fits (range : Nat × Nat) (b : UInt8) : Prop := range.1 ≤ b.toNat ∧ b.toNat ≤ range.2

/-- Bytes of one of the forms. -/
def IsSequence (bytes : Bytes) : Prop := ∃ form ∈ forms, List.Forall₂ Fits form bytes

/-- Sequences of the forms one after another, and nothing else. -/
inductive WellFormed : Bytes → Prop
  | nil : WellFormed []
  | append {first rest : Bytes} (hf : IsSequence first) (hr : WellFormed rest) :
      WellFormed (first ++ rest)

/-! ## Sequences by their length -/

section

variable {a b c d : UInt8}

theorem isSequence_one_iff : IsSequence [a] ↔ a.toNat ≤ 0x7F := by
  simp [IsSequence, forms, Fits]

theorem isSequence_two_iff :
    IsSequence [a, b] ↔ (0xC2 ≤ a.toNat ∧ a.toNat ≤ 0xDF) ∧ 0x80 ≤ b.toNat ∧ b.toNat ≤ 0xBF := by
  simp [IsSequence, forms, Fits]

/-- The second byte keeps out overlong forms and surrogates. -/
theorem isSequence_three_iff :
    IsSequence [a, b, c] ↔ (0xE0 ≤ a.toNat ∧ a.toNat ≤ 0xEF) ∧
      (0x80 ≤ b.toNat ∧ b.toNat ≤ 0xBF) ∧ (0x80 ≤ c.toNat ∧ c.toNat ≤ 0xBF) ∧
      (a.toNat = 0xE0 → 0xA0 ≤ b.toNat) ∧ (a.toNat = 0xED → b.toNat ≤ 0x9F) := by
  simp only [IsSequence, forms, Fits, List.mem_cons, List.not_mem_nil, exists_eq_or_imp,
    exists_eq_left, List.forall₂_cons, List.forall₂_nil_left_iff, List.forall₂_nil_right_iff,
    reduceCtorEq, List.cons_ne_self, and_true, and_false, or_false, false_or]
  omega

/-- The second byte keeps out overlong forms and what lies past the last code point. -/
theorem isSequence_four_iff :
    IsSequence [a, b, c, d] ↔ (0xF0 ≤ a.toNat ∧ a.toNat ≤ 0xF4) ∧
      (0x80 ≤ b.toNat ∧ b.toNat ≤ 0xBF) ∧ (0x80 ≤ c.toNat ∧ c.toNat ≤ 0xBF) ∧
      (0x80 ≤ d.toNat ∧ d.toNat ≤ 0xBF) ∧ (a.toNat = 0xF0 → 0x90 ≤ b.toNat) ∧
      (a.toNat = 0xF4 → b.toNat ≤ 0x8F) := by
  simp only [IsSequence, forms, Fits, List.mem_cons, List.not_mem_nil, exists_eq_or_imp,
    exists_eq_left, List.forall₂_cons, List.forall₂_nil_left_iff, List.forall₂_nil_right_iff,
    reduceCtorEq, List.cons_ne_self, and_true, and_false, or_false, false_or]
  omega

end

theorem IsSequence.length {bytes : Bytes} (h : IsSequence bytes) :
    1 ≤ bytes.length ∧ bytes.length ≤ 4 := by
  have hforms : ∀ form ∈ forms, 1 ≤ form.length ∧ form.length ≤ 4 := by decide
  obtain ⟨form, hform, hbytes⟩ := h
  rw [← hbytes.length_eq]
  exact hforms form hform

/-! ## Sequences are characters -/

/-- A character is encoded as a sequence of one of the forms. -/
theorem isSequence_utf8EncodeChar (c : Char) : IsSequence (String.utf8EncodeChar c) := by
  have hvalid : c.val.toNat < 0xD800 ∨ 0xDFFF < c.val.toNat ∧ c.val.toNat < 0x110000 := c.valid
  fun_cases String.utf8EncodeChar c with
  | case1 v h =>
    rw [isSequence_one_iff, toNat_ofNat (by omega)]
    exact h
  | case2 v h h' =>
    rw [isSequence_two_iff, toNat_ofNat (by omega), toNat_ofNat (by omega)]
    omega
  | case3 v h h' h'' =>
    rw [isSequence_three_iff, toNat_ofNat (by omega), toNat_ofNat (by omega),
      toNat_ofNat (by omega)]
    omega
  | case4 v h h' h'' =>
    rw [isSequence_four_iff, toNat_ofNat (by omega), toNat_ofNat (by omega),
      toNat_ofNat (by omega), toNat_ofNat (by omega)]
    omega

theorem exists_val_eq {v : Nat} (h : v < 0xD800 ∨ 0xDFFF < v ∧ v < 0x110000) :
    ∃ c : Char, c.val.toNat = v :=
  ⟨Char.ofNatAux v h, rfl⟩

theorem ofNat_eq {n : Nat} {b : UInt8} (h : n = b.toNat) : UInt8.ofNat n = b := by
  rw [h, UInt8.ofNat_toNat]

/-- A sequence of one of the forms is the encoding of a character: the one with the bits that its
bytes hold. -/
theorem IsSequence.exists_char {bytes : Bytes} (h : IsSequence bytes) :
    ∃ c, String.utf8EncodeChar c = bytes := by
  obtain ⟨hlow, hhigh⟩ := h.length
  unfold String.utf8EncodeChar
  match bytes, h with
  | [], _ => cases hlow
  | [a], h =>
    rw [isSequence_one_iff] at h
    obtain ⟨x, hx⟩ := exists_val_eq (v := a.toNat) (by omega)
    refine ⟨x, ?_⟩
    simp only [hx]
    rw [if_pos h, UInt8.ofNat_toNat]
  | [a, b], h =>
    rw [isSequence_two_iff] at h
    obtain ⟨x, hx⟩ := exists_val_eq (v := a.toNat % 32 * 64 + b.toNat % 64) (by omega)
    refine ⟨x, ?_⟩
    simp only [hx]
    rw [if_neg (by omega), if_pos (by omega), ofNat_eq (b := a) (by omega),
      ofNat_eq (b := b) (by omega)]
  | [a, b, c], h =>
    rw [isSequence_three_iff] at h
    obtain ⟨x, hx⟩ := exists_val_eq
      (v := (a.toNat % 16 * 64 + b.toNat % 64) * 64 + c.toNat % 64) (by omega)
    refine ⟨x, ?_⟩
    simp only [hx]
    rw [if_neg (by omega), if_neg (by omega), if_pos (by omega), ofNat_eq (b := a) (by omega),
      ofNat_eq (b := b) (by omega), ofNat_eq (b := c) (by omega)]
  | [a, b, c, d], h =>
    rw [isSequence_four_iff] at h
    obtain ⟨x, hx⟩ := exists_val_eq
      (v := ((a.toNat % 8 * 64 + b.toNat % 64) * 64 + c.toNat % 64) * 64 + d.toNat % 64) (by omega)
    refine ⟨x, ?_⟩
    simp only [hx]
    rw [if_neg (by omega), if_neg (by omega), if_neg (by omega), ofNat_eq (b := a) (by omega),
      ofNat_eq (b := b) (by omega), ofNat_eq (b := c) (by omega), ofNat_eq (b := d) (by omega)]
  | _ :: _ :: _ :: _ :: _ :: _, _ =>
    simp only [List.length_cons] at hhigh
    omega

theorem wellFormed_encode (text : List Char) : WellFormed (encode text) := by
  induction text with
  | nil => exact .nil
  | cons c text ih =>
    rw [encode_cons]
    exact .append (isSequence_utf8EncodeChar c) ih

/-- **Bytes are well formed exactly if they are the encoding of some text.** -/
theorem wellFormed_iff {bytes : Bytes} : WellFormed bytes ↔ ∃ text, encode text = bytes := by
  constructor
  · intro h
    induction h with
    | nil => exact ⟨[], rfl⟩
    | append hf _ ih =>
      obtain ⟨c, rfl⟩ := hf.exists_char
      obtain ⟨text, rfl⟩ := ih
      exact ⟨c :: text, encode_cons c text⟩
  · rintro ⟨text, rfl⟩
    exact wellFormed_encode text

/-- Bytes are given back by reading and encoding exactly if they are well formed. -/
theorem encode_decode_eq_iff {bytes : Bytes} :
    encode (decode bytes) = bytes ↔ WellFormed bytes := by
  rw [wellFormed_iff]
  constructor
  · intro h
    exact ⟨decode bytes, h⟩
  · rintro ⟨text, rfl⟩
    rw [decode_encode]

end Utf8

open Utf8

/-! ## What is read and what is parsed -/

/-- A node that spans a piece of a text, in the encoding of the text, has the piece as its text. -/
theorem Node.text_encode {node : Node} (before piece after : List Char)
    (hstart : node.startByte = (encode before).length)
    (hend : node.endByte = (encode (before ++ piece)).length) :
    node.text (encode (before ++ piece ++ after)) = piece := by
  have hbytes : (encode (before ++ piece ++ after)).slice node.startByte node.endByte
      = encode piece := by
    rw [hstart, hend, encode_append (before ++ piece),
      Bytes.slice_append_right _ _ (Nat.le_refl _), encode_append, Bytes.slice, List.drop_left,
      List.length_append, Nat.add_sub_cancel_left, List.take_length]
  rw [Node.text, Node.bytes, hbytes, decode_encode]

/-- A text stands for the content of a file: its encoding is well formed, and is the content if that
is; and offsets into the encoding show the text. -/
structure Aligned (content : Bytes) (text : List Char) : Prop where
  wellFormed : WellFormed (encode text)
  decode_encode : decode (encode text) = text
  encode_eq_iff : encode text = content ↔ WellFormed content
  text_eq : ∀ (before piece after : List Char) (node : Node), before ++ piece ++ after = text →
    node.startByte = (encode before).length → node.endByte = (encode (before ++ piece)).length →
    node.text (encode text) = piece

theorem aligned_decode (content : Bytes) : Aligned content (decode content) where
  wellFormed := wellFormed_encode _
  decode_encode := decode_encode _
  encode_eq_iff := encode_decode_eq_iff
  text_eq := by
    intro before piece after node htext hstart hend
    rw [← htext]
    exact Node.text_encode before piece after hstart hend

/-- **A file that can be read gives a text that stands for its content**, whatever bytes it holds. -/
theorem readSource_aligned {fs : FileSystem} {path : String} {content : Bytes}
    (h : fs.Gives path content) :
    ∃ source, fs.readSource path = .ok source ∧ Aligned content source.text.toList := by
  refine ⟨Source.ofBytes content, h.readSource, ?_⟩
  rw [Source.ofBytes, String.toList_ofList]
  exact aligned_decode content

/-- A file whose first character is cut off after two of its three bytes. -/
def cutContent : Bytes := [0xE2, 0x86, 0x61]

/-- The file system that holds the file. -/
def cutFile : FileSystem :=
  FileSystem.bareWs.write (Path.parse "/ws/a.py") (.file cutContent)

/-- The character is replaced, which takes three bytes; the letter behind it begins after them. -/
theorem readSource_aligned_cutFile :
    cutFile.Gives "/ws/a.py" cutContent ∧ ¬WellFormed cutContent ∧
      ∃ source, cutFile.readSource "/ws/a.py" = .ok source ∧ source.text = "\ufffda" ∧
        (Node.mk "identifier" 3 4 0 0 [] 0).text (encode source.text.toList) = ['a'] := by
  have hgives : cutFile.Gives "/ws/a.py" cutContent := ⟨by decide +kernel, by decide +kernel⟩
  have htext : decode cutContent = ['\ufffd', 'a'] := by decide +kernel
  obtain ⟨source, hread, haligned⟩ := readSource_aligned hgives
  have hsource : source.text = "\ufffda" := by
    obtain rfl := Except.ok.inj (hgives.readSource.symm.trans hread)
    exact congrArg String.ofList htext
  have hlist : source.text.toList = ['\ufffd'] ++ ['a'] ++ [] := congrArg String.toList hsource
  refine ⟨hgives, ?_, source, hread, hsource, ?_⟩
  · rw [← haligned.encode_eq_iff, hlist]
    decide +kernel
  · exact haligned.text_eq ['\ufffd'] ['a'] [] _ hlist.symm (by decide +kernel) (by decide +kernel)

end SourceIndex
