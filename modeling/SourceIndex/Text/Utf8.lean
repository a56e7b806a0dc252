/-!
# UTF-8 with replacement

Text is encoded as UTF-8 and decoded without ever failing: where the bytes are not well formed,
the decoder writes one replacement character and goes on.

## How the decoder cuts

A lead byte announces how many bytes are still to come and the range the next one lies in.
`finish` reads them one at a time and gives up at the first byte that cannot continue the
sequence, **without consuming it**.  So one replacement character stands for each maximal piece
of a well-formed sequence, and for each byte that starts none.

## Why the loop stops

`decodeOnto` drops at least the byte it looks at (`length_next_le`), so the number of bytes left
is the measure.  It keeps the characters read so far in reverse, because a file may hold a
million of them.
-/

namespace SourceIndex

/-- The contents of a file, or a piece of them. -/
abbrev Bytes := List UInt8

namespace Bytes

/-- The bytes from position `start` up to, not including, `stop`; empty if `stop ≤ start`. -/
def slice (start stop : Nat) (bytes : Bytes) : Bytes :=
  (bytes.drop start).take (stop - start)

end Bytes

namespace Utf8

/-! ## Encoding -/

/-- The UTF-8 form of a text. -/
def encode (text : List Char) : Bytes :=
  text.flatMap String.utf8EncodeChar

@[simp] theorem encode_nil : encode [] = [] := rfl

theorem encode_append (s t : List Char) : encode (s ++ t) = encode s ++ encode t := by
  simp [encode]

/-! ## Decoding -/

/-- What is written in place of bytes that are not well formed. -/
def replacement : Char := '\ufffd'

/-- A sequence that its lead byte has opened. -/
structure Opened where
  /-- The bits read so far. -/
  bits : Nat
  /-- How many bytes are still to come. -/
  remaining : Nat
  /-- The least value of the next byte. -/
  low : UInt8
  /-- The greatest value of the next byte. -/
  high : UInt8

/-- What a byte opens; `none` if no sequence starts with it.  The bounds on the second byte keep
out overlong forms, surrogates and values past the last code point. -/
def opened? (b : UInt8) : Option Opened :=
  if b < 0x80 then some ⟨b.toNat, 0, 0x80, 0xBF⟩
  else if b < 0xC2 then none
  else if b < 0xE0 then some ⟨b.toNat % 32, 1, 0x80, 0xBF⟩
  else if b < 0xF0 then
    some ⟨b.toNat % 16, 2, if b == 0xE0 then 0xA0 else 0x80, if b == 0xED then 0x9F else 0xBF⟩
  else if b < 0xF5 then
    some ⟨b.toNat % 8, 3, if b == 0xF0 then 0x90 else 0x80, if b == 0xF4 then 0x8F else 0xBF⟩
  else none

/-- Reads the rest of an opened sequence: the character, and the bytes after it. -/
def finish (bits : Nat) : Nat → UInt8 → UInt8 → Bytes → Char × Bytes
  | 0, _, _, rest => (Char.ofNat bits, rest)
  | _ + 1, _, _, [] => (replacement, [])
  | n + 1, low, high, b :: rest =>
    if low ≤ b ∧ b ≤ high then finish (bits * 64 + b.toNat % 64) n 0x80 0xBF rest
    else (replacement, b :: rest)

/-- The first character of `b :: rest`, and the bytes after it. -/
def next (b : UInt8) (rest : Bytes) : Char × Bytes :=
  match opened? b with
  | none => (replacement, rest)
  | some o => finish o.bits o.remaining o.low o.high rest

theorem length_finish_le (bits n : Nat) (low high : UInt8) (rest : Bytes) :
    (finish bits n low high rest).2.length ≤ rest.length := by
  induction n generalizing bits low high rest with
  | zero => simp [finish]
  | succ n ih =>
    cases rest with
    | nil => simp [finish]
    | cons b rest =>
      rw [finish]
      split
      · exact Nat.le_succ_of_le (ih _ _ _ _)
      · exact Nat.le_refl _

/-- Reading a character never adds bytes. -/
theorem length_next_le (b : UInt8) (rest : Bytes) : (next b rest).2.length ≤ rest.length := by
  unfold next
  split
  · exact Nat.le_refl _
  · exact length_finish_le _ _ _ _ _

/-- Decodes `bytes` behind the characters of `seen`, which are in reverse. -/
def decodeOnto (seen : List Char) : Bytes → List Char
  | [] => seen.reverse
  | b :: rest => decodeOnto ((next b rest).1 :: seen) (next b rest).2
termination_by bytes => bytes.length
decreasing_by exact Nat.lt_succ_of_le (length_next_le b rest)

/-- The text that `bytes` hold, ill-formed pieces replaced. -/
def decode (bytes : Bytes) : List Char :=
  decodeOnto [] bytes

theorem decodeOnto_eq (seen : List Char) (bytes : Bytes) :
    decodeOnto seen bytes = seen.reverse ++ decode bytes := by
  unfold decode
  induction h : bytes.length using Nat.strongRecOn generalizing seen bytes with
  | _ n ih =>
    cases bytes with
    | nil => simp [decodeOnto]
    | cons b rest =>
      have hlt : (next b rest).2.length < n := by
        rw [← h]
        exact Nat.lt_succ_of_le (length_next_le b rest)
      rw [decodeOnto, decodeOnto, ih _ hlt ((next b rest).1 :: seen) _ rfl,
        ih _ hlt [(next b rest).1] _ rfl]
      simp

@[simp] theorem decode_nil : decode [] = [] := by
  simp [decode, decodeOnto]

/-- **Decoding takes one character at a time.** -/
theorem decode_cons (b : UInt8) (rest : Bytes) :
    decode (b :: rest) = (next b rest).1 :: decode (next b rest).2 := by
  rw [decode, decodeOnto, decodeOnto_eq]
  simp

end Utf8

end SourceIndex
