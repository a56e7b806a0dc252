import SourceIndex.Text.Quoted
import SourceIndex.Text.Utf8

/-!
# SHA-256

The digest by which two readings of a file are told apart.  The message is padded to whole blocks
of 64 bytes, each block is spread over 64 words, and 64 rounds mix them into the eight words of the
state.

Every loop runs over a list or over a number that falls by one.
-/

namespace SourceIndex.Sha256

/-! ## Constants -/

/-- The constant of each round. -/
def roundConstants : List UInt32 :=
  [ 0x428a2f98, 0x71374491, 0xb5c0fbcf, 0xe9b5dba5, 0x3956c25b, 0x59f111f1, 0x923f82a4, 0xab1c5ed5,
    0xd807aa98, 0x12835b01, 0x243185be, 0x550c7dc3, 0x72be5d74, 0x80deb1fe, 0x9bdc06a7, 0xc19bf174,
    0xe49b69c1, 0xefbe4786, 0x0fc19dc6, 0x240ca1cc, 0x2de92c6f, 0x4a7484aa, 0x5cb0a9dc, 0x76f988da,
    0x983e5152, 0xa831c66d, 0xb00327c8, 0xbf597fc7, 0xc6e00bf3, 0xd5a79147, 0x06ca6351, 0x14292967,
    0x27b70a85, 0x2e1b2138, 0x4d2c6dfc, 0x53380d13, 0x650a7354, 0x766a0abb, 0x81c2c92e, 0x92722c85,
    0xa2bfe8a1, 0xa81a664b, 0xc24b8b70, 0xc76c51a3, 0xd192e819, 0xd6990624, 0xf40e3585, 0x106aa070,
    0x19a4c116, 0x1e376c08, 0x2748774c, 0x34b0bcb5, 0x391c0cb3, 0x4ed8aa4a, 0x5b9cca4f, 0x682e6ff3,
    0x748f82ee, 0x78a5636f, 0x84c87814, 0x8cc70208, 0x90befffa, 0xa4506ceb, 0xbef9a3f7, 0xc67178f2 ]

/-! ## Padding -/

/-- The low `width` bytes of `n`, the most significant first. -/
def bigEndian : (width : Nat) → Nat → Bytes
  | 0, _ => []
  | width + 1, n => bigEndian width (n / 256) ++ [UInt8.ofNat (n % 256)]

/-- What follows a message of `length` bytes: a one bit, zeros up to eight bytes short of a whole
number of blocks, and the number of bits. -/
def padding (length : Nat) : Bytes :=
  0x80 :: (List.replicate ((119 - length % 64) % 64) 0 ++ bigEndian 8 (length * 8))

/-! ## One block -/

/-- Rotates a word to the right. -/
def rotate (x n : UInt32) : UInt32 :=
  (x >>> n) ||| (x <<< (32 - n))

/-- The word that four bytes stand for. -/
def word (a b c d : UInt8) : UInt32 :=
  (a.toUInt32 <<< 24) ||| (b.toUInt32 <<< 16) ||| (c.toUInt32 <<< 8) ||| d.toUInt32

/-- The words of a block. -/
def words : Bytes → List UInt32
  | a :: b :: c :: d :: rest => word a b c d :: words rest
  | _ => []

/-- The word that follows `recent`, the latest sixteen words with the latest first. -/
def nextWord (recent : List UInt32) : UInt32 :=
  let back (n : Nat) : UInt32 := recent.getD (n - 1) 0
  let s0 := rotate (back 15) 7 ^^^ rotate (back 15) 18 ^^^ (back 15 >>> 3)
  let s1 := rotate (back 2) 17 ^^^ rotate (back 2) 19 ^^^ (back 2 >>> 10)
  back 16 + s0 + back 7 + s1

/-- Adds `n` words in front of the words so far. -/
def extend : Nat → List UInt32 → List UInt32
  | 0, ws => ws
  | n + 1, ws => extend n (nextWord ws :: ws)

/-- The words of all rounds for a block. -/
def schedule (block : Bytes) : List UInt32 :=
  (extend 48 (words block).reverse).reverse

/-- The eight words that the rounds mix. -/
structure State where
  a : UInt32
  b : UInt32
  c : UInt32
  d : UInt32
  e : UInt32
  f : UInt32
  g : UInt32
  h : UInt32

/-- The state before the first block. -/
def State.start : State :=
  ⟨0x6a09e667, 0xbb67ae85, 0x3c6ef372, 0xa54ff53a, 0x510e527f, 0x9b05688c, 0x1f83d9ab, 0x5be0cd19⟩

/-- One round, with its word and its constant. -/
def round (s : State) (w k : UInt32) : State :=
  let s1 := rotate s.e 6 ^^^ rotate s.e 11 ^^^ rotate s.e 25
  let choice := (s.e &&& s.f) ^^^ (~~~s.e &&& s.g)
  let t1 := s.h + s1 + choice + k + w
  let s0 := rotate s.a 2 ^^^ rotate s.a 13 ^^^ rotate s.a 22
  let majority := (s.a &&& s.b) ^^^ (s.a &&& s.c) ^^^ (s.b &&& s.c)
  ⟨t1 + (s0 + majority), s.a, s.b, s.c, s.d + t1, s.e, s.f, s.g⟩

/-- All rounds. -/
def rounds : State → List UInt32 → List UInt32 → State
  | s, w :: ws, k :: ks => rounds (round s w k) ws ks
  | s, _, _ => s

/-- Takes a block into the state. -/
def absorb (s : State) (block : Bytes) : State :=
  let t := rounds s (schedule block) roundConstants
  ⟨s.a + t.a, s.b + t.b, s.c + t.c, s.d + t.d, s.e + t.e, s.f + t.f, s.g + t.g, s.h + t.h⟩

/-! ## The digest -/

/-- Takes `n` blocks from the front of a message into the state. -/
def absorbBlocks : Nat → State → Bytes → State
  | 0, s, _ => s
  | n + 1, s, message => absorbBlocks n (absorb s (message.take 64)) (message.drop 64)

/-- The state after a whole message. -/
def run (message : Bytes) : State :=
  let padded := message ++ padding message.length
  absorbBlocks (padded.length / 64) .start padded

/-- The digest of a message, in hexadecimal. -/
def hexDigest (message : Bytes) : String :=
  let s := run message
  String.ofList ([s.a, s.b, s.c, s.d, s.e, s.f, s.g, s.h].flatMap (fun w => Text.hex 8 w.toNat))

end SourceIndex.Sha256
