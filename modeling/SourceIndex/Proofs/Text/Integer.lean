import SourceIndex.Text.Decimal
import SourceIndex.Text.Integer
import Mathlib.Algebra.Ring.Nat
import Mathlib.Data.List.TakeWhile

/-!
# Integers are read as they are written

Reading is far more lenient than writing: it takes digits of any script, underscores, and white space
around.  What writing makes has none of that, so each step of reading passes it on as it is, and
**an integer that has not too many digits is read back from its decimal form**
(`readInteger?_decimal`).
-/

namespace SourceIndex.Text

/-! ## Texts of ASCII digits -/

theorem digitValue?_of_isDigit {c : Char} (h : c.isDigit = true) :
    digitValue? c = some (c.toNat - '0'.toNat) := by
  obtain ⟨hlow, hhigh⟩ := Char.isDigit_iff_toNat.mp h
  -- The ASCII digits come first in the table.
  have hfirst : zeroDigits.find? (fun z => z ≤ c.toNat && c.toNat ≤ z + 9) = some 0x30 := by
    refine List.find?_cons_of_pos ?_
    rw [Bool.and_eq_true, decide_eq_true_eq, decide_eq_true_eq]
    exact ⟨hlow, hhigh⟩
  rw [digitValue?, hfirst]
  rfl

theorem digitValues?_of_isDigit {text : List Char} (hne : text ≠ [])
    (h : ∀ c ∈ text, c.isDigit = true) :
    digitValues? text = some (text.map (fun c => c.toNat - '0'.toNat)) := by
  fun_induction digitValues? text with
  | case1 => exact absurd rfl hne
  | case2 c => rw [digitValue?_of_isDigit (h c List.mem_cons_self)]; rfl
  | case3 c rest ih => exact absurd (h '_' (by simp)) (by decide)
  | case4 c rest hone hunderscore ih =>
    have hrest : rest ≠ [] := by
      rintro rfl
      exact hone rfl
    rw [digitValue?_of_isDigit (h c List.mem_cons_self),
      ih hrest (fun d hd => h d (List.mem_cons_of_mem c hd))]
    rfl

theorem ofDigits_map_eq_ofDigitChars (text : List Char) :
    ofDigits (text.map (fun c => c.toNat - '0'.toNat)) = Nat.ofDigitChars 10 text 0 := by
  rw [ofDigits, List.foldl_map, Nat.ofDigitChars_eq_foldl]
  simp only [Nat.mul_comm]

theorem isDigit_toDigits (n : Nat) : ∀ c ∈ Nat.toDigits 10 n, c.isDigit = true :=
  fun _ hc => Nat.isDigit_of_mem_toDigits (by decide) (by decide) hc

/-- A natural number is read back from its digits, unless there are too many. -/
theorem readNat?_toDigits (n : Nat) :
    readNat? (Nat.toDigits 10 n)
      = if (Nat.toDigits 10 n).length ≤ maxDigits then some n else none := by
  rw [readNat?, digitValues?_of_isDigit Nat.toDigits_ne_nil (isDigit_toDigits n)]
  simp only [Option.bind_eq_bind, Option.bind_some, List.length_map, ofDigits_map_eq_ofDigitChars,
    Nat.ofDigitChars_ten_toDigits]
  by_cases hn : (Nat.toDigits 10 n).length ≤ maxDigits
  · rw [if_pos hn, if_neg (Nat.not_lt.mpr hn)]
  · rw [if_neg hn, if_pos (Nat.lt_of_not_le hn)]

/-! ## Decimal forms -/

theorem isReadable_iff {n : Int} : isReadable n = true ↔ n.natAbs < 10 ^ maxDigits := by
  rw [isReadable, decide_eq_true_iff]
  exact Nat.length_toDigits_le_iff (by decide) (by decide)

theorem isReadable_natCast {n : Nat} : isReadable n = true ↔ n < 10 ^ maxDigits := by
  rw [isReadable_iff, Int.natAbs_natCast]

theorem isReadable_of_between {a n b : Int} (ha : isReadable a = true) (hb : isReadable b = true)
    (hlow : a ≤ n) (hhigh : n ≤ b) : isReadable n = true := by
  rw [isReadable_iff] at ha hb ⊢
  generalize 10 ^ maxDigits = bound at ha hb ⊢
  omega

theorem isDigit_of_mem_decimal {n : Int} {c : Char} (h : c ∈ decimal n) (hc : c ≠ '-') :
    c.isDigit = true := by
  unfold decimal at h
  split at h
  · exact isDigit_toDigits _ c (List.mem_of_ne_of_mem hc h)
  · exact isDigit_toDigits _ c h

/-- What is written has nothing in it that could stand around an integer. -/
theorem not_surroundsInteger_of_mem_decimal {n : Int} {c : Char} (h : c ∈ decimal n) :
    surroundsInteger c = false := by
  by_cases hc : c = '-'
  · subst hc
    decide
  · obtain ⟨hlow, hhigh⟩ := Char.isDigit_iff_toNat.mp (isDigit_of_mem_decimal h hc)
    have hlow : 48 ≤ c.toNat := hlow
    have hhigh : c.toNat ≤ 57 := hhigh
    have hblank : isBlank c = false := by
      simp only [isBlank, Bool.or_eq_false_iff, Bool.and_eq_false_iff, decide_eq_false_iff_not,
        beq_eq_false_iff_ne]
      omega
    rw [surroundsInteger, hblank, Bool.false_and]

theorem readSigned?_of_isDigit {text : List Char} (h : ∀ c ∈ text, c.isDigit = true) :
    readSigned? text = (readNat? text).map Int.ofNat := by
  unfold readSigned?
  split
  · exact absurd (h '-' List.mem_cons_self) (by decide)
  · exact absurd (h '+' List.mem_cons_self) (by decide)
  · rfl

theorem readSigned?_decimal (n : Int) :
    readSigned? (decimal n) = if isReadable n then some n else none := by
  have hnat : readNat? (Nat.toDigits 10 n.natAbs)
      = if isReadable n then some n.natAbs else none := by
    rw [readNat?_toDigits, isReadable]
    simp only [decide_eq_true_eq]
  generalize isReadable n = readable at hnat ⊢
  by_cases hneg : n < 0
  · have hvalue : -(n.natAbs : Int) = n := by omega
    have hform : decimal n = '-' :: Nat.toDigits 10 n.natAbs := if_pos hneg
    rw [hform, readSigned?, hnat]
    cases readable with
    | false => rfl
    | true => exact congrArg some hvalue
  · have hvalue : (n.natAbs : Int) = n := by omega
    have hform : decimal n = Nat.toDigits 10 n.natAbs := if_neg hneg
    rw [hform, readSigned?_of_isDigit (isDigit_toDigits n.natAbs), hnat]
    cases readable with
    | false => rfl
    | true => exact congrArg some hvalue

/-- **An integer is read back from its decimal form**, unless it has too many digits. -/
theorem readInteger?_decimal (n : Int) :
    readInteger? (decimal n) = if isReadable n then some n else none := by
  have hkept {text : List Char} (h : ∀ c ∈ text, surroundsInteger c = false) :
      text.dropWhile surroundsInteger = text := by
    refine List.dropWhile_eq_self_iff.mpr ?_
    intro hl
    rw [h _ (List.getElem_mem hl)]
    decide
  rw [readInteger?, hkept (fun c hc => not_surroundsInteger_of_mem_decimal hc),
    hkept (fun c hc => not_surroundsInteger_of_mem_decimal (List.mem_reverse.mp hc)),
    List.reverse_reverse]
  exact readSigned?_decimal n

end SourceIndex.Text
