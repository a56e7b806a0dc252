import SourceIndex.CodeIndex
import SourceIndex.Proofs.Text.Blank
import SourceIndex.Proofs.Text.Integer
import Mathlib.Data.List.Basic

/-!
# JSON text tells its value

No form that a value is written in begins another, unless it is a number, which more digits would go
on.  So a value can be told from the text that it begins, as long as no digit follows it, and so can
the text behind it (`Json.render_append_inj`).  That is shown for each part in turn: the characters of
a string (`Written.append_inj`), where a surrogate is never taken for a character of its own because
no character is one; strings, whose quote no escape begins with; numbers; and, by recursion on the
value, arrays and objects.

**The JSON text of an index or of an outline therefore tells all of it** (`pretty_toJson_inj`).
-/

namespace SourceIndex

/-! ## Numbers -/

namespace Text

/-- A text does not begin with a digit. -/
def NoDigit (text : List Char) : Prop := ∀ c, text.head? = some c → c.isDigit = false

theorem noDigit_nil : NoDigit [] := nofun

theorem noDigit_cons {c : Char} (h : c.isDigit = false) (text : List Char) :
    NoDigit (c :: text) := by
  intro d hd
  rw [← Option.some.inj hd]
  exact h

theorem toDigits_append_inj {m n : Nat} {r s : List Char} (hr : NoDigit r) (hs : NoDigit s)
    (h : Nat.toDigits 10 m ++ r = Nat.toDigits 10 n ++ s) : m = n ∧ r = s := by
  have hrest {k : Nat} {t : List Char} (ht : NoDigit t) :
      (Nat.toDigits 10 k ++ t).dropWhile Char.isDigit = t := by
    rw [List.dropWhile_append_of_pos (isDigit_toDigits k), dropWhile_of_head? ht]
  obtain rfl : r = s := by
    rw [← hrest (k := m) hr, h, hrest hs]
  have hdigits := congrArg (Nat.ofDigitChars 10 · 0) (List.append_cancel_right h)
  simp only [Nat.ofDigitChars_ten_toDigits] at hdigits
  exact ⟨hdigits, rfl⟩

theorem exists_toDigits_eq (n : Nat) :
    ∃ c rest, Nat.toDigits 10 n = c :: rest ∧ c.isDigit = true := by
  obtain ⟨c, rest, hc⟩ := List.exists_cons_of_ne_nil (Nat.toDigits_ne_nil (n := n) (b := 10))
  exact ⟨c, rest, hc, isDigit_toDigits n c (by rw [hc]; exact List.mem_cons_self)⟩

/-- The digits of a number do not begin with a minus sign. -/
theorem toDigits_append_ne (n : Nat) (r s : List Char) : Nat.toDigits 10 n ++ r ≠ '-' :: s := by
  intro h
  obtain ⟨c, rest, hc, hdigit⟩ := exists_toDigits_eq n
  rw [hc] at h
  rw [(List.cons.inj h).1] at hdigit
  cases hdigit

theorem decimal_append_inj {m n : Int} {r s : List Char} (hr : NoDigit r) (hs : NoDigit s)
    (h : decimal m ++ r = decimal n ++ s) : m = n ∧ r = s := by
  unfold decimal at h
  split at h
  · split at h
    · obtain ⟨hn, hrest⟩ := toDigits_append_inj hr hs (List.cons.inj h).2
      exact ⟨by omega, hrest⟩
    · exact absurd h.symm (toDigits_append_ne _ _ _)
  · split at h
    · exact absurd h (toDigits_append_ne _ _ _)
    · obtain ⟨hn, hrest⟩ := toDigits_append_inj hr hs h
      exact ⟨by omega, hrest⟩

/-! ## Hexadecimal digits -/

theorem digitChar_inj {m n : Nat} (hm : m < 16) (hn : n < 16)
    (h : Nat.digitChar m = Nat.digitChar n) : m = n := by
  have hall : ∀ a ∈ List.range 16, ∀ b ∈ List.range 16,
      Nat.digitChar a = Nat.digitChar b → a = b := by decide
  exact hall m (List.mem_range.mpr hm) n (List.mem_range.mpr hn) h

theorem hex_inj {width m n : Nat} (hm : m < 16 ^ width) (hn : n < 16 ^ width)
    (h : hex width m = hex width n) : m = n := by
  induction width generalizing m n with
  | zero => omega
  | succ width ih =>
    rw [hex, hex] at h
    obtain ⟨hinit, hlast⟩ := List.append_inj' h rfl
    rw [Nat.pow_succ] at hm hn
    have hdiv := ih (by omega) (by omega) hinit
    have hmod := digitChar_inj (by omega) (by omega) (List.cons.inj hlast).1
    omega

end Text

namespace Json

open Text (NoDigit)

/-! ## Strings -/

theorem unit_append_inj {m n : Nat} {r s : List Char} (hm : m < 0x10000) (hn : n < 0x10000)
    (h : unit m ++ r = unit n ++ s) : m = n ∧ r = s := by
  have hlength : (unit m).length = (unit n).length := by
    simp only [unit, List.length_cons, Text.length_hex]
  obtain ⟨hunit, hrest⟩ := List.append_inj h hlength
  exact ⟨Text.hex_inj hm hn (List.cons.inj (List.cons.inj hunit).2).2, hrest⟩

/-- The characters that are written as a backslash and a letter, with their letters. -/
def letters : List (Char × Char) :=
  [('"', '"'), ('\\', '\\'), ('\n', 'n'), ('\r', 'r'), ('\t', 't'), ('\x08', 'b'), ('\x0c', 'f')]

/-- The ways in which a character is written. -/
inductive Written : Char → List Char → Prop
  | letter {c x : Char} (h : (c, x) ∈ letters) : Written c ['\\', x]
  | plain {c : Char} (hquote : c ≠ '"') (hback : c ≠ '\\') : Written c [c]
  | one {c : Char} (h : c.toNat < 0x10000) : Written c (unit c.toNat)
  | two {c : Char} {high low : Nat} (hhigh : 0xD800 ≤ high ∧ high < 0xDC00)
      (hlow : 0xDC00 ≤ low ∧ low < 0xE000)
      (h : c.toNat = 0x10000 + (high - 0xD800) * 0x400 + (low - 0xDC00)) :
      Written c (unit high ++ unit low)

theorem written_escape (c : Char) : Written c (escape c) := by
  have hlast : c.toNat < 0x110000 := by
    have hvalid : c.val.toNat < 0xD800 ∨ 0xDFFF < c.val.toNat ∧ c.val.toNat < 0x110000 := c.valid
    rw [Char.toNat]
    omega
  fun_cases escape c with
  | case1 h | case2 _ h | case3 _ _ h | case4 _ _ _ h | case5 _ _ _ _ h | case6 _ _ _ _ _ h
  | case7 _ _ _ _ _ _ h =>
    subst h
    exact .letter (by decide)
  | case8 hquote hback => exact .plain hquote hback
  | case9 _ _ _ _ _ _ _ _ h => exact .one h
  | case10 => exact .two (by omega) (by omega) (by omega)

/-- The letters tell their characters, and none of them announces a unit. -/
theorem eq_of_letter {c d x : Char} (hc : (c, x) ∈ letters) (hd : (d, x) ∈ letters) : c = d := by
  have hall : ∀ p ∈ letters, ∀ q ∈ letters, p.2 = q.2 → p.1 = q.1 := by decide
  exact hall (c, x) hc (d, x) hd rfl

theorem ne_of_letter {c x : Char} (h : (c, x) ∈ letters) : x ≠ 'u' := by
  have hall : ∀ p ∈ letters, p.2 ≠ 'u' := by decide
  exact hall (c, x) h

/-- A character is no surrogate. -/
theorem toNat_ne_high (c : Char) {high : Nat} (h : 0xD800 ≤ high ∧ high < 0xDC00) :
    c.toNat ≠ high := by
  have hvalid : c.val.toNat < 0xD800 ∨ 0xDFFF < c.val.toNat ∧ c.val.toNat < 0x110000 := c.valid
  rw [Char.toNat]
  omega

/-- **What a character is written as is told from what follows it.** -/
theorem Written.append_inj {c d : Char} {u v r s : List Char} (hc : Written c u)
    (hd : Written d v) (h : u ++ r = v ++ s) : c = d ∧ r = s := by
  cases hc with
  | letter hx =>
    cases hd with
    | letter hy =>
      obtain ⟨rfl, hrest⟩ := List.cons.inj (List.cons.inj h).2
      exact ⟨eq_of_letter hx hy, hrest⟩
    | plain _ hback => exact absurd (List.cons.inj h).1.symm hback
    | one _ => exact absurd (List.cons.inj (List.cons.inj h).2).1 (ne_of_letter hx)
    | two _ _ _ => exact absurd (List.cons.inj (List.cons.inj h).2).1 (ne_of_letter hx)
  | plain _ hback =>
    cases hd with
    | letter _ => exact absurd (List.cons.inj h).1 hback
    | plain _ _ => exact List.cons.inj h
    | one _ => exact absurd (List.cons.inj h).1 hback
    | two _ _ _ => exact absurd (List.cons.inj h).1 hback
  | one hcn =>
    cases hd with
    | letter hy => exact absurd (List.cons.inj (List.cons.inj h).2).1.symm (ne_of_letter hy)
    | plain _ hback => exact absurd (List.cons.inj h).1.symm hback
    | one hdn =>
      obtain ⟨hnat, hrest⟩ := unit_append_inj hcn hdn h
      exact ⟨Char.toNat_inj.mp hnat, hrest⟩
    | two hhigh _ _ =>
      rw [List.append_assoc] at h
      obtain ⟨hnat, -⟩ := unit_append_inj hcn (by omega) h
      exact absurd hnat (toNat_ne_high c hhigh)
  | two hhigh hlow hcn =>
    rw [List.append_assoc] at h
    cases hd with
    | letter hy => exact absurd (List.cons.inj (List.cons.inj h).2).1.symm (ne_of_letter hy)
    | plain _ hback => exact absurd (List.cons.inj h).1.symm hback
    | one hdn =>
      obtain ⟨hnat, -⟩ := unit_append_inj (by omega) hdn h
      exact absurd hnat.symm (toNat_ne_high d hhigh)
    | two hhigh' hlow' hdn =>
      rw [List.append_assoc] at h
      obtain ⟨rfl, hsecond⟩ := unit_append_inj (by omega) (by omega) h
      obtain ⟨rfl, hrest⟩ := unit_append_inj (by omega) (by omega) hsecond
      exact ⟨Char.toNat_inj.mp (hcn.trans hdn.symm), hrest⟩

theorem Written.append_ne {c : Char} {u : List Char} (h : Written c u) (r s : List Char) :
    u ++ r ≠ '"' :: s := by
  intro heq
  cases h with
  | letter _ => exact absurd (List.cons.inj heq).1 (by decide)
  | plain hquote _ => exact hquote (List.cons.inj heq).1
  | one _ => exact absurd (List.cons.inj heq).1 (by decide)
  | two _ _ _ => exact absurd (List.cons.inj heq).1 (by decide)

theorem escaped_append_inj {a b r s : List Char}
    (h : a.flatMap escape ++ '"' :: r = b.flatMap escape ++ '"' :: s) : a = b ∧ r = s := by
  induction a generalizing b with
  | nil =>
    cases b with
    | nil => exact ⟨rfl, (List.cons.inj h).2⟩
    | cons d b =>
      rw [List.flatMap_cons, List.append_assoc] at h
      exact absurd h.symm ((written_escape d).append_ne _ _)
  | cons c a ih =>
    rw [List.flatMap_cons, List.append_assoc] at h
    cases b with
    | nil => exact absurd h ((written_escape c).append_ne _ _)
    | cons d b =>
      rw [List.flatMap_cons, List.append_assoc] at h
      obtain ⟨rfl, hchars⟩ := (written_escape c).append_inj (written_escape d) h
      obtain ⟨rfl, hrest⟩ := ih hchars
      exact ⟨rfl, hrest⟩

theorem string_append_inj {a b : String} {r s : List Char} (h : string a ++ r = string b ++ s) :
    a = b ∧ r = s := by
  simp only [string, List.cons_append, List.append_assoc, List.nil_append] at h
  obtain ⟨hchars, hrest⟩ := escaped_append_inj (List.cons.inj h).2
  exact ⟨String.toList_inj.mp hchars, hrest⟩

/-! ## Values -/

/-- The shapes of values. -/
inductive Shape where
  | null
  | int
  | str
  | arr
  | obj

/-- The shape of a value. -/
def shape : Json → Shape
  | null => .null
  | int _ => .int
  | str _ => .str
  | arr _ => .arr
  | obj _ => .obj

/-- The shape that the first character of a value tells. -/
def shapeOf (c : Char) : Shape :=
  if c = 'n' then .null
  else if c = '"' then .str
  else if c = '[' then .arr
  else if c = '\x7b' then .obj
  else .int

theorem shapeOf_of_isDigit {c : Char} (h : c.isDigit = true) : shapeOf c = .int := by
  have hne {d : Char} (hd : d.isDigit = false) : c ≠ d := by
    rintro rfl
    exact absurd h (by rw [hd]; decide)
  rw [shapeOf, if_neg (hne rfl), if_neg (hne rfl), if_neg (hne rfl), if_neg (hne rfl)]

theorem exists_render_eq (level : Nat) (v : Json) :
    ∃ c rest, render level v = c :: rest ∧ shapeOf c = v.shape := by
  cases v with
  | null => exact ⟨_, _, rfl, rfl⟩
  | int n =>
    by_cases hneg : n < 0
    · exact ⟨'-', _, by rw [render, Text.decimal, if_pos hneg], rfl⟩
    · obtain ⟨c, rest, hc, hdigit⟩ := Text.exists_toDigits_eq n.natAbs
      exact ⟨c, rest, by rw [render, Text.decimal, if_neg hneg, hc], shapeOf_of_isDigit hdigit⟩
  | str text => exact ⟨'"', _, by rw [render, string, List.cons_append], rfl⟩
  | arr items =>
    cases items with
    | nil => exact ⟨'[', _, by rw [render]; rfl, rfl⟩
    | cons item items => exact ⟨'[', _, by rw [render]; rfl, rfl⟩
  | obj fields =>
    cases fields with
    | nil => exact ⟨'\x7b', _, by rw [render]; rfl, rfl⟩
    | cons field fields => exact ⟨'\x7b', _, by rw [render]; rfl, rfl⟩

theorem shape_eq_of_append {a b : Json} {level : Nat} {r s : List Char}
    (h : render level a ++ r = render level b ++ s) : a.shape = b.shape := by
  obtain ⟨c, u, hc, ha⟩ := exists_render_eq level a
  obtain ⟨d, v, hd, hb⟩ := exists_render_eq level b
  rw [hc, hd] at h
  rw [← ha, ← hb, (List.cons.inj h).1]

/-- What follows an item of an array is no digit. -/
theorem noDigit_renderItems (level : Nat) (items : List Json) (r : List Char) :
    NoDigit (renderItems level items ++ '\n' :: r) := by
  cases items with
  | nil => exact Text.noDigit_cons rfl _
  | cons item items => exact Text.noDigit_cons rfl _

theorem noDigit_renderFields (level : Nat) (fields : List (String × Json)) (r : List Char) :
    NoDigit (renderFields level fields ++ '\n' :: r) := by
  cases fields with
  | nil => exact Text.noDigit_cons rfl _
  | cons field fields => exact Text.noDigit_cons rfl _

mutual

/-- **What a value is written as is told from what follows it**, as long as that is no digit. -/
theorem render_append_inj : ∀ (a b : Json) (level : Nat) {r s : List Char}, NoDigit r → NoDigit s →
    render level a ++ r = render level b ++ s → a = b ∧ r = s
  | null, b, level, r, s, _, _, h => by
    cases b with
    | null => exact ⟨rfl, List.append_cancel_left h⟩
    | _ => cases shape_eq_of_append h
  | int m, b, level, r, s, hr, hs, h => by
    cases b with
    | int n =>
      rw [render, render] at h
      obtain ⟨rfl, hrest⟩ := Text.decimal_append_inj hr hs h
      exact ⟨rfl, hrest⟩
    | _ => cases shape_eq_of_append h
  | str text, b, level, r, s, _, _, h => by
    cases b with
    | str text' =>
      rw [render, render] at h
      obtain ⟨rfl, hrest⟩ := string_append_inj h
      exact ⟨rfl, hrest⟩
    | _ => cases shape_eq_of_append h
  | arr [], b, level, r, s, _, _, h => by
    cases b with
    | arr items' =>
      cases items' with
      | nil => exact ⟨rfl, List.append_cancel_left h⟩
      | cons item' items' =>
        rw [render, render] at h
        exact absurd (List.cons.inj (List.cons.inj h).2).1 (by decide)
    | _ => cases shape_eq_of_append h
  | arr (item :: items), b, level, r, s, _, _, h => by
    cases b with
    | arr items' =>
      cases items' with
      | nil =>
        rw [render, render] at h
        exact absurd (List.cons.inj (List.cons.inj h).2).1 (by decide)
      | cons item' items' =>
        simp only [render, List.cons_append, List.append_assoc, List.nil_append] at h
        have hinner := List.append_cancel_left (List.cons.inj h).2
        obtain ⟨rfl, hitems⟩ := render_append_inj item item' (level + 1)
          (noDigit_renderItems _ _ _) (noDigit_renderItems _ _ _) hinner
        obtain ⟨rfl, hend⟩ := renderItems_append_inj items items' (level + 1) hitems
        exact ⟨rfl, (List.cons.inj (List.append_cancel_left hend)).2⟩
    | _ => cases shape_eq_of_append h
  | obj [], b, level, r, s, _, _, h => by
    cases b with
    | obj fields' =>
      cases fields' with
      | nil => exact ⟨rfl, List.append_cancel_left h⟩
      | cons field' fields' =>
        rw [render, render] at h
        exact absurd (List.cons.inj (List.cons.inj h).2).1 (by decide)
    | _ => cases shape_eq_of_append h
  | obj (field :: fields), b, level, r, s, _, _, h => by
    cases b with
    | obj fields' =>
      cases fields' with
      | nil =>
        rw [render, render] at h
        exact absurd (List.cons.inj (List.cons.inj h).2).1 (by decide)
      | cons field' fields' =>
        simp only [render, List.cons_append, List.append_assoc, List.nil_append] at h
        have hinner := List.append_cancel_left (List.cons.inj h).2
        obtain ⟨rfl, hfields⟩ := renderField_append_inj field field' (level + 1)
          (noDigit_renderFields _ _ _) (noDigit_renderFields _ _ _) hinner
        obtain ⟨rfl, hend⟩ := renderFields_append_inj fields fields' (level + 1) hfields
        exact ⟨rfl, (List.cons.inj (List.append_cancel_left hend)).2⟩
    | _ => cases shape_eq_of_append h

theorem renderItems_append_inj : ∀ (as bs : List Json) (level : Nat) {r s : List Char},
    renderItems level as ++ '\n' :: r = renderItems level bs ++ '\n' :: s → as = bs ∧ r = s
  | [], [], _, _, _, h => ⟨rfl, (List.cons.inj h).2⟩
  | [], _ :: _, _, _, _, h => absurd (List.cons.inj h).1 (by decide)
  | _ :: _, [], _, _, _, h => absurd (List.cons.inj h).1 (by decide)
  | a :: as, b :: bs, level, r, s, h => by
    simp only [renderItems, List.cons_append, List.append_assoc] at h
    have hinner := List.append_cancel_left (List.cons.inj h).2
    obtain ⟨rfl, hitems⟩ := render_append_inj a b level
      (noDigit_renderItems _ _ _) (noDigit_renderItems _ _ _) hinner
    obtain ⟨rfl, hrest⟩ := renderItems_append_inj as bs level hitems
    exact ⟨rfl, hrest⟩

theorem renderField_append_inj : ∀ (f g : String × Json) (level : Nat) {r s : List Char},
    NoDigit r → NoDigit s → renderField level f ++ r = renderField level g ++ s → f = g ∧ r = s
  | (name, value), (name', value'), level, r, s, hr, hs, h => by
    simp only [renderField, List.cons_append, List.append_assoc] at h
    obtain ⟨rfl, hvalue⟩ := string_append_inj h
    obtain ⟨rfl, hrest⟩ := render_append_inj value value' level hr hs
      (List.cons.inj (List.cons.inj hvalue).2).2
    exact ⟨rfl, hrest⟩

theorem renderFields_append_inj : ∀ (fs gs : List (String × Json)) (level : Nat) {r s : List Char},
    renderFields level fs ++ '\n' :: r = renderFields level gs ++ '\n' :: s → fs = gs ∧ r = s
  | [], [], _, _, _, h => ⟨rfl, (List.cons.inj h).2⟩
  | [], _ :: _, _, _, _, h => absurd (List.cons.inj h).1 (by decide)
  | _ :: _, [], _, _, _, h => absurd (List.cons.inj h).1 (by decide)
  | f :: fs, g :: gs, level, r, s, h => by
    simp only [renderFields, List.cons_append, List.append_assoc] at h
    have hinner := List.append_cancel_left (List.cons.inj h).2
    obtain ⟨rfl, hfields⟩ := renderField_append_inj f g level
      (noDigit_renderFields _ _ _) (noDigit_renderFields _ _ _) hinner
    obtain ⟨rfl, hrest⟩ := renderFields_append_inj fs gs level hfields
    exact ⟨rfl, hrest⟩

end

theorem pretty_injective : Function.Injective pretty := by
  intro a b h
  refine (render_append_inj a b 0 Text.noDigit_nil Text.noDigit_nil ?_).1
  rw [String.ofList_injective h]

end Json

/-! ## Outlines and indexes -/

theorem Param.toJson_injective : Function.Injective Param.toJson := by
  rintro ⟨type, name⟩ ⟨type', name'⟩ h
  simp only [toJson, Json.obj.injEq, List.cons.injEq, Prod.mk.injEq, Json.str.injEq, true_and,
    and_true] at h
  obtain ⟨rfl, rfl⟩ := h
  rfl

theorem FunctionInfo.toJson_injective : Function.Injective FunctionInfo.toJson := by
  intro f g h
  simp only [toJson, Json.obj.injEq, List.cons.injEq, Prod.mk.injEq, Json.str.injEq,
    Json.int.injEq, Json.arr.injEq, true_and, and_true] at h
  obtain ⟨hname, hsignature, hparams, hreturn, hstart, hend, hvisibility, hcomplexity⟩ := h
  have hparams := List.map_injective_iff.mpr Param.toJson_injective hparams
  cases f
  cases g
  simp only [mk.injEq]
  exact ⟨hname, hsignature, hparams, hreturn, hstart, hend, hvisibility, hcomplexity⟩

theorem Outline.toJson_injective : Function.Injective Outline.toJson := by
  intro o p h
  have hstr : Function.Injective Json.str := fun _ _ => Json.str.inj
  simp only [toJson, Json.obj.injEq, List.cons.injEq, Prod.mk.injEq, Json.str.injEq,
    Json.arr.injEq, true_and, and_true] at h
  obtain ⟨hname, hlanguage, hfunctions, hclasses, himports⟩ := h
  have hfunctions := List.map_injective_iff.mpr FunctionInfo.toJson_injective hfunctions
  have hclasses := List.map_injective_iff.mpr hstr hclasses
  have himports := List.map_injective_iff.mpr hstr himports
  cases o
  cases p
  simp only [mk.injEq]
  exact ⟨hname, hlanguage, hfunctions, hclasses, himports⟩

theorem CodeIndex.toJson_injective : Function.Injective CodeIndex.toJson := by
  rintro ⟨⟨entries, _⟩, functions, classes⟩ ⟨⟨entries', _⟩, functions', classes'⟩ h
  have hentry : Function.Injective (fun e : String × Outline => (e.1, e.2.toJson)) := by
    rintro ⟨path, o⟩ ⟨path', o'⟩ he
    obtain ⟨hpath, ho⟩ := Prod.mk.inj he
    exact Prod.ext hpath (Outline.toJson_injective ho)
  simp only [toJson, Json.obj.injEq, List.cons.injEq, Prod.mk.injEq, Json.int.injEq, true_and,
    and_true] at h
  obtain ⟨hfiles, rfl, rfl⟩ := h
  obtain rfl := List.map_injective_iff.mpr hentry hfiles
  rfl

/-- **The JSON text of an index tells the index, and that of an outline the outline**: every name,
text, number and total, and the order of the files, functions, parameters, classes and imports. -/
theorem pretty_toJson_inj :
    (∀ x y : CodeIndex, x.toJson.pretty = y.toJson.pretty ↔ x = y) ∧
      ∀ o p : Outline, o.toJson.pretty = p.toJson.pretty ↔ o = p :=
  ⟨fun _ _ => (Json.pretty_injective.comp CodeIndex.toJson_injective).eq_iff,
    fun _ _ => (Json.pretty_injective.comp Outline.toJson_injective).eq_iff⟩

end SourceIndex
