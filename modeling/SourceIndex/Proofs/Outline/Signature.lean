import SourceIndex.Proofs.Outline.Fold
import SourceIndex.Proofs.Text.Blank
import SourceIndex.Proofs.Text.Search

/-!
# Where a signature ends

The delimiter of a body is searched in bytes, at an offset that two nodes decide.  If the nodes
begin and end between characters, the outcome can be said in characters (`SignatureOf`): **the
signature is the declaration up to the first delimiter behind the parameters, or the whole
declaration if there is none** (`signatureOf_signature`).  It is a piece of the text of the node, so
no character is cut in two.

The search does not ask what the delimiter delimits.  So a return type is kept whole exactly if no
delimiter stands between the parameters and its end (`signature_of_returnsBefore`); in
`function f(): {} {}` the signature ends at the colon.
-/

namespace SourceIndex

open Text (trim trimRight BeforeFirst)
open Utf8 (encode encode_append decode_encode between IsBoundary)

/-! ## Signatures in characters -/

/-- What the signature of a declaration is: `head` is the declaration up to the end of its
parameters, `rest` all that follows. -/
inductive SignatureOf (delimiter head rest : List Char) : List Char → Prop
  /-- The declaration is cut before the delimiter that comes first. -/
  | cut {part : List Char} (h : BeforeFirst delimiter rest part) :
      SignatureOf delimiter head rest (trim (head ++ part))
  /-- A declaration without a body ends in a semicolon. -/
  | bodiless {declared : List Char} (hnot : ¬delimiter <:+: rest)
      (h : trim (head ++ rest) = declared ++ [';']) :
      SignatureOf delimiter head rest (trimRight declared)
  /-- Without a delimiter and without a semicolon nothing is cut. -/
  | whole (hnot : ¬delimiter <:+: rest) (h : ¬[';'] <:+ trim (head ++ rest)) :
      SignatureOf delimiter head rest (trim (head ++ rest))

namespace SignatureOf

variable {delimiter head rest s s' : List Char}

/-- A declaration has one signature. -/
theorem unique (h : SignatureOf delimiter head rest s) (h' : SignatureOf delimiter head rest s') :
    s = s' := by
  cases h with
  | cut hp =>
    cases h' with
    | cut hp' => rw [hp.unique hp']
    | bodiless hnot => exact absurd hp.isInfix hnot
    | whole hnot => exact absurd hp.isInfix hnot
  | bodiless hnot hd =>
    cases h' with
    | cut hp => exact absurd hp.isInfix hnot
    | bodiless hnot hd' => rw [(List.append_inj' (hd.symm.trans hd') rfl).1]
    | whole hnot hno => exact absurd ⟨_, hd.symm⟩ hno
  | whole hnot hno =>
    cases h' with
    | cut hp => exact absurd hp.isInfix hnot
    | bodiless hnot hd => exact absurd ⟨_, hd.symm⟩ hno
    | whole => rfl

/-- If there is a delimiter, the declaration is cut. -/
theorem exists_part (h : SignatureOf delimiter head rest s) (hd : delimiter <:+: rest) :
    ∃ part, BeforeFirst delimiter rest part ∧ s = trim (head ++ part) := by
  cases h with
  | cut hp => exact ⟨_, hp, rfl⟩
  | bodiless hnot => exact absurd hd hnot
  | whole hnot => exact absurd hd hnot

/-- A signature is a piece of its declaration. -/
theorem isInfix (h : SignatureOf delimiter head rest s) : s <:+: head ++ rest := by
  cases h with
  | cut hp =>
    exact (Text.trim_isInfix _).trans ((List.prefix_append_right_inj head).mpr hp.isPrefix).isInfix
  | @bodiless declared hnot hd =>
    have hpre : trimRight declared <+: trim (head ++ rest) := by
      rw [hd]
      exact (Text.trimRight_isPrefix declared).trans (List.prefix_append _ _)
    exact hpre.isInfix.trans (Text.trim_isInfix _)
  | whole => exact Text.trim_isInfix _

end SignatureOf

namespace Tree

/-- Where the search for the body's delimiter begins: at the end of the parameters, or of the name
if there are none, or else at the beginning. -/
def anchorEnd (t : Tree) : Nat :=
  match t.child? "parameters" <|> t.child? "name" with
  | some anchor => anchor.node.endByte
  | none => t.node.startByte

theorem searchOffset_eq (t : Tree) : t.searchOffset = (t.anchorEnd : Int) - t.node.startByte := by
  unfold searchOffset anchorEnd
  cases t.child? "parameters" <|> t.child? "name" with
  | some anchor => rfl
  | none => exact (Int.sub_self _).symm

theorem dropSemicolon_concat (text : List Char) :
    dropSemicolon (text ++ [';']) = trimRight text := by
  rw [dropSemicolon, List.reverse_concat]
  exact congrArg trimRight (List.reverse_reverse text)

theorem dropSemicolon_of_not {text : List Char} (h : ¬[';'] <:+ text) :
    dropSemicolon text = text := by
  unfold dropSemicolon
  split
  · next rest hrest =>
    refine absurd ⟨rest.reverse, ?_⟩ h
    rw [← List.reverse_cons, ← hrest, List.reverse_reverse]
  · rfl

/-- The signature of a node whose bytes encode a text, of which `head` reaches to the end of the
parameters. -/
theorem signatureOf_signature {table : LanguageTable} (hne : table.bodyDelimiter ≠ "")
    {source : Bytes} {t : Tree} {head rest : List Char}
    (hbytes : t.node.bytes source = encode (head ++ rest))
    (hoffset : t.searchOffset = (encode head).length) :
    SignatureOf table.bodyDelimiter.toList head rest (t.signature table source) := by
  have hd : table.bodyDelimiter.toList ≠ [] := fun h => hne (String.toList_eq_nil_iff.mp h)
  simp only [signature, hbytes, hoffset]
  rcases Text.indexOfFrom?_encode hd head rest with ⟨part, hpart, hfound⟩ | ⟨hnot, hfound⟩
  · have htake : (encode (head ++ rest)).take (encode (head ++ part)).length
        = encode (head ++ part) := by
      have hpre : head ++ part <+: head ++ rest :=
        (List.prefix_append_right_inj head).mpr hpart.isPrefix
      exact (List.prefix_iff_eq_take.mp (Utf8.encode_prefix_encode_iff.mpr hpre)).symm
    simp only [hfound]
    rw [htake, decode_encode]
    exact .cut hpart
  · simp only [hfound]
    rw [decode_encode]
    by_cases hsemi : [';'] <:+ trim (head ++ rest)
    · obtain ⟨declared, hdeclared⟩ := hsemi
      rw [← hdeclared, dropSemicolon_concat]
      exact .bodiless hnot hdeclared.symm
    · rw [dropSemicolon_of_not hsemi]
      exact .whole hnot hsemi

/-! ## Nodes that begin and end between characters -/

section

variable {table : LanguageTable} {text : List Char} {t : Tree}

/-- The nodes that decide a signature lie between characters, one within the other. -/
structure Anchored (text : List Char) (t : Tree) : Prop where
  start : IsBoundary text t.node.startByte
  anchor : IsBoundary text t.anchorEnd
  stop : IsBoundary text t.node.endByte
  start_le : t.node.startByte ≤ t.anchorEnd
  le_stop : t.anchorEnd ≤ t.node.endByte

/-- The text of a node up to the end of its parameters. -/
def headText (source : Bytes) (t : Tree) : List Char := between source t.node.startByte t.anchorEnd

/-- The text of a node behind its parameters. -/
def restText (source : Bytes) (t : Tree) : List Char := between source t.anchorEnd t.node.endByte

namespace Anchored

variable (h : Anchored text t)

include h

theorem text_eq : t.text (encode text) = t.headText (encode text) ++ t.restText (encode text) :=
  (Utf8.between_append_between h.start h.anchor h.stop h.start_le h.le_stop).symm

theorem encode_text : encode (t.text (encode text)) = t.node.bytes (encode text) :=
  Utf8.encode_between h.start h.stop (Nat.le_trans h.start_le h.le_stop)

theorem searchOffset_eq : t.searchOffset = (encode (t.headText (encode text))).length := by
  rw [Tree.searchOffset_eq, headText, Utf8.length_encode_between h.start h.anchor h.start_le]
  have := h.start_le
  omega

theorem signatureOf (hne : table.bodyDelimiter ≠ "") :
    SignatureOf table.bodyDelimiter.toList (t.headText (encode text)) (t.restText (encode text))
      (t.signature table (encode text)) := by
  refine signatureOf_signature hne ?_ h.searchOffset_eq
  rw [← h.text_eq, h.encode_text]

/-- The delimiter is found between two characters. -/
theorem isBoundary_cut {delimiter : List Char} (hne : delimiter ≠ []) {cut : Nat}
    (hcut : Text.indexOfFrom? (encode delimiter) (t.node.bytes (encode text)) t.searchOffset
      = some cut) : IsBoundary (t.text (encode text)) cut := by
  rw [← h.encode_text, h.text_eq, h.searchOffset_eq] at hcut
  rcases Text.indexOfFrom?_encode hne (t.headText (encode text)) (t.restText (encode text)) with
    ⟨part, hpart, hfound⟩ | ⟨-, hfound⟩
  · rw [hfound] at hcut
    rw [h.text_eq]
    exact ⟨_, (List.prefix_append_right_inj _).mpr hpart.isPrefix, Option.some.inj hcut⟩
  · rw [hfound] at hcut
    cases hcut

end Anchored

/-- **The signature of a node that begins, ends and has its parameters end between characters** is
what the characters of the node say.  The delimiter is found between two of them, and the signature
is a piece of the text, of which the bytes of the node are the encoding: nothing is replaced. -/
theorem signature_iff (hne : table.bodyDelimiter ≠ "") (h : Anchored text t) :
    (∀ s, SignatureOf table.bodyDelimiter.toList (t.headText (encode text))
        (t.restText (encode text)) s ↔ s = t.signature table (encode text)) ∧
      t.text (encode text) = t.headText (encode text) ++ t.restText (encode text) ∧
      (∀ cut, Text.indexOfFrom? (encode table.bodyDelimiter.toList) (t.node.bytes (encode text))
        t.searchOffset = some cut → IsBoundary (t.text (encode text)) cut) ∧
      encode (t.text (encode text)) = t.node.bytes (encode text) ∧
      t.signature table (encode text) <:+: t.text (encode text) := by
  have hsignature := h.signatureOf hne
  have hd : table.bodyDelimiter.toList ≠ [] := fun he => hne (String.toList_eq_nil_iff.mp he)
  refine ⟨fun s => ⟨fun hs => hs.unique hsignature, fun hs => hs ▸ hsignature⟩, h.text_eq,
    fun cut hcut => h.isBoundary_cut hd hcut, h.encode_text, ?_⟩
  rw [h.text_eq]
  exact hsignature.isInfix

/-- A function with characters of two and of three bytes before its delimiter. -/
def greetingText : List Char := "def grüß(名前): pass".toList

/-- The tree of `greetingText`. -/
def greeting : Tree :=
  .mk ⟨"function_definition", 0, 24, 0, 0, [], 0⟩
    [.mk ⟨"identifier", 4, 10, 0, 0, ["name"], 1⟩ [],
      .mk ⟨"parameters", 10, 18, 0, 0, ["parameters"], 2⟩
        [.mk ⟨"identifier", 11, 17, 0, 0, [], 3⟩ []],
      .mk ⟨"block", 20, 24, 0, 0, ["body"], 4⟩ []]

theorem signature_greeting :
    Anchored greetingText greeting ∧
      greeting.signature LanguageTable.python (encode greetingText) = "def grüß(名前)".toList := by
  have hanchored : Anchored greetingText greeting :=
    ⟨by decide +kernel, by decide +kernel, by decide +kernel, by decide +kernel, by decide +kernel⟩
  have hhead : greeting.headText (encode greetingText) = "def grüß(名前)".toList := by
    decide +kernel
  have hrest : greeting.restText (encode greetingText) = ": pass".toList := by decide +kernel
  have hfirst : BeforeFirst LanguageTable.python.bodyDelimiter.toList
      (greeting.restText (encode greetingText)) [] := by
    rw [hrest]
    exact ⟨by decide +kernel, fun other _ => List.nil_prefix⟩
  have hsignature := ((signature_iff (by decide +kernel) hanchored).1 _).mp (.cut hfirst)
  rw [hhead] at hsignature
  exact ⟨hanchored, hsignature.symm.trans (by decide +kernel)⟩

/-! ## Return types -/

/-- A function with a name, of which the return type stands behind the parameters, and the body
behind the return type; the body begins with the delimiter, or the delimiter precedes it.  All of
them lie within the function, and begin and end between characters. -/
structure ReturnsBefore (table : LanguageTable) (text : List Char) (t params result body : Tree) :
    Prop where
  function : t.IsNamedFunction table (encode text)
  params_eq : t.child? "parameters" = some params
  result_eq : t.child? table.returnTypeField = some result
  body_mem : body ∈ t.children
  boundaries : ∀ s ∈ [t, params, result, body],
    IsBoundary text s.node.startByte ∧ IsBoundary text s.node.endByte
  spans : ∀ s ∈ [params, result, body], t.node.startByte ≤ s.node.startByte ∧
    s.node.startByte ≤ s.node.endByte ∧ s.node.endByte ≤ t.node.endByte
  result_behind : params.node.endByte ≤ result.node.startByte
  body_behind : result.node.endByte ≤ body.node.startByte
  delimiter : table.bodyDelimiter.toList <+: body.text (encode text) ∨
    table.bodyDelimiter.toList <:+: between (encode text) result.node.endByte body.node.startByte

/-- The text from the end of the parameters to the end of the return type. -/
def upToType (source : Bytes) (params result : Tree) : List Char :=
  between source params.node.endByte result.node.endByte

namespace ReturnsBefore

variable {params result body : Tree} (h : ReturnsBefore table text t params result body)

include h

theorem anchorEnd_eq : t.anchorEnd = params.node.endByte := by
  rw [anchorEnd, h.params_eq]
  rfl

theorem anchored : Anchored text t := by
  obtain ⟨hstart, hend⟩ := h.boundaries t (by simp)
  obtain ⟨-, hparams⟩ := h.boundaries params (by simp)
  obtain ⟨hle₁, hle₂, hle₃⟩ := h.spans params (by simp)
  rw [← h.anchorEnd_eq] at hparams hle₂ hle₃
  exact ⟨hstart, hparams, hend, Nat.le_trans hle₁ hle₂, hle₃⟩

/-- The text up to the end of the return type begins what stands behind the parameters. -/
theorem upToType_isPrefix : upToType (encode text) params result <+: t.restText (encode text) := by
  obtain ⟨-, hend⟩ := h.boundaries t (by simp)
  obtain ⟨-, hparams⟩ := h.boundaries params (by simp)
  obtain ⟨-, hresult⟩ := h.boundaries result (by simp)
  obtain ⟨-, hle₁, hle₂⟩ := h.spans result (by simp)
  rw [restText, h.anchorEnd_eq, ← Utf8.between_append_between hparams hresult hend
    (Nat.le_trans h.result_behind hle₁) hle₂]
  exact List.prefix_append _ _

/-- The return type ends the text up to its end. -/
theorem text_isSuffix : result.text (encode text) <:+ upToType (encode text) params result := by
  obtain ⟨-, hparams⟩ := h.boundaries params (by simp)
  obtain ⟨hresult, hresult'⟩ := h.boundaries result (by simp)
  obtain ⟨-, hle, -⟩ := h.spans result (by simp)
  rw [upToType, ← Utf8.between_append_between hparams hresult hresult' h.result_behind hle]
  exact List.suffix_append _ _

/-- The delimiter of the body stands behind the parameters. -/
theorem delimiter_isInfix : table.bodyDelimiter.toList <:+: t.restText (encode text) := by
  obtain ⟨-, hend⟩ := h.boundaries t (by simp)
  obtain ⟨-, hparams⟩ := h.boundaries params (by simp)
  obtain ⟨-, hresult⟩ := h.boundaries result (by simp)
  obtain ⟨hbody, hbody'⟩ := h.boundaries body (by simp)
  have hresult_le := (h.spans result (by simp)).2.1
  have hbody_le := (h.spans body (by simp)).2
  have hparams_le := Nat.le_trans h.result_behind hresult_le
  rw [restText, h.anchorEnd_eq]
  rcases h.delimiter with hd | hd
  · exact hd.isInfix.trans (Utf8.between_isInfix hparams hbody hbody' hend
      (Nat.le_trans hparams_le h.body_behind) hbody_le.1 hbody_le.2)
  · exact hd.trans (Utf8.between_isInfix hparams hresult hbody hend hparams_le h.body_behind
      (Nat.le_trans hbody_le.1 hbody_le.2))

end ReturnsBefore

/-- The delimiter of each known grammar is one character. -/
theorem exists_bodyDelimiter_eq (htable : table ∈ LanguageTable.builtIn) :
    ∃ c, table.bodyDelimiter.toList = [c] := by
  have hone : ∀ known ∈ LanguageTable.builtIn, known.bodyDelimiter.toList.length = 1 := by
    decide +kernel
  exact List.length_eq_one_iff.mp (hone table htable)

/-- **A declaration is cut before the delimiter that comes first behind the parameters**, whatever
that delimits.  Its return type stands before the cut exactly if no delimiter stands before the end
of the return type, and is then found whole in the signature. -/
theorem signature_of_returnsBefore (htable : table ∈ LanguageTable.builtIn)
    {params result body : Tree} (h : ReturnsBefore table text t params result body) :
    ∃ f part, t.ownFunction? table (encode text) = some f ∧
      BeforeFirst table.bodyDelimiter.toList (t.restText (encode text)) part ∧
      f.signature.toList = trim (t.headText (encode text) ++ part) ∧
      (upToType (encode text) params result <+: part ↔
        ¬table.bodyDelimiter.toList <:+: upToType (encode text) params result) ∧
      (¬table.bodyDelimiter.toList <:+: upToType (encode text) params result →
        trim (result.text (encode text)) <:+: f.signature.toList) := by
  obtain ⟨c, hc⟩ := exists_bodyDelimiter_eq htable
  have hne : table.bodyDelimiter ≠ "" := by
    intro he
    rw [he] at hc
    cases hc
  obtain ⟨part, hpart, hsignature⟩ :=
    (h.anchored.signatureOf hne).exists_part h.delimiter_isInfix
  have hcut : upToType (encode text) params result <+: part ↔
      ¬table.bodyDelimiter.toList <:+: upToType (encode text) params result := by
    rw [hc] at hpart ⊢
    exact hpart.prefix_iff h.upToType_isPrefix
  have hlist : (t.functionInfo table (encode text)).signature.toList
      = trim (t.headText (encode text) ++ part) := by
    rw [functionInfo, String.toList_ofList, hsignature]
  refine ⟨_, part, ownFunction?_eq_some.mpr ⟨h.function, rfl⟩, hpart, hlist, hcut, ?_⟩
  intro hnot
  have hinside : result.text (encode text) <:+: t.headText (encode text) ++ part :=
    (h.text_isSuffix.isInfix.trans (hcut.mpr hnot).isInfix).trans
      (List.suffix_append _ part).isInfix
  rw [hlist]
  exact Text.isInfix_trim hinside

end

/-- A function whose return type has no delimiter in it. -/
def sizedText : List Char := "def f() -> Größe: pass".toList

/-- The parameters of `sizedFunction`. -/
def sizedParams : Tree := .mk ⟨"parameters", 5, 7, 0, 0, ["parameters"], 2⟩ []

/-- The return type of `sizedFunction`. -/
def sizedType : Tree := .mk ⟨"type", 11, 18, 0, 0, ["return_type"], 3⟩ []

/-- The body of `sizedFunction`; the delimiter stands before it. -/
def sizedBody : Tree := .mk ⟨"block", 20, 24, 0, 0, ["body"], 4⟩ []

/-- The tree of `sizedText`. -/
def sizedFunction : Tree :=
  .mk ⟨"function_definition", 0, 24, 0, 0, [], 0⟩
    [.mk ⟨"identifier", 4, 5, 0, 0, ["name"], 1⟩ [], sizedParams, sizedType, sizedBody]

theorem returnsBefore_sized :
    ReturnsBefore LanguageTable.python sizedText sizedFunction sizedParams sizedType sizedBody where
  function := ⟨by decide +kernel, by decide +kernel⟩
  params_eq := rfl
  result_eq := rfl
  body_mem := by simp [sizedFunction, children]
  boundaries := by decide +kernel
  spans := by decide +kernel
  result_behind := by decide +kernel
  body_behind := by decide +kernel
  delimiter := Or.inr ⟨[], [' '], by decide +kernel⟩

theorem signature_sized :
    ReturnsBefore LanguageTable.python sizedText sizedFunction sizedParams sizedType sizedBody ∧
      ∃ f, sizedFunction.ownFunction? LanguageTable.python (encode sizedText) = some f ∧
        "Größe".toList <:+: f.signature.toList := by
  obtain ⟨f, part, hf, -, -, -, hwhole⟩ :=
    signature_of_returnsBefore (by decide +kernel) returnsBefore_sized
  have hnone : ¬LanguageTable.python.bodyDelimiter.toList <:+:
      upToType (encode sizedText) sizedParams sizedType := by
    intro hin
    exact absurd (hin.subset (List.mem_singleton_self ':')) (by decide +kernel)
  have htype : trim (sizedType.text (encode sizedText)) = "Größe".toList := by decide +kernel
  exact ⟨returnsBefore_sized, f, hf, htype ▸ hwhole hnone⟩

/-- A function whose return type has the delimiter in it. -/
def recordText : List Char := "function f(): \x7b\x7d \x7b\x7d".toList

/-- The parameters of `recordFunction`. -/
def recordParams : Tree := .mk ⟨"formal_parameters", 10, 12, 0, 0, ["parameters"], 2⟩ []

/-- The return type of `recordFunction`, a type without fields. -/
def recordType : Tree :=
  .mk ⟨"type_annotation", 12, 16, 0, 0, ["return_type"], 3⟩
    [.mk ⟨"object_type", 14, 16, 0, 0, [], 4⟩ []]

/-- The body of `recordFunction`, which begins with the delimiter. -/
def recordBody : Tree := .mk ⟨"statement_block", 17, 19, 0, 0, ["body"], 5⟩ []

/-- The tree of `recordText`. -/
def recordFunction : Tree :=
  .mk ⟨"function_declaration", 0, 19, 0, 0, [], 0⟩
    [.mk ⟨"identifier", 9, 10, 0, 0, ["name"], 1⟩ [], recordParams, recordType, recordBody]

theorem returnsBefore_record :
    ReturnsBefore LanguageTable.typescript recordText recordFunction recordParams recordType
      recordBody where
  function := ⟨by decide +kernel, by decide +kernel⟩
  params_eq := rfl
  result_eq := rfl
  body_mem := by simp [recordFunction, children]
  boundaries := by decide +kernel
  spans := by decide +kernel
  result_behind := by decide +kernel
  body_behind := by decide +kernel
  delimiter := Or.inl (by decide +kernel)

/-- The delimiter in the return type is taken for that of the body, and the signature ends there. -/
theorem signature_record_cut :
    LanguageTable.typescript ∈ LanguageTable.builtIn ∧
      ReturnsBefore LanguageTable.typescript recordText recordFunction recordParams recordType
        recordBody ∧
      ∃ f, recordFunction.ownFunction? LanguageTable.typescript (encode recordText) = some f ∧
        f.signature = "function f():" ∧
        ¬trim (recordType.text (encode recordText)) <:+: f.signature.toList := by
  have hsignature : (recordFunction.functionInfo LanguageTable.typescript
      (encode recordText)).signature = "function f():" := by decide +kernel
  refine ⟨by decide +kernel, returnsBefore_record, _,
    ownFunction?_eq_some.mpr ⟨returnsBefore_record.function, rfl⟩, hsignature, ?_⟩
  rw [hsignature]
  intro hin
  have hbrace : '\x7b' ∈ trim (recordType.text (encode recordText)) := by decide +kernel
  exact absurd (hin.subset hbrace) (by decide +kernel)

end Tree

end SourceIndex
