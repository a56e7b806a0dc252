import SourceIndex.LanguageTable.BuiltIn
import SourceIndex.Proofs.Outline.Places
import SourceIndex.Proofs.Text.Blank

/-!
# Types with a colon in front

TypeScript keeps the colon of a declared type in the node of the type.  The outline gives the type
without it **exactly if the node is of the one kind that the table lists as an annotation**
(`annotation_bare_iff`).  The grammar has other kinds of nodes in that place: the return type of
`function f(x: A): x is T` is a `type_predicate_annotation`, and is given with its colon.
-/

namespace SourceIndex

open Text (isBlank trim Trimmed)

/-- A text is that of a type with a colon in front, and white space between them if there is any. -/
structure Annotates (written type : List Char) : Prop where
  written_eq : ∃ blanks, (∀ c ∈ blanks, isBlank c = true) ∧ written = ':' :: (blanks ++ type)
  ne_nil : type ≠ []
  trimmed : Trimmed type
  head_ne : type.head? ≠ some ':'

theorem annotates_spaced {type : List Char} (hne : type ≠ []) (htrimmed : Trimmed type)
    (hhead : type.head? ≠ some ':') : Annotates (':' :: ' ' :: type) type := by
  refine ⟨⟨[' '], ?_, rfl⟩, hne, htrimmed, hhead⟩
  intro c hc
  rw [List.mem_singleton.mp hc]
  decide

namespace Annotates

variable {written type : List Char} (h : Annotates written type)

include h

theorem ne_type : written ≠ type := by
  obtain ⟨blanks, -, hwritten⟩ := h.written_eq
  intro heq
  have hlength := congrArg List.length (hwritten.symm.trans heq)
  rw [List.length_cons, List.length_append] at hlength
  omega

/-- With its colon, there is nothing to trim of it. -/
theorem trimmed_written : Trimmed written := by
  obtain ⟨blanks, -, rfl⟩ := h.written_eq
  refine ⟨?_, ?_⟩
  · intro c hc
    obtain rfl := Option.some.inj hc
    decide
  · intro c hc
    obtain ⟨last, hlast⟩ := Option.isSome_iff_exists.mp (List.getLast?_isSome.mpr h.ne_nil)
    rw [← List.cons_append, List.getLast?_append, hlast, Option.some_or] at hc
    exact h.trimmed.back c (hlast.trans hc)

/-- Without its colon, it is the type. -/
theorem bareType_eq : Tree.bareType written = type := by
  have hwritten := h.trimmed_written
  obtain ⟨blanks, hblanks, rfl⟩ := h.written_eq
  -- Behind the colon stands a blank or the type, so that no second colon is dropped.
  have hhead : ∀ c, (blanks ++ type).head? = some c → (c == ':') = false := by
    intro c hc
    cases blanks with
    | nil =>
      rw [beq_eq_false_iff_ne]
      rintro rfl
      exact h.head_ne hc
    | cons b blanks =>
      obtain rfl := Option.some.inj hc
      rw [beq_eq_false_iff_ne]
      rintro rfl
      exact absurd (hblanks ':' (by simp)) (by decide)
  rw [Tree.bareType, hwritten.trim_eq, List.dropWhile_cons_of_pos (by decide),
    Text.dropWhile_of_head? hhead, h.trimmed.trim_append hblanks]

end Annotates

namespace Tree

/-- What an outline gives for the node of a type: the type alone if the node is a plain annotation,
and the text of the node as it is if it is of another kind. -/
structure GivesType (source : Bytes) (c : Tree) (type : List Char) (given : String) : Prop where
  bare_iff : given = String.ofList type ↔ c.kind = "type_annotation"
  kept : c.kind ≠ "type_annotation" → given = String.ofList (c.text source)

variable {table : LanguageTable} {source : Bytes}

theorem isA_annotatedType_iff (htable : table = .typescript ∨ table = .tsx) (kind : String) :
    table.isA kind .annotatedType = true ↔ kind = "type_annotation" := by
  have hkinds : table.typeAnnotations = ["type_annotation"] := by
    rcases htable with rfl | rfl <;> rfl
  rw [LanguageTable.isA, LanguageTable.kinds, hkinds]
  simp

/-- A declared type with a colon in front is given as its kind says. -/
theorem givesType_declaredType (htable : table = .typescript ∨ table = .tsx) {t c : Tree}
    {field : String} {type : List Char} (default : List Char) (hc : t.child? field = some c)
    (h : Annotates (c.text source) type) :
    GivesType source c type (String.ofList (t.declaredType table source field default)) := by
  have hdeclared {text : List Char} (htext : typeText table source c = text) (hne : text ≠ []) :
      t.declaredType table source field default = text := by
    cases text with
    | nil => exact absurd rfl hne
    | cons d rest => simp only [declaredType, hc, htext]
  by_cases hkind : c.kind = "type_annotation"
  · have htext : typeText table source c = type := by
      rw [typeText, if_pos ((isA_annotatedType_iff htable c.kind).mpr hkind), h.bareType_eq]
    rw [hdeclared htext h.ne_nil]
    exact ⟨⟨fun _ => hkind, fun _ => rfl⟩, fun hne => absurd hkind hne⟩
  · have htext : typeText table source c = c.text source := by
      rw [typeText, if_neg (fun ha => hkind ((isA_annotatedType_iff htable c.kind).mp ha)),
        h.trimmed_written.trim_eq]
    have hne : c.text source ≠ [] := by
      obtain ⟨blanks, -, hwritten⟩ := h.written_eq
      rw [hwritten]
      exact List.cons_ne_nil _ _
    rw [hdeclared htext hne]
    refine ⟨⟨fun heq => ?_, fun hk => absurd hk hkind⟩, fun _ => rfl⟩
    exact absurd (String.ofList_injective heq) h.ne_type

/-- **A return type or the type of a parameter that is written with a colon in front is given
without it exactly if its node is a plain annotation**; otherwise it is given as it is written. -/
theorem annotation_bare_iff (htable : table = .typescript ∨ table = .tsx)
    (language fileName : String) {t g : Tree} {p : Address} (hg : t.subtree? p = some g)
    (hf : g.IsNamedFunction table source) :
    ∃ f, g.ownFunction? table source = some f ∧
      f ∈ (Outline.extract table source language fileName t).value.functions ∧
      (∀ (c : Tree) (type : List Char), g.child? "return_type" = some c →
        Annotates (c.text source) type → GivesType source c type f.returnType) ∧
      ∀ (list q c : Tree) (i : Nat) (type : List Char), g.child? "parameters" = some list →
        (list.children.filter (fun q => table.isA q.kind .parameter))[i]? = some q →
        q.child? "type" = some c → Annotates (c.text source) type →
        ∃ param : Param, f.params[i]? = some param ∧ GivesType source c type param.type := by
  have hfield : table.returnTypeField = "return_type" := by
    rcases htable with rfl | rfl <;> rfl
  refine ⟨g.functionInfo table source, ownFunction?_eq_some.mpr ⟨hf, rfl⟩,
    mem_functions_iff.mpr ⟨p, g, hg, hf, rfl⟩, ?_, ?_⟩
  · intro c type hc h
    rw [← hfield] at hc
    exact givesType_declaredType htable _ hc h
  · intro list q c i type hlist hq hc h
    refine ⟨param table source q, ?_, givesType_declaredType htable _ hc h⟩
    change (g.params table source)[i]? = _
    rw [params, hlist, List.getElem?_map, hq, Option.map_some]

/-- A function whose return type says what its answer tells of its parameter. -/
def guardText : List Char := "function f(x: A): x is T \x7b\x7d".toList

/-- The type of the parameter of `guardFunction`. -/
def guardedType : Tree := .mk ⟨"type_annotation", 12, 15, 0, 0, ["type"], 5⟩ []

/-- The parameter of `guardFunction`. -/
def guardedParameter : Tree :=
  .mk ⟨"required_parameter", 11, 15, 0, 0, [], 3⟩
    [.mk ⟨"identifier", 11, 12, 0, 0, ["pattern"], 4⟩ [], guardedType]

/-- The parameters of `guardFunction`. -/
def guardParameters : Tree :=
  .mk ⟨"formal_parameters", 10, 16, 0, 0, ["parameters"], 2⟩ [guardedParameter]

/-- The return type of `guardFunction`. -/
def guardType : Tree := .mk ⟨"type_predicate_annotation", 16, 24, 0, 0, ["return_type"], 6⟩ []

/-- The tree of `guardText`. -/
def guardFunction : Tree :=
  .mk ⟨"function_declaration", 0, 27, 0, 0, [], 0⟩
    [.mk ⟨"identifier", 9, 10, 0, 0, ["name"], 1⟩ [], guardParameters, guardType,
      .mk ⟨"statement_block", 25, 27, 0, 0, ["body"], 7⟩ []]

theorem annotates_guardedType :
    Annotates (guardedType.text (Utf8.encode guardText)) "A".toList := by
  have htext : guardedType.text (Utf8.encode guardText) = ':' :: ' ' :: "A".toList := by
    decide +kernel
  rw [htext]
  exact annotates_spaced (by decide) ⟨by rintro c ⟨⟩; decide, by rintro c ⟨⟩; decide⟩ (by decide)

theorem annotates_guardType :
    Annotates (guardType.text (Utf8.encode guardText)) "x is T".toList := by
  have htext : guardType.text (Utf8.encode guardText) = ':' :: ' ' :: "x is T".toList := by
    decide +kernel
  rw [htext]
  exact annotates_spaced (by decide) ⟨by rintro c ⟨⟩; decide, by rintro c ⟨⟩; decide⟩ (by decide)

/-- The parameter of the function has its type without a colon. -/
theorem annotation_bare_guarded :
    guardFunction.IsNamedFunction .typescript (Utf8.encode guardText) ∧
      Annotates (guardedType.text (Utf8.encode guardText)) "A".toList ∧
      ∃ f, guardFunction.ownFunction? .typescript (Utf8.encode guardText) = some f ∧
        ∃ param, f.params[0]? = some param ∧ param.type = "A" := by
  have hnamed : guardFunction.IsNamedFunction .typescript (Utf8.encode guardText) :=
    ⟨by decide +kernel, by decide +kernel⟩
  obtain ⟨f, hf, -, -, hparams⟩ :=
    annotation_bare_iff (Or.inl rfl) "typescript" "guard.ts" (subtree?_nil guardFunction) hnamed
  obtain ⟨param, hparam, hgives⟩ := hparams guardParameters guardedParameter guardedType 0
    "A".toList rfl rfl rfl annotates_guardedType
  exact ⟨hnamed, annotates_guardedType, f, hf, param, hparam, hgives.bare_iff.mpr rfl⟩

/-- Its return type is given with the colon, though it is written like one that is given without. -/
theorem guard_keeps_colon :
    guardFunction.IsNamedFunction .typescript (Utf8.encode guardText) ∧
      guardFunction.child? "return_type" = some guardType ∧
      Annotates (guardType.text (Utf8.encode guardText)) "x is T".toList ∧
      ∃ f, guardFunction.ownFunction? .typescript (Utf8.encode guardText) = some f ∧
        f.returnType = ": x is T" ∧ f.returnType ≠ "x is T" := by
  have hnamed : guardFunction.IsNamedFunction .typescript (Utf8.encode guardText) :=
    ⟨by decide +kernel, by decide +kernel⟩
  have htype : (guardFunction.functionInfo .typescript (Utf8.encode guardText)).returnType
      = ": x is T" := by decide +kernel
  refine ⟨hnamed, rfl, annotates_guardType, _, ownFunction?_eq_some.mpr ⟨hnamed, rfl⟩, htype, ?_⟩
  rw [htype]
  decide

end Tree

end SourceIndex
