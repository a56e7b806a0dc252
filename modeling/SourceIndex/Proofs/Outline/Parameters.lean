import SourceIndex.LanguageTable.BuiltIn
import SourceIndex.Proofs.Outline.Places
import SourceIndex.Proofs.Text.Utf8

/-!
# The names of parameters

The name of a parameter is the parameter itself, or stands under one of a few fields, or is the
first child that is a name or declares one.  Where the tree has none of these, the name is `unknown`.

A parser that recovers from an error may put in nodes that cover nothing of the source.  A field or
a declarator with such a node is made up for by `unknown` (`OffersName`), but a parameter that is
itself a name, or that has a name for a child, takes the text of it as it stands (`TakesName`).  So
**a parameter comes out without a name exactly if the name it takes covers nothing of the source**
(`params_named_iff`).
-/

namespace SourceIndex

namespace Tree

variable {table : LanguageTable} {source : Bytes} {language fileName : String} {t g q c : Tree}

/-! ## Nodes that cover nothing -/

/-- The topmost node covers some byte of the source. -/
def Covers (source : Bytes) (t : Tree) : Prop :=
  t.node.startByte < t.node.endByte ∧ t.node.startByte < source.length

instance (source : Bytes) (t : Tree) : Decidable (t.Covers source) :=
  inferInstanceAs (Decidable (_ ∧ _))

theorem text_eq_nil_iff : t.text source = [] ↔ ¬t.Covers source := by
  rw [text, Node.text, Utf8.decode_eq_nil_iff]
  exact Bytes.slice_eq_nil_iff

/-! ## The node that gives a name -/

/-- Whether a child of a parameter settles where its name comes from. -/
def settlesName (table : LanguageTable) (c : Tree) : Bool :=
  decide (c.kind ∈ table.nameLike ∨ c.kind = "variable_declarator")

/-- The name of the parameter `q` is the text of a node as it stands. -/
inductive TakesName (table : LanguageTable) (q : Tree) : Tree → Prop
  /-- The parameter is itself a name. -/
  | itself (h : q.kind ∈ table.nameLike) : TakesName table q q
  /-- No field holds a name, and of the children that settle the name the first is a name. -/
  | child {c : Tree} (h : q.kind ∉ table.nameLike)
      (hfields : nameFields.findSome? q.child? = none)
      (hc : q.children.find? (settlesName table) = some c)
      (hname : c.kind ∈ table.nameLike) : TakesName table q c

/-- The name of the parameter `q` is the text of a node, if there is a node and its text is not
empty. -/
inductive OffersName (table : LanguageTable) (q : Tree) : Option Tree → Prop
  /-- A field holds the name. -/
  | field {c : Tree} (h : q.kind ∉ table.nameLike)
      (hc : nameFields.findSome? q.child? = some c) : OffersName table q (some c)
  /-- No field holds a name, and of the children that settle the name the first is a declarator. -/
  | declarator {c : Tree} (h : q.kind ∉ table.nameLike)
      (hfields : nameFields.findSome? q.child? = none)
      (hc : q.children.find? (settlesName table) = some c)
      (hname : c.kind ∉ table.nameLike) : OffersName table q (c.child? "name")
  /-- Nothing settles the name. -/
  | nothing (h : q.kind ∉ table.nameLike)
      (hfields : nameFields.findSome? q.child? = none)
      (hc : q.children.find? (settlesName table) = none) : OffersName table q none

/-- The name of every parameter is taken or offered. -/
theorem takesName_or_offersName (table : LanguageTable) (q : Tree) :
    (∃ c, TakesName table q c) ∨ ∃ n, OffersName table q n := by
  by_cases h : q.kind ∈ table.nameLike
  · exact Or.inl ⟨q, .itself h⟩
  · cases hfields : nameFields.findSome? q.child? with
    | some c => exact Or.inr ⟨some c, .field h hfields⟩
    | none =>
      cases hc : q.children.find? (settlesName table) with
      | none => exact Or.inr ⟨none, .nothing h hfields hc⟩
      | some c =>
        by_cases hname : c.kind ∈ table.nameLike
        · exact Or.inl ⟨c, .child h hfields hc hname⟩
        · exact Or.inr ⟨_, .declarator h hfields hc hname⟩

/-! ## The name itself -/

theorem nameFromChild?_of_mem (h : c.kind ∈ table.nameLike) :
    nameFromChild? table source c = some (c.text source) := by
  rw [nameFromChild?, if_pos (List.contains_iff_mem.mpr h)]

theorem nameFromChild?_of_declarator (h : c.kind ∉ table.nameLike)
    (hkind : c.kind = "variable_declarator") :
    nameFromChild? table source c = some (orUnknown (c.fieldText "name" source)) := by
  rw [nameFromChild?, if_neg (mt List.contains_iff_mem.mp h), if_pos (beq_iff_eq.mpr hkind)]

theorem nameFromChild?_of_not_settlesName (h : settlesName table c = false) :
    nameFromChild? table source c = none := by
  have hneither := not_or.mp (of_decide_eq_false h)
  rw [nameFromChild?, if_neg (mt List.contains_iff_mem.mp hneither.1),
    if_neg (mt beq_iff_eq.mp hneither.2)]

/-- Of the children, the first that settles the name gives it. -/
theorem findSome?_nameFromChild? (table : LanguageTable) (source : Bytes) (children : List Tree) :
    children.findSome? (nameFromChild? table source)
      = (children.find? (settlesName table)).bind (nameFromChild? table source) := by
  induction children with
  | nil => rfl
  | cons c rest ih =>
    rw [List.findSome?_cons, List.find?_cons]
    cases hsettles : settlesName table c with
    | false => rw [nameFromChild?_of_not_settlesName hsettles]; exact ih
    | true =>
      rw [Option.bind_some]
      by_cases hname : c.kind ∈ table.nameLike
      · rw [nameFromChild?_of_mem hname]
      · have hkind := (of_decide_eq_true hsettles).resolve_left hname
        rw [nameFromChild?_of_declarator hname hkind]

theorem paramName_of_field (h : q.kind ∉ table.nameLike)
    (hc : nameFields.findSome? q.child? = some c) :
    q.paramName table source = orUnknown (c.text source) := by
  simp only [paramName, if_neg (mt List.contains_iff_mem.mp h), hc]

theorem paramName_of_children (h : q.kind ∉ table.nameLike)
    (hfields : nameFields.findSome? q.child? = none) :
    q.paramName table source
      = ((q.children.find? (settlesName table)).bind (nameFromChild? table source)).getD
          unknown := by
  simp only [paramName, if_neg (mt List.contains_iff_mem.mp h), hfields, findSome?_nameFromChild?]

theorem TakesName.paramName_eq (h : TakesName table q c) (source : Bytes) :
    q.paramName table source = c.text source := by
  cases h with
  | itself h => rw [paramName, if_pos (List.contains_iff_mem.mpr h)]
  | child h hfields hc hname =>
    rw [paramName_of_children h hfields, hc, Option.bind_some, nameFromChild?_of_mem hname,
      Option.getD_some]

/-- What is offered is the name unless it is empty. -/
theorem OffersName.paramName_eq {n : Option Tree} (h : OffersName table q n) (source : Bytes) :
    q.paramName table source = orUnknown (n.elim [] (·.text source)) := by
  cases h with
  | field h hc => rw [paramName_of_field h hc, Option.elim_some]
  | nothing h hfields hc =>
    rw [paramName_of_children h hfields, hc, Option.bind_none, Option.getD_none, Option.elim_none,
      orUnknown]
  | @declarator c h hfields hc hname =>
    have hsettles : settlesName table c = true := List.find?_some hc
    have hkind := (of_decide_eq_true hsettles).resolve_left hname
    have htext : c.fieldText "name" source = (c.child? "name").elim [] (·.text source) := by
      rw [fieldText]
      cases c.child? "name" <;> rfl
    rw [paramName_of_children h hfields, hc, Option.bind_some,
      nameFromChild?_of_declarator hname hkind, Option.getD_some, htext]

theorem orUnknown_ne_nil (text : List Char) : orUnknown text ≠ [] := by
  cases text with
  | nil => exact List.cons_ne_nil _ _
  | cons c rest => exact List.cons_ne_nil c rest

theorem orUnknown_of_ne_nil {text : List Char} (h : text ≠ []) : orUnknown text = text := by
  cases text with
  | nil => exact absurd rfl h
  | cons c rest => rfl

/-- What the nodes of a parameter say of its name. -/
structure NamedBy (table : LanguageTable) (source : Bytes) (q : Tree) (name : String) : Prop where
  taken : ∀ c, TakesName table q c → name = String.ofList (c.text source)
  offered : ∀ c, OffersName table q (some c) → c.Covers source →
    name = String.ofList (c.text source)
  unknown : ∀ n, OffersName table q n → (∀ c, n = some c → ¬c.Covers source) → name = "unknown"
  empty_iff : name = "" ↔ ∃ c, TakesName table q c ∧ ¬c.Covers source

theorem paramName_eq_nil_iff :
    q.paramName table source = [] ↔ ∃ c, TakesName table q c ∧ ¬c.Covers source := by
  constructor
  · intro hempty
    rcases takesName_or_offersName table q with ⟨c, h⟩ | ⟨n, h⟩
    · rw [h.paramName_eq] at hempty
      exact ⟨c, h, text_eq_nil_iff.mp hempty⟩
    · rw [h.paramName_eq] at hempty
      exact absurd hempty (orUnknown_ne_nil _)
  · rintro ⟨c, h, hcovers⟩
    rw [h.paramName_eq, text_eq_nil_iff]
    exact hcovers

theorem namedBy_param (table : LanguageTable) (source : Bytes) (q : Tree) :
    NamedBy table source q (q.param table source).name where
  taken := by
    intro c h
    exact congrArg String.ofList (h.paramName_eq source)
  offered := by
    intro c h hcovers
    have hne : c.text source ≠ [] := fun hempty => text_eq_nil_iff.mp hempty hcovers
    exact congrArg String.ofList ((h.paramName_eq source).trans (orUnknown_of_ne_nil hne))
  unknown := by
    intro n h hnone
    have hempty : n.elim [] (·.text source) = [] := by
      cases n with
      | none => rfl
      | some c => exact text_eq_nil_iff.mpr (hnone c rfl)
    refine congrArg String.ofList ((h.paramName_eq source).trans ?_)
    rw [hempty]
    rfl
  empty_iff := String.ofList_eq_empty_iff.trans paramName_eq_nil_iff

/-! ## The parameters of a function -/

/-- The children of a function's parameter list that are parameters. -/
def parameterNodes (table : LanguageTable) (g : Tree) : List Tree :=
  ((g.child? "parameters").elim [] children).filter (fun q => table.isA q.kind .parameter)

theorem params_eq_map (table : LanguageTable) (source : Bytes) (g : Tree) :
    g.params table source = (g.parameterNodes table).map (param table source) := by
  rw [params, parameterNodes]
  cases g.child? "parameters" <;> rfl

/-- **The parameters of an outline all have names exactly if none takes for its name a node that
covers nothing of the source.**  Each parameter has the name that its nodes give it, and `unknown`
if they offer none. -/
theorem params_named_iff (table : LanguageTable) (source : Bytes) (language fileName : String)
    (t : Tree) :
    ((∀ f ∈ (Outline.extract table source language fileName t).value.functions,
        ∀ p ∈ f.params, p.name ≠ "") ↔
      ∀ a g, t.subtree? a = some g → g.IsNamedFunction table source →
        ∀ q ∈ g.parameterNodes table, ∀ c, TakesName table q c → c.Covers source) ∧
      ∀ a g, t.subtree? a = some g → g.IsNamedFunction table source →
        ∃ f ∈ (Outline.extract table source language fileName t).value.functions,
          g.ownFunction? table source = some f ∧
          ∀ (i : Nat) (q : Tree), (g.parameterNodes table)[i]? = some q →
            ∃ p : Param, f.params[i]? = some p ∧ NamedBy table source q p.name := by
  constructor
  · constructor
    · intro h a g hg hnamed q hq c hc
      have hmem : q.param table source ∈ (g.functionInfo table source).params := by
        rw [functionInfo, params_eq_map]
        exact List.mem_map_of_mem hq
      have hname := h _ (mem_functions_iff.mpr ⟨a, g, hg, hnamed, rfl⟩) _ hmem
      by_cases hcovers : c.Covers source
      · exact hcovers
      · exact absurd ((namedBy_param table source q).empty_iff.mpr ⟨c, hc, hcovers⟩) hname
    · intro h f hf p hp hname
      obtain ⟨a, g, hg, hnamed, rfl⟩ := mem_functions_iff.mp hf
      rw [functionInfo, params_eq_map] at hp
      obtain ⟨q, hq, rfl⟩ := List.mem_map.mp hp
      obtain ⟨c, hc, hcovers⟩ := (namedBy_param table source q).empty_iff.mp hname
      exact hcovers (h a g hg hnamed q hq c hc)
  · intro a g hg hnamed
    refine ⟨g.functionInfo table source, mem_functions_iff.mpr ⟨a, g, hg, hnamed, rfl⟩,
      ownFunction?_eq_some.mpr ⟨hnamed, rfl⟩, ?_⟩
    intro i q hq
    refine ⟨q.param table source, ?_, namedBy_param table source q⟩
    change (g.params table source)[i]? = _
    rw [params_eq_map, List.getElem?_map, hq, Option.map_some]

/-- A function with three parameters, of which the second is nothing but a default. -/
def defaultText : Bytes := Utf8.encode "function f(\x7b\x7d, = 1, ...r) \x7b\x7d".toList

/-- The name that the second parameter lacks. -/
def missingName : Tree := mk ⟨"identifier", 15, 15, 0, 0, ["left"], 5⟩ []

/-- The second parameter of `defaultFunction`. -/
def defaultParameter : Tree :=
  mk ⟨"assignment_pattern", 15, 18, 0, 0, [], 4⟩
    [missingName, mk ⟨"number", 17, 18, 0, 0, ["right"], 6⟩ []]

/-- The tree of `defaultText`. -/
def defaultFunction : Tree :=
  mk ⟨"function_declaration", 0, 28, 0, 0, [], 0⟩
    [mk ⟨"identifier", 9, 10, 0, 0, ["name"], 1⟩ [],
      mk ⟨"formal_parameters", 10, 25, 0, 0, ["parameters"], 2⟩
        [mk ⟨"object_pattern", 11, 13, 0, 0, [], 3⟩ [], defaultParameter,
          mk ⟨"rest_pattern", 20, 24, 0, 0, [], 7⟩ [mk ⟨"identifier", 23, 24, 0, 0, [], 8⟩ []]]]

/-- The second parameter is offered a name that covers nothing, and is called `unknown`. -/
theorem params_named_defaultFunction :
    defaultFunction.IsNamedFunction .javascript defaultText ∧
      (defaultFunction.parameterNodes .javascript)[1]? = some defaultParameter ∧
      OffersName .javascript defaultParameter (some missingName) ∧
      ¬missingName.Covers defaultText ∧
      ∃ f ∈ (Outline.extract .javascript defaultText "javascript" "f.js"
          defaultFunction).value.functions,
        ∃ p : Param, f.params[1]? = some p ∧ p.name = "unknown" := by
  have hnamed : defaultFunction.IsNamedFunction .javascript defaultText :=
    ⟨by decide +kernel, by decide +kernel⟩
  have hnode : (defaultFunction.parameterNodes .javascript)[1]? = some defaultParameter := rfl
  have hoffers : OffersName .javascript defaultParameter (some missingName) :=
    .field (by decide) rfl
  have hcovers : ¬missingName.Covers defaultText := by decide
  obtain ⟨f, hf, -, hparams⟩ := (params_named_iff .javascript defaultText "javascript" "f.js"
    defaultFunction).2 [] defaultFunction rfl hnamed
  obtain ⟨p, hp, hname⟩ := hparams 1 defaultParameter hnode
  refine ⟨hnamed, hnode, hoffers, hcovers, f, hf, p, hp, hname.unknown _ hoffers ?_⟩
  rintro c ⟨⟩
  exact hcovers

/-- A function with a rest parameter that lacks its name. -/
def spreadText : Bytes := Utf8.encode "function f(...) \x7b\x7d".toList

/-- The tree of `spreadText`, as a parser leaves it that has put in a name for the parameter. -/
def spreadFunction : Tree :=
  mk ⟨"function_declaration", 0, 18, 0, 0, [], 0⟩
    [mk ⟨"identifier", 9, 10, 0, 0, ["name"], 1⟩ [],
      mk ⟨"formal_parameters", 10, 15, 0, 0, ["parameters"], 2⟩
        [mk ⟨"rest_pattern", 11, 14, 0, 0, [], 3⟩
          [mk ⟨"...", 11, 14, 0, 0, [], 4⟩ [], mk ⟨"identifier", 14, 14, 0, 0, [], 5⟩ []]]]

/-- The parameter takes the empty name. -/
theorem rest_without_name :
    ∃ f ∈ (Outline.extract .javascript spreadText "javascript" "f.js"
        spreadFunction).value.functions, ∃ p ∈ f.params, p.name = "" := by
  have hnames : (Outline.extract .javascript spreadText "javascript" "f.js"
      spreadFunction).value.functions.any (fun f => f.params.any (·.name == "")) = true := by
    decide +kernel
  simpa using hnames

end Tree

end SourceIndex
