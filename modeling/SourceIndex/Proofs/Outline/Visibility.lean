import SourceIndex.Outline.Visibility
import SourceIndex.LanguageTable.BuiltIn

/-!
# Which keyword gives the visibility

A text may hold several keywords, and each of them several times.  The one that comes first is
unique, as no two keywords begin at one position (`StandsAt.unique`), and it is what going through
the text finds (`firstKeyword?_found`).

So **the visibility of a function is the earliest keyword of its first child that states one**, and
no other child has a say (`visibility_by_earliest`): neither what comes after that child, nor what
is not of a kind of modifiers, nor modifiers without a keyword.
-/

namespace SourceIndex

/-! ## Keywords in a text -/

/-- A keyword stands in a text at a position. -/
structure StandsAt (text : List Char) (position : Nat) (keyword : String) : Prop where
  isKeyword : keyword ∈ visibilityKeywords
  here : keyword.toList <+: text.drop position

/-- Some keyword stands in a text. -/
def HasKeyword (text : List Char) : Prop :=
  ∃ keyword ∈ visibilityKeywords, keyword.toList <:+: text

/-- A keyword stands in a text at a position that is at or before the positions of all keywords in
it. -/
def IsEarliest (text : List Char) (keyword : String) : Prop :=
  ∃ position, StandsAt text position keyword ∧
    ∀ other there, StandsAt text there other → position ≤ there

variable {text : List Char} {keyword other : String} {position there : Nat}

/-- No keyword begins another, so that only one stands at a position. -/
theorem StandsAt.unique (h : StandsAt text position keyword) (h' : StandsAt text position other) :
    keyword = other := by
  have hfree : ∀ k ∈ visibilityKeywords, ∀ l ∈ visibilityKeywords,
      k.toList <+: l.toList → k = l := by decide
  rcases List.prefix_or_prefix_of_prefix h.here h'.here with hpre | hpre
  · exact hfree _ h.isKeyword _ h'.isKeyword hpre
  · exact (hfree _ h'.isKeyword _ h.isKeyword hpre).symm

theorem IsEarliest.unique (h : IsEarliest text keyword) (h' : IsEarliest text other) :
    keyword = other := by
  obtain ⟨position, hat, hfirst⟩ := h
  obtain ⟨there, hat', hfirst'⟩ := h'
  obtain rfl : position = there := Nat.le_antisymm (hfirst _ _ hat') (hfirst' _ _ hat)
  exact hat.unique hat'

theorem StandsAt.hasKeyword (h : StandsAt text position keyword) : HasKeyword text :=
  ⟨keyword, h.isKeyword, h.here.isInfix.trans (List.drop_suffix position text).isInfix⟩

theorem not_hasKeyword_nil : ¬HasKeyword [] := by
  rintro ⟨keyword, hk, hin⟩
  have hne : ∀ k ∈ visibilityKeywords, k.toList ≠ [] := by decide
  exact hne keyword hk (List.infix_nil.mp hin)

theorem standsAt_cons_succ {c : Char} :
    StandsAt (c :: text) (position + 1) keyword ↔ StandsAt text position keyword :=
  ⟨fun h => ⟨h.isKeyword, h.here⟩, fun h => ⟨h.isKeyword, h.here⟩⟩

theorem keywordAt?_eq_some (h : keywordAt? text = some keyword) : StandsAt text 0 keyword := by
  have hpre : keyword.toList.isPrefixOf text = true :=
    List.find?_some (p := fun k : String => k.toList.isPrefixOf text) h
  exact ⟨List.mem_of_find?_eq_some h, List.isPrefixOf_iff_prefix.mp hpre⟩

theorem keywordAt?_eq_none (h : keywordAt? text = none) : ¬StandsAt text 0 keyword := by
  intro hat
  exact List.find?_eq_none.mp h keyword hat.isKeyword (List.isPrefixOf_iff_prefix.mpr hat.here)

/-- Going through a text finds its earliest keyword, and finds nothing only if it has none. -/
theorem firstKeyword?_found (text : List Char) :
    (∃ keyword, firstKeyword? text = some keyword ∧ IsEarliest text keyword) ∨
      firstKeyword? text = none ∧ ¬HasKeyword text := by
  induction text with
  | nil => exact Or.inr ⟨rfl, not_hasKeyword_nil⟩
  | cons c rest ih =>
    rw [firstKeyword?]
    cases hhere : keywordAt? (c :: rest) with
    | some keyword =>
      exact Or.inl ⟨keyword, rfl, 0, keywordAt?_eq_some hhere, fun _ _ _ => Nat.zero_le _⟩
    | none =>
      -- Nothing stands at the beginning, so that all positions are those in the rest, moved by one.
      rcases ih with ⟨keyword, hfound, position, hat, hfirst⟩ | ⟨hfound, hnone⟩
      · refine Or.inl ⟨keyword, hfound, position + 1, standsAt_cons_succ.mpr hat, ?_⟩
        intro other there hother
        cases there with
        | zero => exact absurd hother (keywordAt?_eq_none hhere)
        | succ there => exact Nat.succ_le_succ (hfirst _ _ (standsAt_cons_succ.mp hother))
      · refine Or.inr ⟨hfound, ?_⟩
        rintro ⟨keyword, hk, hin⟩
        rcases List.infix_cons_iff.mp hin with hpre | hin
        · exact keywordAt?_eq_none hhere ⟨hk, hpre⟩
        · exact hnone ⟨keyword, hk, hin⟩

theorem firstKeyword?_eq_none_iff : firstKeyword? text = none ↔ ¬HasKeyword text := by
  rcases firstKeyword?_found text with ⟨keyword, hfound, position, hat, -⟩ | ⟨hfound, hnone⟩
  · exact iff_of_false (by simp [hfound]) (not_not_intro hat.hasKeyword)
  · exact iff_of_true hfound hnone

theorem firstKeyword?_eq_some_iff :
    firstKeyword? text = some keyword ↔ IsEarliest text keyword := by
  rcases firstKeyword?_found text with ⟨found, hfound, hearliest⟩ | ⟨hfound, hnone⟩
  · rw [hfound, Option.some.injEq]
    constructor
    · rintro rfl
      exact hearliest
    · exact hearliest.unique
  · refine iff_of_false (by simp [hfound]) ?_
    rintro ⟨position, hat, -⟩
    exact hnone hat.hasKeyword

/-! ## The child that decides -/

namespace Tree

variable {table : LanguageTable} {source : Bytes} {t m c : Tree}

/-- A child states a visibility: it is of a kind of modifiers, and its text has a keyword. -/
def StatesVisibility (table : LanguageTable) (source : Bytes) (c : Tree) : Prop :=
  table.isA c.kind .visibility = true ∧ HasKeyword (c.text source)

/-- The keyword that a child gives. -/
def ownVisibility? (table : LanguageTable) (source : Bytes) (c : Tree) : Option String :=
  if table.isA c.kind .visibility then firstKeyword? (c.text source) else none

theorem ownVisibility?_eq_none_iff :
    c.ownVisibility? table source = none ↔ ¬c.StatesVisibility table source := by
  unfold ownVisibility? StatesVisibility
  split
  · next hkind => rw [firstKeyword?_eq_none_iff, and_iff_right hkind]
  · next hkind => exact iff_of_true rfl (fun h => hkind h.1)

theorem StatesVisibility.ownVisibility?_eq_some_iff {keyword : String}
    (h : c.StatesVisibility table source) :
    c.ownVisibility? table source = some keyword ↔ IsEarliest (c.text source) keyword := by
  rw [ownVisibility?, if_pos h.1, firstKeyword?_eq_some_iff]

theorem visibility_eq_getD (table : LanguageTable) (source : Bytes) (t : Tree) :
    t.visibility table source
      = (t.children.findSome? (ownVisibility? table source)).getD "package" :=
  rfl

/-- Children before the first that states a visibility are passed over, and those after it are not
looked at. -/
theorem findSome?_ownVisibility? {before after : List Tree}
    (hchildren : t.children = before ++ m :: after)
    (hbefore : ∀ c ∈ before, ¬c.StatesVisibility table source)
    (hm : m.StatesVisibility table source) :
    t.children.findSome? (ownVisibility? table source) = m.ownVisibility? table source := by
  have hnone : before.findSome? (ownVisibility? table source) = none := by
    rw [List.findSome?_eq_none_iff]
    intro c hc
    exact ownVisibility?_eq_none_iff.mpr (hbefore c hc)
  rw [hchildren, List.findSome?_append, hnone, Option.none_or, List.findSome?_cons]
  cases hown : m.ownVisibility? table source with
  | none => exact absurd hm (ownVisibility?_eq_none_iff.mp hown)
  | some keyword => rfl

theorem visibility_eq_iff_isEarliest {before after : List Tree} {keyword : String}
    (hchildren : t.children = before ++ m :: after)
    (hbefore : ∀ c ∈ before, ¬c.StatesVisibility table source)
    (hm : m.StatesVisibility table source) :
    t.visibility table source = keyword ↔ IsEarliest (m.text source) keyword := by
  rw [visibility_eq_getD, findSome?_ownVisibility? hchildren hbefore hm,
    ← hm.ownVisibility?_eq_some_iff]
  cases hown : m.ownVisibility? table source with
  | none => exact absurd hm (ownVisibility?_eq_none_iff.mp hown)
  | some found => rw [Option.getD_some, Option.some.injEq]

theorem visibility_eq_package_iff :
    t.visibility table source = "package" ↔
      ∀ c ∈ t.children, ¬c.StatesVisibility table source := by
  rw [visibility_eq_getD]
  cases hfound : t.children.findSome? (ownVisibility? table source) with
  | none =>
    refine iff_of_true rfl ?_
    intro c hc
    exact ownVisibility?_eq_none_iff.mp (List.findSome?_eq_none_iff.mp hfound c hc)
  | some keyword =>
    obtain ⟨c, hc, hown⟩ := List.exists_of_findSome?_eq_some hfound
    have hstates : c.StatesVisibility table source := by
      refine Classical.not_not.mp ?_
      intro hnot
      rw [ownVisibility?_eq_none_iff.mpr hnot] at hown
      cases hown
    obtain ⟨position, hat, -⟩ := hstates.ownVisibility?_eq_some_iff.mp hown
    have hpackage : "package" ∉ visibilityKeywords := by decide
    refine iff_of_false ?_ (fun hnone => hnone c hc hstates)
    rintro rfl
    exact hpackage hat.isKeyword

/-- **The visibility of a function is the earliest keyword of the first child that states one**, and
`package` exactly if no child does.  A function with the same such child has the same visibility,
whatever its other children are.  No two keywords stand at one position, so the earliest is
unique. -/
theorem visibility_by_earliest (table : LanguageTable) (source : Bytes) (t : Tree) :
    (t.visibility table source = "package" ↔
        ∀ c ∈ t.children, table.isA c.kind .visibility = true →
          ∀ keyword ∈ ["public", "private", "protected"], ¬keyword.toList <:+: c.text source) ∧
      (∀ before m after, t.children = before ++ m :: after →
        (∀ c ∈ before, ¬c.StatesVisibility table source) → m.StatesVisibility table source →
          (∀ keyword, t.visibility table source = keyword ↔ IsEarliest (m.text source) keyword) ∧
          ∀ (u : Tree) before' after', u.children = before' ++ m :: after' →
            (∀ c ∈ before', ¬c.StatesVisibility table source) →
              u.visibility table source = t.visibility table source) ∧
      ∀ text position keyword other, StandsAt text position keyword →
        StandsAt text position other → keyword = other := by
  refine ⟨?_, ?_, fun text position keyword other h h' => h.unique h'⟩
  · rw [visibility_eq_package_iff]
    constructor
    · intro h c hc hkind keyword hk hin
      exact h c hc ⟨hkind, keyword, hk, hin⟩
    · rintro h c hc ⟨hkind, keyword, hk, hin⟩
      exact h c hc hkind keyword hk hin
  · intro before m after hchildren hbefore hm
    refine ⟨fun keyword => visibility_eq_iff_isEarliest hchildren hbefore hm, ?_⟩
    intro u before' after' hchildren' hbefore'
    rw [visibility_eq_getD, visibility_eq_getD, findSome?_ownVisibility? hchildren hbefore hm,
      findSome?_ownVisibility? hchildren' hbefore' hm]

/-- The source of a function with modifiers. -/
def modified : Bytes := Utf8.encode "@Old @Key protected private public".toList

/-- A child over a stretch of the source. -/
def childOver (kind : String) (startByte endByte : Nat) : Tree :=
  mk ⟨kind, startByte, endByte, 0, 0, [], 0⟩ []

/-- A function whose first child is not of a kind of modifiers and whose second has no keyword. -/
def modifiedFunction : Tree :=
  mk ⟨"method_declaration", 0, 34, 0, 0, [], 0⟩
    [childOver "identifier" 28 34, childOver "modifiers" 0 4, childOver "modifiers" 5 27,
      childOver "modifiers" 28 34]

/-- Of the three keywords in the children, the earliest of the third child counts. -/
theorem visibility_modifiedFunction :
    (∀ c ∈ [childOver "identifier" 28 34, childOver "modifiers" 0 4],
        ¬c.StatesVisibility LanguageTable.java modified) ∧
      (childOver "modifiers" 5 27).StatesVisibility LanguageTable.java modified ∧
      IsEarliest ((childOver "modifiers" 5 27).text modified) "protected" ∧
      modifiedFunction.visibility LanguageTable.java modified = "protected" := by
  have hbefore : ∀ c ∈ [childOver "identifier" 28 34, childOver "modifiers" 0 4],
      ¬c.StatesVisibility LanguageTable.java modified := by
    have hnone : ∀ c ∈ [childOver "identifier" 28 34, childOver "modifiers" 0 4],
        c.ownVisibility? LanguageTable.java modified = none := by decide +kernel
    intro c hc
    exact ownVisibility?_eq_none_iff.mp (hnone c hc)
  have hearliest : IsEarliest ((childOver "modifiers" 5 27).text modified) "protected" :=
    firstKeyword?_eq_some_iff.mp (by decide +kernel)
  have hm : (childOver "modifiers" 5 27).StatesVisibility LanguageTable.java modified := by
    obtain ⟨position, hat, -⟩ := hearliest
    exact ⟨by decide, hat.hasKeyword⟩
  have hfirst := (visibility_by_earliest LanguageTable.java modified modifiedFunction).2.1
    [childOver "identifier" 28 34, childOver "modifiers" 0 4] (childOver "modifiers" 5 27)
    [childOver "modifiers" 28 34] rfl hbefore hm
  exact ⟨hbefore, hm, hearliest, (hfirst.1 "protected").mpr hearliest⟩

end Tree

end SourceIndex
