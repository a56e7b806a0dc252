import SourceIndex.Data.OrderedMap
import SourceIndex.LanguageTable.Basic

/-!
# Which category a kind has

A kind that is listed under several categories has the one that takes precedence: it is listed
under that category, and under none of lower rank (`category?_eq_some_iff`).  A kind has no category
only if it is listed under none (`category?_eq_none_iff`).

A table may also be turned into a map from kinds to categories, into which the categories are
entered one after another from the last to the first, each in place of what its kinds had before.
**Both ways give the same category** (`category?_by_precedence`), in whatever order the kinds of
each category are entered, and however often.
-/

namespace SourceIndex

/-! ## The order of precedence -/

namespace Category

/-- The place of a category in the order of precedence. -/
def rank : Category → Nat
  | function => 0
  | classDecl => 1
  | importDecl => 2
  | branch => 3
  | parameter => 4
  | annotatedType => 5
  | visibility => 6

theorem pairwise_all : all.Pairwise (fun c d => c.rank < d.rank) := by decide

/-- The first category with a property has it, and none of lower rank does. -/
theorem find?_all_eq_some_iff {p : Category → Bool} {c : Category} :
    all.find? p = some c ↔ p c = true ∧ ∀ d, d.rank < c.rank → p d = false := by
  rw [List.find?_eq_some_iff_append]
  constructor
  · rintro ⟨hc, before, after, hall, hbefore⟩
    refine ⟨hc, ?_⟩
    intro d hlt
    have hsorted := pairwise_all
    have hd := d.mem_all
    rw [hall, List.pairwise_append, List.pairwise_cons] at hsorted
    rw [hall, List.mem_append, List.mem_cons] at hd
    rcases hd with hd | rfl | hd
    · simpa using hbefore d hd
    · exact absurd hlt (Nat.lt_irrefl _)
    · exact absurd hlt (Nat.lt_asymm (hsorted.2.1.1 d hd))
  · rintro ⟨hc, hlower⟩
    obtain ⟨before, after, hall⟩ := List.append_of_mem c.mem_all
    refine ⟨hc, before, after, hall, ?_⟩
    intro d hd
    have hsorted := pairwise_all
    rw [hall, List.pairwise_append] at hsorted
    simpa using hlower d (hsorted.2.2 d hd c List.mem_cons_self)

theorem find?_all_eq_none_iff {p : Category → Bool} :
    all.find? p = none ↔ ∀ d, p d = false := by
  rw [List.find?_eq_none]
  constructor
  · intro h d
    simpa using h d d.mem_all
  · intro h d _
    simp [h d]

end Category

namespace LanguageTable

variable {table : LanguageTable} {kind : String} {c : Category}

theorem category?_eq_some_iff :
    table.category? kind = some c ↔
      table.isA kind c = true ∧ ∀ d, d.rank < c.rank → table.isA kind d = false := by
  rw [category?_eq_find?, Category.find?_all_eq_some_iff]

theorem category?_eq_none_iff :
    table.category? kind = none ↔ ∀ d, table.isA kind d = false := by
  rw [category?_eq_find?, Category.find?_all_eq_none_iff]

/-! ## Entering one category after another -/

/-- Gives all kinds of a list a category, in place of what they had. -/
def enter (c : Category) (kinds : List String) (entered : OrderedMap String Category) :
    OrderedMap String Category :=
  kinds.foldl (fun entered kind => entered.insert kind c) entered

/-- The map that is made by entering categories from the last to the first; `listing` gives the
kinds of each in the order in which they are entered. -/
def enterAll (listing : Category → List String) (categories : List Category) :
    OrderedMap String Category :=
  categories.reverse.foldl (fun entered c => enter c (listing c) entered) OrderedMap.empty

/-- A kind that is entered has the new category; every other kind keeps its own. -/
theorem get?_enter (c : Category) (kinds : List String) (entered : OrderedMap String Category)
    (kind : String) :
    (enter c kinds entered).get? kind = if kind ∈ kinds then some c else entered.get? kind := by
  induction kinds generalizing entered with
  | nil => simp [enter]
  | cons first rest ih =>
    show (enter c rest (entered.insert first c)).get? kind = _
    rw [ih, OrderedMap.get?_insert]
    by_cases hrest : kind ∈ rest
    · simp [hrest]
    · by_cases hfirst : kind = first <;> simp [hrest, hfirst]

/-- What was entered last is what a search from the front meets first. -/
theorem get?_enterAll (listing : Category → List String) (categories : List Category)
    (kind : String) :
    (enterAll listing categories).get? kind
      = categories.find? (fun c => decide (kind ∈ listing c)) := by
  induction categories with
  | nil => rfl
  | cons c rest ih =>
    have hlast : enterAll listing (c :: rest) = enter c (listing c) (enterAll listing rest) := by
      simp [enterAll, List.foldl_append]
    rw [hlast, get?_enter, ih, List.find?_cons]
    by_cases hc : kind ∈ listing c <;> simp [hc]

/-- **The category of a kind is the one of the lowest rank that the kind is listed under**, and it
has none exactly if it is listed under none.  Entering the categories from the last to the first
comes to the same, whatever order the kinds of a category are entered in. -/
theorem category?_by_precedence (table : LanguageTable) (kind : String) :
    (∀ c, table.category? kind = some c ↔
        table.isA kind c = true ∧ ∀ d, d.rank < c.rank → table.isA kind d = false) ∧
      (table.category? kind = none ↔ ∀ d, table.isA kind d = false) ∧
      ∀ listing : Category → List String,
        (∀ c other, other ∈ listing c ↔ table.isA other c = true) →
          (enterAll listing Category.all).get? kind = table.category? kind := by
  refine ⟨fun c => category?_eq_some_iff, category?_eq_none_iff, ?_⟩
  intro listing hlisting
  rw [get?_enterAll, category?_eq_find?]
  congr 1
  funext c
  rw [Bool.eq_iff_iff, decide_eq_true_iff, hlisting]

/-- A table in which one kind is a branch, a parameter and a modifier, and another a function and a
branch. -/
def overlapping : LanguageTable where
  grammar := "overlapping"
  functions := ["lambda"]
  branches := ["lambda", "guard"]
  parameters := ["guard", "name"]
  modifiers := ["name", "guard"]

/-- Entering the kinds of each category backwards makes no difference. -/
theorem category?_overlapping :
    overlapping.category? "guard" = some .branch ∧
      overlapping.category? "lambda" = some .function ∧ overlapping.category? "module" = none ∧
      (∀ c other, other ∈ (overlapping.kinds c).reverse ↔ overlapping.isA other c = true) ∧
      (enterAll (fun c => (overlapping.kinds c).reverse) Category.all).get? "guard"
        = some .branch := by
  have hlisting : ∀ c other,
      other ∈ (overlapping.kinds c).reverse ↔ overlapping.isA other c = true := by
    intro c other
    rw [List.mem_reverse, isA, List.contains_iff_mem]
  have hguard : overlapping.category? "guard" = some .branch := by
    refine ((category?_by_precedence overlapping "guard").1 .branch).mpr ⟨by decide, ?_⟩
    intro d hd
    cases d with
    | function | classDecl | importDecl => rfl
    | branch | parameter | annotatedType | visibility => exact absurd hd (by decide)
  have hlambda : overlapping.category? "lambda" = some .function :=
    ((category?_by_precedence overlapping "lambda").1 .function).mpr
      ⟨by decide, fun d hd => absurd hd (Nat.not_lt_zero _)⟩
  have hmodule : overlapping.category? "module" = none := by
    refine (category?_by_precedence overlapping "module").2.1.mpr ?_
    intro d
    cases d <;> decide
  exact ⟨hguard, hlambda, hmodule, hlisting,
    ((category?_by_precedence overlapping "guard").2.2 _ hlisting).trans hguard⟩

end LanguageTable

end SourceIndex
