/-!
# Shapes of text

A shape describes the beginnings of a text: single characters, runs of characters, one shape after
another, and alternatives.

`leads` says what a shape means: whether some beginning of a text has the shape and the rest of the
text is as wanted.  What is wanted of the rest is a function, so that no beginning has to be chosen
before it is known to fit.

To try one beginning after another may take very long where runs follow each other.  `begins`
therefore goes through the shape once and marks all places of the text that can be reached, so that
the work grows with the product of the two lengths only.  Both agree (`begins_eq_leads`).
-/

namespace SourceIndex.Ignore

/-- A set of characters, given by ranges that are in it or, if negated, out of it. -/
structure CharSet where
  negated : Bool
  ranges : List (Char × Char)
deriving DecidableEq, Repr

namespace CharSet

/-- Whether a character is in the set. -/
def has (set : CharSet) (c : Char) : Bool :=
  set.ranges.any (fun r => decide (r.1 ≤ c ∧ c ≤ r.2)) != set.negated

/-- Whether every range begins at or before its end. -/
def isOrdered (set : CharSet) : Bool :=
  set.ranges.all (fun r => decide (r.1 ≤ r.2))

/-- The set of one character. -/
def only (c : Char) : CharSet := ⟨false, [(c, c)]⟩

/-- The set of all characters but one. -/
def allBut (c : Char) : CharSet := ⟨true, [(c, c)]⟩

end CharSet

/-- What a beginning of a text can look like. -/
inductive Shape where
  /-- No characters. -/
  | empty
  /-- One character of a set. -/
  | one (set : CharSet)
  /-- Any number of characters of a set. -/
  | many (set : CharSet)
  /-- One shape, then another. -/
  | followed (first second : Shape)
  /-- One of two shapes. -/
  | either (first second : Shape)
  /-- No characters, where the text ends or only a line feed is left. -/
  | ending
deriving DecidableEq, Repr

namespace Shape

/-- Whether a run of characters of a set leads to a rest as wanted. -/
def manyLeads (set : CharSet) (wanted : List Char → Bool) : List Char → Bool
  | [] => wanted []
  | c :: rest => wanted (c :: rest) || (set.has c && manyLeads set wanted rest)

/-- Whether some beginning of a text has the shape and leaves a rest as wanted. -/
def leads : Shape → (List Char → Bool) → List Char → Bool
  | empty, wanted, text => wanted text
  | one _, _, [] => false
  | one set, wanted, c :: rest => set.has c && wanted rest
  | many set, wanted, text => manyLeads set wanted text
  | followed first second, wanted, text => first.leads (second.leads wanted) text
  | either first second, wanted, text => first.leads wanted text || second.leads wanted text
  | ending, wanted, text => (text.isEmpty || text == ['\n']) && wanted text

/-! ## Marking places

A list of marks tells of each place of a text, from its beginning to its end, whether the place is
marked; places that the list does not reach are not. -/

/-- Whether a place is marked from which the rest of the text is as wanted. -/
def meets (wanted : List Char → Bool) : List Char → List Bool → Bool
  | [], marks => marks.headD false && wanted []
  | c :: rest, marks =>
    (marks.headD false && wanted (c :: rest)) || meets wanted rest marks.tail

/-- The places one character of a set behind marked places; `arrived` tells whether the first place
is one of them. -/
def oneMarks (set : CharSet) (arrived : Bool) : List Char → List Bool → List Bool
  | [], _ => [arrived]
  | c :: rest, marks => arrived :: oneMarks set (marks.headD false && set.has c) rest marks.tail

/-- The places any number of characters of a set behind marked places; `arrived` tells whether the
first place is reached from before. -/
def manyMarks (set : CharSet) (arrived : Bool) : List Char → List Bool → List Bool
  | [], marks => [marks.headD false || arrived]
  | c :: rest, marks =>
    let here := marks.headD false || arrived
    here :: manyMarks set (here && set.has c) rest marks.tail

/-- The places that are marked in one of two ways. -/
def eitherMarks : List Char → List Bool → List Bool → List Bool
  | [], first, second => [first.headD false || second.headD false]
  | _ :: rest, first, second =>
    (first.headD false || second.headD false) :: eitherMarks rest first.tail second.tail

/-- The marked places where the text ends or only a line feed is left. -/
def endingMarks : List Char → List Bool → List Bool
  | [], marks => [marks.headD false]
  | c :: rest, marks =>
    (marks.headD false && (c :: rest == ['\n'])) :: endingMarks rest marks.tail

/-- The places that a beginning with the shape leads to from marked places.  Without marked places
the rest of the shape is left alone. -/
def reach : Shape → List Char → List Bool → List Bool
  | empty, _, marks => marks
  | one set, text, marks => oneMarks set false text marks
  | many set, text, marks => manyMarks set false text marks
  | followed first second, text, marks =>
    let marks := first.reach text marks
    if marks.any id then second.reach text marks else []
  | either first second, text, marks =>
    eitherMarks text (first.reach text marks) (second.reach text marks)
  | ending, text, marks => endingMarks text marks

/-- Whether a text begins with the shape. -/
def begins (shape : Shape) (text : List Char) : Bool :=
  meets (fun _ => true) text (shape.reach text [true])

/-- Whether every range of every set begins at or before its end. -/
def isOrdered : Shape → Bool
  | empty => true
  | one set => set.isOrdered
  | many set => set.isOrdered
  | followed first second => first.isOrdered && second.isOrdered
  | either first second => first.isOrdered && second.isOrdered
  | ending => true

/-- One given character. -/
def char (c : Char) : Shape := one (.only c)

/-- One or more characters of a set. -/
def oneOrMore (set : CharSet) : Shape := followed (one set) (many set)

/-- A shape, or no characters. -/
def optional (shape : Shape) : Shape := either shape empty

/-! ## Marking agrees with the meaning -/

theorem meets_nil (wanted : List Char → Bool) (text : List Char) : meets wanted text [] = false := by
  induction text with
  | nil => rfl
  | cons c rest ih => simp [meets, ih]

theorem meets_of_unmarked {marks : List Bool} (h : marks.any id = false)
    (wanted : List Char → Bool) (text : List Char) : meets wanted text marks = false := by
  induction text generalizing marks with
  | nil => cases marks <;> simp_all [meets]
  | cons c rest ih => cases marks <;> simp_all [meets]

theorem meets_oneMarks (set : CharSet) (arrived : Bool) (wanted : List Char → Bool)
    (text : List Char) (marks : List Bool) :
    meets wanted text (oneMarks set arrived text marks)
      = ((arrived && wanted text) || meets ((one set).leads wanted) text marks) := by
  induction text generalizing arrived marks with
  | nil => simp [oneMarks, meets, leads]
  | cons c rest ih =>
    simp only [oneMarks, meets, List.headD_cons, List.tail_cons, ih, leads]
    simp only [Bool.and_assoc]

theorem meets_manyMarks (set : CharSet) (arrived : Bool) (wanted : List Char → Bool)
    (text : List Char) (marks : List Bool) :
    meets wanted text (manyMarks set arrived text marks)
      = ((arrived && manyLeads set wanted text) || meets (manyLeads set wanted) text marks) := by
  induction text generalizing arrived marks with
  | nil =>
    simp only [manyMarks, meets, List.headD_cons, manyLeads]
    cases arrived <;> simp
  | cons c rest ih =>
    simp only [manyMarks, meets, List.headD_cons, List.tail_cons, ih, manyLeads]
    cases arrived <;> cases marks.headD false <;> cases wanted (c :: rest) <;>
      cases set.has c <;> cases manyLeads set wanted rest <;> rfl

theorem meets_eitherMarks (wanted : List Char → Bool) (text : List Char)
    (first second : List Bool) :
    meets wanted text (eitherMarks text first second)
      = (meets wanted text first || meets wanted text second) := by
  induction text generalizing first second with
  | nil => simp only [eitherMarks, meets, List.headD_cons, Bool.and_or_distrib_right]
  | cons c rest ih =>
    simp only [eitherMarks, meets, List.headD_cons, List.tail_cons, ih]
    cases first.headD false <;> cases second.headD false <;> cases wanted (c :: rest) <;> simp

theorem meets_or (wanted other : List Char → Bool) (text : List Char) (marks : List Bool) :
    meets (fun rest => wanted rest || other rest) text marks
      = (meets wanted text marks || meets other text marks) := by
  induction text generalizing marks with
  | nil => simp only [meets, Bool.and_or_distrib_left]
  | cons c rest ih =>
    simp only [meets, ih]
    cases marks.headD false <;> cases wanted (c :: rest) <;> cases other (c :: rest) <;> simp

theorem meets_endingMarks (wanted : List Char → Bool) (text : List Char) (marks : List Bool) :
    meets wanted text (endingMarks text marks) = meets (ending.leads wanted) text marks := by
  induction text generalizing marks with
  | nil => simp [endingMarks, meets, leads]
  | cons c rest ih =>
    simp only [endingMarks, meets, List.headD_cons, List.tail_cons, ih, leads]
    simp [Bool.and_assoc]

/-- A rest as wanted can be reached from a marked place exactly if the shape leads to it from one. -/
theorem meets_reach (shape : Shape) (wanted : List Char → Bool) (text : List Char)
    (marks : List Bool) :
    meets wanted text (shape.reach text marks) = meets (shape.leads wanted) text marks := by
  induction shape generalizing wanted marks with
  | empty => rfl
  | one set => simp [reach, meets_oneMarks]
  | many set => simp [reach, meets_manyMarks, leads]
  | followed first second ihf ihs =>
    have hleads : (followed first second).leads wanted = first.leads (second.leads wanted) := by
      funext text
      rw [leads]
    rw [hleads, ← ihf]
    by_cases h : (first.reach text marks).any id = true
    · rw [reach, if_pos h, ihs]
    · rw [reach, if_neg h, meets_nil, meets_of_unmarked (Bool.eq_false_iff.mpr h)]
  | either first second ihf ihs =>
    simp only [reach, meets_eitherMarks, ihf, ihs, leads, meets_or]
  | ending => exact meets_endingMarks wanted text marks

/-- A text begins with a shape if the shape leads to any rest of it. -/
theorem begins_eq_leads (shape : Shape) (text : List Char) :
    shape.begins text = shape.leads (fun _ => true) text := by
  rw [begins, meets_reach]
  cases text <;> simp [meets, meets_nil]

end Shape

end SourceIndex.Ignore
