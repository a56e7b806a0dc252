import SourceIndex.Ignore.Shape

/-!
# Globs

A glob describes one component of a path.  A star stands for any characters but the slash, a
question mark for one of them, a bracket expression for one character of a set, and a backslash
takes the next character literally.

A bracket expression lists characters and ranges.  It is negated by a leading `!` or `^`, a `]` that
comes first is an ordinary character, and so is the backslash.

Reading stops because every step consumes at least the character it looks at; a bracket expression
is consumed whole (`length_bracket?_lt`).
-/

namespace SourceIndex.Ignore

/-- What can be wrong with a glob. -/
inductive GlobFlaw where
  /-- A bracket expression has no end. -/
  | unclosed
  /-- A backslash has nothing to take literally. -/
  | danglingEscape
deriving DecidableEq, Repr

namespace Glob

/-- The characters that a component of a path consists of. -/
def notSlash : CharSet := .allBut '/'

/-- The ranges that the inside of a bracket expression lists. -/
def ranges : List Char → List (Char × Char)
  | [] => []
  | low :: '-' :: high :: rest => (low, high) :: ranges rest
  | c :: rest => (c, c) :: ranges rest

/-- Whether the inside of a bracket expression is negated, and what follows the sign. -/
def negation : List Char → Bool × List Char
  | '!' :: rest => (true, rest)
  | '^' :: rest => (true, rest)
  | text => (false, text)

/-- The inside of a bracket expression up to its end, and what follows the end.  The first character
never is the end. -/
def inside? : List Char → Option (List Char × List Char)
  | [] => none
  | c :: rest =>
    match rest.dropWhile (· != ']') with
    | [] => none
    | _ :: after => some (c :: rest.takeWhile (· != ']'), after)

/-- The set of a bracket expression whose opening bracket has been read, and what follows it. -/
def bracket? (text : List Char) : Option (CharSet × List Char) :=
  (inside? (negation text).2).map (fun found => (⟨(negation text).1, ranges found.1⟩, found.2))

theorem length_negation_le (text : List Char) : (negation text).2.length ≤ text.length := by
  unfold negation
  split
  · exact Nat.le_succ _
  · exact Nat.le_succ _
  · exact Nat.le_refl _

theorem length_inside?_lt {text inner rest : List Char} (h : inside? text = some (inner, rest)) :
    rest.length < text.length := by
  cases text with
  | nil => simp [inside?] at h
  | cons c tail =>
    have hle : (tail.dropWhile (· != ']')).length ≤ tail.length :=
      (List.dropWhile_sublist _).length_le
    rw [inside?] at h
    split at h
    · simp at h
    · rename_i b after heq
      simp only [Option.some.injEq, Prod.mk.injEq] at h
      rw [heq, List.length_cons] at hle
      rw [← h.2, List.length_cons]
      omega

/-- What follows a bracket expression is shorter than what follows its opening bracket. -/
theorem length_bracket?_lt {text rest : List Char} {set : CharSet}
    (h : bracket? text = some (set, rest)) : rest.length < text.length := by
  simp only [bracket?, Option.map_eq_some_iff, Prod.exists, Prod.mk.injEq] at h
  obtain ⟨inner, after, hi, -, rfl⟩ := h
  exact Nat.lt_of_lt_of_le (length_inside?_lt hi) (length_negation_le text)

/-- The shape that a glob describes. -/
def shape : List Char → Except GlobFlaw Shape
  | [] => .ok .empty
  | '\\' :: [] => .error .danglingEscape
  | '\\' :: c :: rest => (shape rest).map (.followed (.char c))
  | '*' :: rest => (shape rest).map (.followed (.many notSlash))
  | '?' :: rest => (shape rest).map (.followed (.one notSlash))
  | '[' :: rest =>
    match _h : bracket? rest with
    | none => .error .unclosed
    | some (set, after) => (shape after).map (.followed (.one set))
  | c :: rest => (shape rest).map (.followed (.char c))
termination_by text => text.length
decreasing_by
  all_goals first
    | exact Nat.lt_succ_of_lt (length_bracket?_lt _h)
    | (simp only [List.length_cons]; omega)

end Glob

end SourceIndex.Ignore
