import SourceIndex.Ignore.Rule
import SourceIndex.Patterns

/-!
# Lists of ignore rules

**The last rule that matches a path decides** whether the path is ignored; a path that no rule
matches is not.  The first line that cannot be read decides what a list fails for.

With these rules lines are patterns: they are a pattern engine.
-/

namespace SourceIndex.Ignore

/-- Why a line cannot be used as a pattern. -/
def LineError.forPattern (line : String) : LineError → PatternError
  | .invalid => .invalid (invalidMessage line)
  | .reversedRange => .malformed ("bad character range in " ++ Text.quote line)

/-- What a rule says of a path: that it is ignored, that it is not, or nothing. -/
def Rule.tells (rule : Rule) (path : List Char) : Option Bool :=
  if rule.target.covers path then some !rule.negated else none

/-- What a line says of a path; a line that cannot be read says nothing. -/
def lineTells (line : String) (path : List Char) : Option Bool :=
  match Rule.parse line with
  | .ok (some rule) => rule.tells path
  | _ => none

/-- Rules in the order of their lines. -/
abbrev Rules := List Rule

namespace Rules

/-- Whether a path is ignored. -/
def ignores (rules : Rules) (path : List Char) : Bool :=
  (rules.reverse.findSome? (·.tells path)).getD false

/-- The rules of several lines; the first line that cannot be read decides. -/
def parse : List String → Except PatternError Rules
  | [] => .ok []
  | line :: rest =>
    match Rule.parse line with
    | .error e => .error (e.forPattern line)
    | .ok rule => (parse rest).map (rule.toList ++ ·)

/-! ## Rules as patterns -/

theorem parse_singleton_of_error {line : String} {e : LineError} (h : Rule.parse line = .error e) :
    parse [line] = .error (e.forPattern line) := by
  rw [parse, h]

theorem parse_singleton_of_ok {line : String} {rule : Option Rule}
    (h : Rule.parse line = .ok rule) : ∃ rules, parse [line] = .ok rules := by
  rw [parse, h]
  exact ⟨_, rfl⟩

theorem exists_of_parse_eq_error {lines : List String} {error : PatternError}
    (h : parse lines = .error error) :
    ∃ before line after, lines = before ++ line :: after ∧ parse [line] = .error error ∧
      ∀ other ∈ before, ∃ rules, parse [other] = .ok rules := by
  induction lines with
  | nil => cases h
  | cons first rest ih =>
    rw [parse] at h
    cases hfirst : Rule.parse first with
    | error e =>
      rw [hfirst] at h
      obtain rfl := Except.error.inj h
      exact ⟨[], first, rest, rfl, parse_singleton_of_error hfirst, by simp⟩
    | ok rule =>
      rw [hfirst] at h
      cases hrest : parse rest with
      | ok rules => rw [hrest] at h; cases h
      | error e =>
        rw [hrest] at h
        obtain rfl := Except.error.inj h
        obtain ⟨before, line, after, rfl, hline, hbefore⟩ := ih hrest
        refine ⟨first :: before, line, after, rfl, hline, ?_⟩
        intro other ho
        rcases List.mem_cons.mp ho with rfl | ho
        · exact parse_singleton_of_ok hfirst
        · exact hbefore other ho

/-- The rules of a list are those of its first line and those of the others. -/
theorem exists_of_parse_cons {line : String} {rest : List String} {rules : Rules}
    (h : parse (line :: rest) = .ok rules) :
    ∃ rule others, Rule.parse line = .ok rule ∧ parse rest = .ok others ∧
      rules = rule.toList ++ others := by
  rw [parse] at h
  cases hline : Rule.parse line with
  | error e => rw [hline] at h; cases h
  | ok rule =>
    rw [hline] at h
    cases hrest : parse rest with
    | error e => rw [hrest] at h; cases h
    | ok others =>
      rw [hrest] at h
      exact ⟨rule, others, rfl, rfl, (Except.ok.inj h).symm⟩

theorem exists_of_parse_eq_ok {lines : List String} {rules : Rules} (h : parse lines = .ok rules) :
    ∀ line ∈ lines, ∃ alone, parse [line] = .ok alone := by
  induction lines generalizing rules with
  | nil => simp
  | cons first rest ih =>
    obtain ⟨rule, others, hfirst, hrest, -⟩ := exists_of_parse_cons h
    intro line hl
    rcases List.mem_cons.mp hl with rfl | hl
    · exact parse_singleton_of_ok hfirst
    · exact ih hrest line hl

/-- Rules say what their lines say. -/
theorem ignores_of_parse_eq_ok {lines : List String} {rules : Rules} (h : parse lines = .ok rules)
    (path : List Char) :
    rules.ignores path = (lines.reverse.findSome? (lineTells · path)).getD false := by
  have hsays : rules.reverse.findSome? (·.tells path)
      = lines.reverse.findSome? (lineTells · path) := by
    induction lines generalizing rules with
    | nil =>
      obtain rfl := Except.ok.inj h
      rfl
    | cons line rest ih =>
      obtain ⟨rule, others, hline, hrest, rfl⟩ := exists_of_parse_cons h
      rw [List.reverse_append, List.findSome?_append, ih hrest, List.reverse_cons,
        List.findSome?_append]
      congr 1
      cases rule <;> simp [lineTells, hline]
  rw [ignores, hsays]

end Rules

/-- Ignore rules are a pattern engine. -/
instance : PatternEngine where
  Spec := Rules
  compile := Rules.parse
  ignores := Rules.ignores
  tells := lineTells
  exists_of_error := Rules.exists_of_parse_eq_error
  exists_of_ok := Rules.exists_of_parse_eq_ok
  ignores_eq := Rules.ignores_of_parse_eq_ok

end SourceIndex.Ignore
