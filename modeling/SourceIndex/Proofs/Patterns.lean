import SourceIndex.Patterns

/-!
# What a list of patterns comes to

An invalid line is dropped from a list of patterns, with a report; a malformed one breaks the list
off.  **A list fails exactly for its first malformed line, and otherwise comes to what the kept lines
come to** (`value_compileUsable`), whether it is compiled at once or in the second attempt.  So the
lines that are dropped have no say in the others (`value_compileUsable_of_kept`): the last of the kept
lines that says something about a path decides (`ignores_iff_lastWord`).

The reports are one for each dropped line, in the order of the lines (`events_compileUsable`).
-/

namespace SourceIndex.PatternEngine

variable [PatternEngine] {origin line : String} {lines others : List String} {spec : Spec}

/-! ## One line -/

/-- Why a line is dropped, if it is invalid. -/
def rejection? (line : String) : Option String :=
  match compile [line] with
  | .error (.invalid reason) => some reason
  | _ => none

/-- What a list with the line breaks off for, if the line is malformed. -/
def flaw? (line : String) : Option PatternError :=
  match compile [line] with
  | .error (.malformed reason) => some (.malformed reason)
  | _ => none

theorem rejection?_eq_some {reason : String} :
    rejection? line = some reason ↔ compile [line] = .error (.invalid reason) := by
  unfold rejection?
  split
  · next found h => simp [h]
  · next h => simpa using h reason

theorem flaw?_eq_some {error : PatternError} :
    flaw? line = some error ↔
      ∃ reason, error = .malformed reason ∧ compile [line] = .error (.malformed reason) := by
  unfold flaw?
  split
  · next found h =>
    rw [Option.some.injEq]
    constructor
    · rintro rfl
      exact ⟨found, rfl, h⟩
    · rintro ⟨reason, rfl, hreason⟩
      exact Except.error.inj (h.symm.trans hreason)
  · next h =>
    simp only [reduceCtorEq, false_iff]
    rintro ⟨reason, -, hreason⟩
    exact h reason hreason

theorem rejection?_of_ok (h : compile [line] = .ok spec) : rejection? line = none := by
  rw [rejection?, h]

theorem flaw?_of_ok (h : compile [line] = .ok spec) : flaw? line = none := by
  rw [flaw?, h]

/-- A line that is neither dropped nor malformed compiles. -/
theorem exists_of_none (hr : rejection? line = none) (hf : flaw? line = none) :
    ∃ spec, compile [line] = .ok spec := by
  cases h : compile [line] with
  | ok spec => exact ⟨spec, rfl⟩
  | error e =>
    cases e with
    | invalid reason =>
      rw [rejection?_eq_some.mpr h] at hr
      cases hr
    | malformed reason =>
      rw [flaw?_eq_some.mpr ⟨reason, rfl, h⟩] at hf
      cases hf

/-! ## The lines that are kept -/

/-- The lines that are not dropped. -/
def kept (lines : List String) : List String :=
  lines.filter (fun line => (rejection? line).isNone)

theorem kept_cons_of_none (h : rejection? line = none) (rest : List String) :
    kept (line :: rest) = line :: kept rest :=
  List.filter_cons_of_pos (by simp [h])

theorem kept_cons_of_some {reason : String} (h : rejection? line = some reason)
    (rest : List String) : kept (line :: rest) = kept rest :=
  List.filter_cons_of_neg (by simp [h])

/-- No malformed line is dropped. -/
theorem findSome?_flaw?_kept (lines : List String) :
    (kept lines).findSome? flaw? = lines.findSome? flaw? := by
  induction lines with
  | nil => rfl
  | cons line rest ih =>
    cases hr : rejection? line with
    | none => rw [kept_cons_of_none hr, List.findSome?_cons, List.findSome?_cons, ih]
    | some reason =>
      have hflaw : flaw? line = none := by simp [flaw?, rejection?_eq_some.mp hr]
      rw [kept_cons_of_some hr, List.findSome?_cons, hflaw, ih]

/-- If each line compiles by itself, all lines are kept and none is malformed. -/
theorem kept_of_ok (h : ∀ line ∈ lines, ∃ spec, compile [line] = .ok spec) :
    kept lines = lines ∧ lines.findSome? flaw? = none := by
  constructor
  · refine List.filter_eq_self.mpr ?_
    intro line hl
    obtain ⟨spec, hspec⟩ := h line hl
    simp [rejection?_of_ok hspec]
  · refine List.findSome?_eq_none_iff.mpr ?_
    intro line hl
    obtain ⟨spec, hspec⟩ := h line hl
    exact flaw?_of_ok hspec

/-- Lines that compile one by one compile together. -/
theorem exists_compile_of_ok (h : ∀ line ∈ lines, ∃ spec, compile [line] = .ok spec) :
    ∃ spec, compile lines = .ok spec := by
  cases hlines : compile lines with
  | ok spec => exact ⟨spec, rfl⟩
  | error e =>
    obtain ⟨before, line, after, rfl, hline, -⟩ := exists_of_error hlines
    obtain ⟨spec, hspec⟩ := h line (by simp)
    rw [hspec] at hline
    cases hline

theorem exists_compile_kept (h : ∀ line ∈ lines, flaw? line = none) :
    ∃ spec, compile (kept lines) = .ok spec := by
  refine exists_compile_of_ok ?_
  intro line hl
  obtain ⟨hmem, hkept⟩ := List.mem_filter.mp hl
  exact exists_of_none (by simpa using hkept) (h line hmem)

/-! ## What a list comes to -/

/-- The second attempt breaks off at the first malformed line, and otherwise drops what is invalid. -/
theorem value_usable (origin : String) (lines : List String) :
    (usable origin lines).value = match lines.findSome? flaw? with
      | some e => .error e
      | none => .ok (kept lines) := by
  induction lines with
  | nil => rfl
  | cons line rest ih =>
    rw [usable]
    split
    · next reason h => rw [List.findSome?_cons, flaw?_eq_some.mpr ⟨reason, rfl, h⟩]; rfl
    · next reason h =>
      have hflaw : flaw? line = none := by simp [flaw?, h]
      rw [List.findSome?_cons, hflaw, kept_cons_of_some (rejection?_eq_some.mpr h)]
      exact ih
    · next spec h =>
      rw [List.findSome?_cons, flaw?_of_ok h, kept_cons_of_none (rejection?_of_ok h)]
      simp only [Traced.value_bind, Traced.value_pure, ih]
      cases rest.findSome? flaw? <;> rfl

/-- **A list fails for its first malformed line, and otherwise comes to what its kept lines come
to.** -/
theorem value_compileUsable (origin : String) (lines : List String) :
    (compileUsable origin lines).value = match lines.findSome? flaw? with
      | some e => .error e
      | none => compile (kept lines) := by
  unfold compileUsable
  split
  · next spec h =>
    obtain ⟨hkept, hflaw⟩ := kept_of_ok (exists_of_ok h)
    rw [hflaw, hkept]
    exact h.symm
  · next reason h =>
    obtain ⟨before, line, after, rfl, hline, hbefore⟩ := exists_of_error h
    rw [List.findSome?_append, (kept_of_ok hbefore).2, Option.none_or, List.findSome?_cons,
      flaw?_eq_some.mpr ⟨reason, rfl, hline⟩]
    rfl
  · rw [Traced.value_bind, value_usable]
    cases lines.findSome? flaw? <;> rfl

theorem value_compileUsable_eq_error {e : PatternError} :
    (compileUsable origin lines).value = .error e ↔ lines.findSome? flaw? = some e := by
  rw [value_compileUsable]
  cases h : lines.findSome? flaw? with
  | some found => simp
  | none =>
    obtain ⟨spec, hspec⟩ := exists_compile_kept (List.findSome?_eq_none_iff.mp h)
    simp [hspec]

theorem value_compileUsable_of_sound (origin : String) (h : ∀ line ∈ lines, flaw? line = none) :
    (compileUsable origin lines).value = compile (kept lines) := by
  rw [value_compileUsable, List.findSome?_eq_none_iff.mpr h]

/-- **The kept lines decide what a list comes to**, wherever it stands. -/
theorem value_compileUsable_of_kept (h : kept lines = kept others) (origin place : String) :
    (compileUsable origin lines).value = (compileUsable place others).value := by
  rw [value_compileUsable, value_compileUsable, ← findSome?_flaw?_kept, h, findSome?_flaw?_kept]

/-! ## Which line decides -/

/-- The last line that says something about a path says whether it is ignored. -/
def LastWord (lines : List String) (path : List Char) (ignored : Bool) : Prop :=
  ∃ before line after, lines = before ++ line :: after ∧ tells line path = some ignored ∧
    ∀ other ∈ after, tells other path = none

theorem lastWord_iff {path : List Char} {ignored : Bool} :
    LastWord lines path ignored ↔ lines.reverse.findSome? (tells · path) = some ignored := by
  rw [List.findSome?_eq_some_iff]
  constructor
  · rintro ⟨before, line, after, rfl, hline, hafter⟩
    refine ⟨after.reverse, line, before.reverse, by simp, hline, ?_⟩
    exact fun other ho => hafter other (List.mem_reverse.mp ho)
  · rintro ⟨after, line, before, hsplit, hline, hafter⟩
    refine ⟨before.reverse, line, after.reverse, ?_, hline, ?_⟩
    · rw [← List.reverse_reverse lines, hsplit]
      simp
    · exact fun other ho => hafter other (List.mem_reverse.mp ho)

/-- **A path is ignored exactly if the last line that says something about it says so.** -/
theorem ignores_iff_lastWord (h : compile lines = .ok spec) (path : List Char) :
    ignores spec path = true ↔ LastWord lines path true := by
  rw [ignores_eq h, lastWord_iff]
  cases lines.reverse.findSome? (tells · path) <;> simp

/-- Whether the last of the kept lines that says something about a path says that it is ignored. -/
def ignoredBy (lines : List String) (path : List Char) : Bool :=
  ((kept lines).reverse.findSome? (tells · path)).getD false

/-- A list without malformed lines comes to what its kept lines say. -/
theorem exists_compileUsable (origin : String) (h : ∀ line ∈ lines, flaw? line = none) :
    ∃ spec, (compileUsable origin lines).value = .ok spec ∧
      ∀ path, ignores spec path = ignoredBy lines path := by
  obtain ⟨spec, hspec⟩ := exists_compile_kept h
  exact ⟨spec, (value_compileUsable_of_sound origin h).trans hspec, ignores_eq hspec⟩

/-! ## What is reported -/

/-- The message about a dropped line. -/
def dropMessage (origin line reason : String) : Message :=
  ⟨.warning, .discovery,
    "Ignoring invalid pattern " ++ Text.quote line ++ " in " ++ origin ++ ": " ++ reason⟩

/-- The messages about the dropped lines. -/
def dropMessages (origin : String) (lines : List String) : List Message :=
  lines.filterMap (fun line => (rejection? line).map (dropMessage origin line))

theorem dropMessages_of_ok (h : ∀ line ∈ lines, ∃ spec, compile [line] = .ok spec) :
    dropMessages origin lines = [] := by
  refine List.filterMap_eq_nil_iff.mpr ?_
  intro line hl
  obtain ⟨spec, hspec⟩ := h line hl
  rw [rejection?_of_ok hspec]
  rfl

theorem events_usable (origin : String) (h : ∀ line ∈ lines, flaw? line = none) :
    (usable origin lines).events = (dropMessages origin lines).map .log := by
  induction lines with
  | nil => rfl
  | cons line rest ih =>
    have hrest := ih (fun other ho => h other (List.mem_cons_of_mem line ho))
    rw [usable, dropMessages, List.filterMap_cons]
    split
    · next reason hline =>
      have hflaw := h line List.mem_cons_self
      rw [flaw?_eq_some.mpr ⟨reason, rfl, hline⟩] at hflaw
      cases hflaw
    · next reason hline =>
      rw [rejection?_eq_some.mpr hline, Traced.events_bind, hrest]
      rfl
    · next spec hline =>
      rw [rejection?_of_ok hline, Traced.events_bind, hrest, Traced.events_pure, List.append_nil]
      rfl

/-- **Each dropped line is reported once, in the order of the lines**, and nothing else is. -/
theorem events_compileUsable (origin : String) (h : ∀ line ∈ lines, flaw? line = none) :
    (compileUsable origin lines).events = (dropMessages origin lines).map .log := by
  unfold compileUsable
  split
  · next spec hok =>
    rw [dropMessages_of_ok (exists_of_ok hok)]
    rfl
  · next reason herr =>
    obtain ⟨before, line, after, rfl, hline, -⟩ := exists_of_error herr
    have hflaw := h line (by simp)
    rw [flaw?_eq_some.mpr ⟨reason, rfl, hline⟩] at hflaw
    cases hflaw
  · rw [Traced.events_bind, events_usable origin h, value_usable,
      List.findSome?_eq_none_iff.mpr h]
    simp

end SourceIndex.PatternEngine
