import SourceIndex.Path

/-!
# Places and their names

A location is *proper* if each of its components can be the name of a file.  **The text of a proper
location leads back to it** (`parse_text`, `isNormal_text`): it does not matter from where it is seen.
So different proper locations have different texts (`text_injective`), and files can be told apart by
their texts.

Locations are listed in the order of their components, as lists are ordered (`precedes_iff`).
-/

namespace SourceIndex

/-- Whether a component can be the name of a file: it says something, leads down, and holds neither a
slash nor a null character. -/
def Path.isName (part : String) : Bool :=
  isPart part.toList && part != ".." && !part.toList.contains '/' && !part.toList.contains '\x00'

/-- Every component can be the name of a file. -/
def Location.Proper (here : Location) : Prop :=
  ∀ part ∈ here, Path.isName part = true

/-- Every component is a name, or leads up. -/
def Path.Proper (p : Path) : Prop :=
  ∀ part ∈ p.parts, part ≠ ".." → isName part = true

instance (here : Location) : Decidable here.Proper :=
  inferInstanceAs (Decidable (∀ part ∈ here, Path.isName part = true))

instance (p : Path) : Decidable p.Proper :=
  inferInstanceAs (Decidable (∀ part ∈ p.parts, part ≠ ".." → Path.isName part = true))

/-- A text that names its place word for word, whatever directory it is seen from: it is absolute,
and no component of it leads up or says nothing. -/
def Path.IsNormal (text : String) : Prop :=
  ∀ base : Location, ((Path.parse text).resolve base).text = text

theorem Path.isName_iff {part : String} :
    isName part = true ↔
      isPart part.toList = true ∧ part ≠ ".." ∧ '/' ∉ part.toList ∧ '\x00' ∉ part.toList := by
  simp [isName, and_assoc]

/-! ## From a text to a location -/

theorem not_mem_of_mem_splitOn {c : Char} {text piece : List Char} (h : piece ∈ text.splitOn c) :
    c ∉ piece := by
  induction text generalizing piece with
  | nil =>
    rw [List.splitOn_nil, List.mem_singleton] at h
    simp [h]
  | cons d rest ih =>
    rw [List.splitOn_cons_eq_if_modifyHead] at h
    split at h
    · rcases List.mem_cons.mp h with rfl | h
      · simp
      · exact ih h
    · next hd =>
      cases hs : rest.splitOn c with
      | nil => exact absurd hs (List.splitOn_ne_nil c rest)
      | cons first others =>
        rw [hs, List.modifyHead_cons] at h
        rcases List.mem_cons.mp h with rfl | h
        · have hf : c ∉ first := ih (by simp [hs])
          simp only [beq_iff_eq] at hd
          simp only [List.mem_cons, not_or]
          exact ⟨fun he => hd he.symm, hf⟩
        · exact ih (by simp [hs, h])

theorem Path.proper_parse {text : String} (h : (Path.parse text).holdsNull = false) :
    (Path.parse text).Proper := by
  intro part hpart hup
  have hnull : '\x00' ∉ part.toList := by
    have hnone := List.any_eq_false.mp h part hpart
    simpa using hnone
  obtain ⟨piece, hp, rfl⟩ := List.mem_map.mp hpart
  obtain ⟨hs, hpart⟩ := List.mem_filter.mp hp
  rw [isName_iff]
  rw [String.toList_ofList] at hnull ⊢
  exact ⟨hpart, hup, not_mem_of_mem_splitOn hs, hnull⟩

theorem proper_nil : Location.Proper [] := by
  intro part h
  cases h

theorem proper_step {here : Location} {part : String} (h : here.Proper)
    (hp : part ≠ ".." → Path.isName part = true) : (Path.step here part).Proper := by
  unfold Path.step
  split
  · exact fun name hn => h name ((List.dropLast_sublist here).subset hn)
  · next hne =>
    intro name hn
    rcases List.mem_append.mp hn with hn | hn
    · exact h name hn
    · rw [List.mem_singleton.mp hn]
      exact hp (by simpa using hne)

theorem proper_start {base : Location} (h : base.Proper) (p : Path) : (p.start base).Proper := by
  unfold Path.start
  split
  · exact proper_nil
  · exact h

theorem holdsNull_path {here : Location} (h : here.Proper) : here.path.holdsNull = false := by
  refine List.any_eq_false.mpr ?_
  intro part hp
  have hnull := (Path.isName_iff.mp (h part hp)).2.2.2
  simpa using hnull

/-! ## From a location to its text and back -/

theorem components_joined {here : Location} (h : here.Proper) :
    Path.components ('/' :: Path.joined here) = here := by
  -- The leading slash splits off an empty piece, which is no component.
  have hsplit : ('/' :: Path.joined here).splitOn '/' = [] :: (Path.joined here).splitOn '/' := by
    rw [List.splitOn_cons_eq_if_modifyHead, if_pos (by simp)]
  rw [Path.components, hsplit, List.filter_cons_of_neg (by simp [Path.isPart])]
  cases here with
  | nil => simp [Path.joined, Path.isPart]
  | cons part rest =>
    have hslash : ∀ name ∈ (part :: rest).map String.toList, '/' ∉ name := by
      intro name hn
      obtain ⟨p, hp, rfl⟩ := List.mem_map.mp hn
      exact (Path.isName_iff.mp (h p hp)).2.2.1
    have hpart : ∀ name ∈ (part :: rest).map String.toList, Path.isPart name = true := by
      intro name hn
      obtain ⟨p, hp, rfl⟩ := List.mem_map.mp hn
      exact (Path.isName_iff.mp (h p hp)).1
    rw [Path.joined, List.splitOn_intercalate '/' hslash (by simp),
      List.filter_eq_self.mpr hpart, List.map_map]
    simp

/-- **The text of a proper location is read as the path to it.** -/
theorem parse_text {here : Location} (h : here.Proper) : Path.parse here.text = here.path := by
  have htext : here.text.toList = '/' :: Path.joined here := by
    simp [Location.text, Location.path, Path.text]
  rw [Path.parse, htext, components_joined h]
  rfl

theorem foldl_step_of_proper {here : Location} (h : here.Proper) (start : Location) :
    here.foldl Path.step start = start ++ here := by
  induction here generalizing start with
  | nil => simp
  | cons part rest ih =>
    have hup : part ≠ ".." := (Path.isName_iff.mp (h part (by simp))).2.1
    rw [List.foldl_cons, Path.step, if_neg (by simpa using hup),
      ih (fun name hn => h name (by simp [hn]))]
    simp

theorem isNormal_text {here : Location} (h : here.Proper) : Path.IsNormal here.text := by
  intro base
  rw [parse_text h, Path.resolve, Location.path, Path.start, if_pos rfl, foldl_step_of_proper h,
    List.nil_append]

theorem Path.IsNormal.head? {text : String} (h : Path.IsNormal text) :
    text.toList.head? = some '/' := by
  rw [← h []]
  simp [Location.text, Location.path, Path.text]

theorem text_injective {here there : Location} (h : here.Proper) (ht : there.Proper)
    (he : here.text = there.text) : here = there := by
  have hp : here.path = there.path := by rw [← parse_text h, he, parse_text ht]
  exact congrArg Path.parts hp

theorem length_joined_lt (here : Location) {part : String} (h : part ≠ "") :
    (Path.joined here).length < (Path.joined (here ++ [part])).length := by
  have hpart : 0 < part.toList.length := by
    refine List.length_pos_iff.mpr ?_
    simpa using h
  induction here with
  | nil => simpa [Path.joined, List.intercalate] using hpart
  | cons first rest ih =>
    cases rest with
    | nil => simp [Path.joined, List.intercalate]
    | cons second others =>
      simp [Path.joined, List.intercalate] at ih ⊢
      omega

/-- What is in a directory has another text than the directory. -/
theorem text_concat_ne (here : Location) {part : String} (h : part ≠ "") :
    Location.text (here ++ [part]) ≠ here.text := by
  intro he
  have hlt := length_joined_lt here h
  have hjoined : Path.joined (here ++ [part]) = Path.joined here := by
    simpa [Location.text, Location.path, Path.text] using congrArg String.toList he
  rw [hjoined] at hlt
  omega

/-! ## The order of locations -/

/-- Locations are compared as lists of components. -/
theorem precedes_iff {here there : Location} : here.precedes there = true ↔ ¬ there < here := by
  fun_induction Location.precedes here there with
  | case1 there => exact iff_of_true rfl (List.not_lt_nil there)
  | case2 part rest =>
    exact iff_of_false Bool.false_ne_true (fun h => h (List.nil_lt_cons part rest))
  | case3 here part there ih =>
    rw [ih, List.cons_lt_cons_iff]
    simp only [String.lt_irrefl, true_and, false_or]
  | case4 part here other there hne =>
    -- The first components differ, and what comes after them does not count.
    rw [List.cons_lt_cons_iff, decide_eq_true_iff]
    have hother : ¬ other = part := fun h => hne h.symm
    simp only [hother, false_and, or_false]
    exact ⟨fun hlt hgt => String.lt_asymm hlt hgt,
      fun hle => String.not_le.mp (fun hge => hne (String.le_antisymm hle hge))⟩

end SourceIndex
