import Mathlib.Algebra.BigOperators.Group.List.Lemmas
import Mathlib.Algebra.Ring.Nat
import SourceIndex.Proofs.CodeIndex.History

/-!
# Looking functions up by name

Two look-ups go by the name of a function: one for the first file that has it, which stops at a hit,
and one for all its locations, which goes through the whole index.  A third number, the total, is
kept without looking at all.

A function stands at a *place*: the number of its file in the index, and its own number in the file.
**The locations of a name are the functions of that name in the order of their places, each once**
(`tells_locations`), the first file is that of the first location (`owner?_of_locations`), and
the locations of all names together are as many as the total says (`lookUps_agree`).
-/

namespace SourceIndex.CodeIndex

variable {x : CodeIndex} {name path : String} {f : FunctionInfo}

/-! ## Places -/

/-- The number of a file in an index, and the number of a function in the file. -/
structure Place where
  file : Nat
  function : Nat
deriving DecidableEq

/-- Files come before functions. -/
def Place.Before (a b : Place) : Prop :=
  a.file < b.file ∨ a.file = b.file ∧ a.function < b.function

/-- At a place of the index stands a function of the file with the path. -/
def HasAt (x : CodeIndex) (place : Place) (location : String × FunctionInfo) : Prop :=
  ∃ o, x.files.entries[place.file]? = some (location.1, o) ∧
    o.functions[place.function]? = some location.2

/-- All functions with their places. -/
def placed (x : CodeIndex) : List (Place × String × FunctionInfo) :=
  x.files.entries.zipIdx.flatMap (fun e =>
    e.1.2.functions.zipIdx.map (fun f => (⟨e.2, f.2⟩, e.1.1, f.1)))

theorem map_snd_placed (x : CodeIndex) : x.placed.map Prod.snd = x.functions := by
  have hfile (e : String × Outline) (i : Nat) :
      (e.2.functions.zipIdx.map (fun f => ((⟨i, f.2⟩ : Place), e.1, f.1))).map Prod.snd
        = e.2.functions.map (e.1, ·) := by
    rw [List.map_map]
    conv_rhs => rw [← List.zipIdx_map_fst 0 e.2.functions, List.map_map]
    rfl
  rw [placed, List.map_flatMap, functions]
  simp only [hfile]
  conv_rhs => rw [← List.zipIdx_map_fst 0 x.files.entries, List.flatMap_map]

theorem mem_placed_iff {place : Place} {location : String × FunctionInfo} :
    (place, location) ∈ x.placed ↔ x.HasAt place location := by
  obtain ⟨path, f⟩ := location
  rw [placed, List.mem_flatMap]
  constructor
  · rintro ⟨⟨⟨there, o⟩, i⟩, he, hf⟩
    obtain ⟨⟨g, j⟩, hg, heq⟩ := List.mem_map.mp hf
    obtain ⟨rfl, hloc⟩ := Prod.mk.inj heq
    obtain ⟨rfl, rfl⟩ := Prod.mk.inj hloc
    exact ⟨o, List.mem_zipIdx_iff_getElem?.mp he, List.mem_zipIdx_iff_getElem?.mp hg⟩
  · rintro ⟨o, he, hf⟩
    exact ⟨((path, o), place.file), List.mem_zipIdx_iff_getElem?.mpr he,
      List.mem_map.mpr ⟨(f, place.function), List.mem_zipIdx_iff_getElem?.mpr hf, rfl⟩⟩

theorem pairwise_zipIdx {α : Type} (l : List α) : l.zipIdx.Pairwise (fun a b => a.2 < b.2) := by
  refine List.pairwise_map.mp ?_
  rw [List.zipIdx_map_snd]
  exact List.pairwise_lt_range'

theorem pairwise_placed (x : CodeIndex) : x.placed.Pairwise (fun a b => a.1.Before b.1) := by
  rw [placed, List.pairwise_flatMap]
  constructor
  · rintro ⟨e, i⟩ -
    refine List.pairwise_map.mpr ((pairwise_zipIdx e.2.functions).imp ?_)
    intro a b hlt
    exact Or.inr ⟨rfl, hlt⟩
  · refine (pairwise_zipIdx x.files.entries).imp ?_
    intro a b hlt c hc d hd
    obtain ⟨f, -, rfl⟩ := List.mem_map.mp hc
    obtain ⟨g, -, rfl⟩ := List.mem_map.mp hd
    exact Or.inl hlt

/-! ## All locations of a name -/

/-- A list of locations tells where the functions of a name stand: all of them, each once, in the
order of their places. -/
def Tells (x : CodeIndex) (name : String) (locations : List (String × FunctionInfo)) : Prop :=
  ∃ found : List (Place × String × FunctionInfo), found.map Prod.snd = locations ∧
    found.Pairwise (fun a b => a.1.Before b.1) ∧
    ∀ place location, (place, location) ∈ found ↔
      x.HasAt place location ∧ location.2.name = name

theorem tells_locations (x : CodeIndex) (name : String) : x.Tells name (x.locations name) := by
  refine ⟨x.placed.filter (fun e => e.2.2.name == name), ?_, x.pairwise_placed.filter _, ?_⟩
  · rw [locations, ← map_snd_placed, List.filter_map]
    rfl
  · intro place location
    rw [List.mem_filter, mem_placed_iff, beq_iff_eq]

/-! ## The first file -/

/-- The locations of a name in one file. -/
def ownLocations (name : String) (e : String × Outline) : List (String × FunctionInfo) :=
  (e.2.functions.filter (fun f => f.name == name)).map (e.1, ·)

theorem locations_eq_flatMap (x : CodeIndex) (name : String) :
    x.locations name = x.files.entries.flatMap (ownLocations name) := by
  rw [locations, functions, List.filter_flatMap]
  simp only [List.filter_map]
  rfl

theorem ownLocations_eq_nil_iff {e : String × Outline} :
    ownLocations name e = [] ↔ e.2.functions.any (fun f => f.name == name) = false := by
  simp [ownLocations, List.filter_eq_nil_iff]

theorem owner?_eq (x : CodeIndex) (name : String) :
    x.owner? name = (x.files.entries.find?
      (fun e => e.2.functions.any (fun f => f.name == name))).map Prod.snd := by
  rw [owner?, OrderedMap.values, List.find?_map]
  rfl

theorem owner?_eq_none_iff : x.owner? name = none ↔ x.locations name = [] := by
  rw [owner?_eq, locations_eq_flatMap, Option.map_eq_none_iff, List.find?_eq_none,
    List.flatMap_eq_nil_iff]
  simp only [ownLocations_eq_nil_iff, Bool.not_eq_true]

/-- The first file with a function of a name is the file of the first location. -/
theorem owner?_of_locations {rest : List (String × FunctionInfo)}
    (h : x.locations name = (path, f) :: rest) :
    ∃ o, x.owner? name = some o ∧ x.get? path = some o := by
  rw [owner?_eq]
  cases hfind : x.files.entries.find?
      (fun e => e.2.functions.any (fun f => f.name == name)) with
  | none =>
    have hnil := owner?_eq_none_iff.mp ((x.owner?_eq name).trans (by rw [hfind]; rfl))
    rw [hnil] at h
    cases h
  | some e =>
    obtain ⟨hany, before, after, hsplit, hbefore⟩ := List.find?_eq_some_iff_append.mp hfind
    -- The files before it have no location, and it has one.
    have hnone : before.flatMap (ownLocations name) = [] := by
      refine List.flatMap_eq_nil_iff.mpr ?_
      intro e' he'
      exact ownLocations_eq_nil_iff.mpr (by simpa using hbefore e' he')
    have hown : ownLocations name e ≠ [] := by
      intro hnil
      rw [ownLocations_eq_nil_iff.mp hnil] at hany
      cases hany
    obtain ⟨first, others, hfirst⟩ := List.exists_cons_of_ne_nil hown
    have hmem : first ∈ ownLocations name e := by
      rw [hfirst]
      exact List.mem_cons_self
    rw [locations_eq_flatMap, hsplit, List.flatMap_append, List.flatMap_cons, hnone, hfirst] at h
    obtain rfl : first = (path, f) := (List.cons.inj h).1
    obtain ⟨g, -, heq⟩ := List.mem_map.mp hmem
    have hpath : e.1 = path := congrArg Prod.fst heq
    refine ⟨e.2, rfl, OrderedMap.mem_entries_iff.mp ?_⟩
    rw [← hpath, hsplit]
    exact List.mem_append_right before List.mem_cons_self

/-! ## The names of all functions -/

/-- The names of the functions of an index, each once. -/
def functionNames (x : CodeIndex) : List String :=
  (x.functions.map (fun f => f.2.name)).dedup

theorem mem_functionNames_iff :
    name ∈ x.functionNames ↔
      ∃ path o, x.get? path = some o ∧ ∃ f ∈ o.functions, f.name = name := by
  rw [functionNames, List.mem_dedup, functions, List.map_flatMap, List.mem_flatMap]
  constructor
  · rintro ⟨⟨path, o⟩, he, hname⟩
    rw [List.map_map] at hname
    exact ⟨path, o, OrderedMap.mem_entries_iff.mp he, List.mem_map.mp hname⟩
  · rintro ⟨path, o, ho, hname⟩
    refine ⟨(path, o), OrderedMap.mem_entries_iff.mpr ho, ?_⟩
    rw [List.map_map]
    exact List.mem_map.mpr hname

theorem length_functions (x : CodeIndex) :
    x.functions.length = x.files.total (fun o => o.functions.length) := by
  rw [functions, OrderedMap.total, OrderedMap.values]
  induction x.files.entries with
  | nil => rfl
  | cons e rest ih =>
    rw [List.flatMap_cons, List.length_append, List.length_map, ih]
    rfl

theorem length_locations (x : CodeIndex) (name : String) :
    (x.locations name).length = (x.functions.map (fun f => f.2.name)).count name := by
  rw [locations, List.count_eq_countP, List.countP_map, List.countP_eq_length_filter]
  rfl

/-- The locations of all names are as many as there are functions. -/
theorem sum_length_locations (x : CodeIndex) :
    (x.functionNames.map (fun name => (x.locations name).length)).sum = x.functions.length := by
  simp only [length_locations, functionNames, List.sum_map_count_dedup_eq_length, List.length_map]

/-- **The look-ups by name and the total agree**, whatever was added and removed.  There is a first
file exactly if there is a location, and it is the file of the first location; the locations tell
where all functions of the name stand; and the locations of all names are as many as the total says.
-/
theorem lookUps_agree (history : List Change) :
    (∀ name, ((empty.run history).owner? name = none ↔ (empty.run history).locations name = []) ∧
        (∀ path f rest, (empty.run history).locations name = (path, f) :: rest →
          ∃ o, (empty.run history).owner? name = some o ∧
            (empty.run history).get? path = some o) ∧
        (empty.run history).Tells name ((empty.run history).locations name)) ∧
      (empty.run history).functionNames.Nodup ∧
      (∀ name, name ∈ (empty.run history).functionNames ↔
        ∃ path o, (empty.run history).get? path = some o ∧ ∃ f ∈ o.functions, f.name = name) ∧
      (((empty.run history).functionNames.map
          (fun name => ((empty.run history).locations name).length)).sum : Int)
        = (empty.run history).totalFunctions := by
  have hbalanced := (determinedBy_empty.run history).balanced
  generalize empty.run history = x at hbalanced ⊢
  refine ⟨?_, List.nodup_dedup _, fun name => mem_functionNames_iff, ?_⟩
  · intro name
    exact ⟨owner?_eq_none_iff, fun path f rest h => owner?_of_locations h, x.tells_locations name⟩
  · rw [sum_length_locations, length_functions, hbalanced.functions]

/-- A function of which only the name matters. -/
def bareFunction (name : String) : FunctionInfo :=
  ⟨name, name, [], "void", 1, 1, "package", 1⟩

/-- An outline with functions of the given names. -/
def withFunctions (names : List String) : Outline :=
  { fileName := "", language := "python", functions := names.map bareFunction }

/-- A name occurs in two files, twice in one of them; the other file is added anew at the end. -/
def overloaded : List Change :=
  [.add "/a" (withFunctions ["f"]), .add "/b" (withFunctions ["g", "f", "f"]),
    .add "/a" (withFunctions ["h", "f"])]

/-- The first file is now the second, and each occurrence is counted once. -/
theorem lookUps_agree_overloaded :
    (empty.run overloaded).locations "f"
        = [("/b", bareFunction "f"), ("/b", bareFunction "f"), ("/a", bareFunction "f")] ∧
      (∃ o, (empty.run overloaded).owner? "f" = some o ∧
        (empty.run overloaded).get? "/b" = some o) ∧
      (((empty.run overloaded).functionNames.map
          (fun name => ((empty.run overloaded).locations name).length)).sum : Int) = 5 := by
  obtain ⟨hnames, -, -, htotal⟩ := lookUps_agree overloaded
  have hlocations : (empty.run overloaded).locations "f"
      = [("/b", bareFunction "f"), ("/b", bareFunction "f"), ("/a", bareFunction "f")] := by
    decide +kernel
  refine ⟨hlocations, (hnames "f").2.1 "/b" (bareFunction "f") _ hlocations, htotal.trans ?_⟩
  decide +kernel

end SourceIndex.CodeIndex
