import SourceIndex.Proofs.Session.Run
import SourceIndex.Proofs.Workspace.IndexFile

/-!
# Projects that have not been indexed

A look-up for a project without a workspace answers that the project has not been indexed.  A
workspace is opened by making its index, but also by asking for the function around a line.  So
**the answer is given exactly if neither has been asked for before** (`notIndexed_iff`), and it can
be missing though no index was ever made.

That the answer is given can be told from the text alone: no other answer of a look-up reads like
it (`findAnswer_ne_notIndexed`, `overviewAnswer_ne_notIndexed`).
-/

namespace SourceIndex

namespace Text

theorem exists_joinWith_cons (separator part : String) (rest : List String) :
    ∃ tail, joinWith separator (part :: rest) = part ++ tail := by
  cases rest with
  | nil => exact ⟨"", by rw [joinWith, String.append_empty]⟩
  | cons next others =>
    exact ⟨separator ++ joinWith separator (next :: others), by simp [joinWith, String.append_assoc]⟩

end Text

/-- Every place of a function is in a file that has an entry. -/
theorem CodeIndex.mem_keys_of_mem_locations {x : CodeIndex} {name : String}
    {place : String × FunctionInfo} (h : place ∈ x.locations name) : place.1 ∈ x.files.keys := by
  obtain ⟨hf, -⟩ := List.mem_filter.mp h
  obtain ⟨e, he, hm⟩ := List.mem_flatMap.mp hf
  obtain ⟨f, -, rfl⟩ := List.mem_map.mp hm
  exact OrderedMap.mem_keys_of_mem he

/-- Whether a request looks something up in the workspace of a project. -/
def Request.looksUp : Request → Bool
  | findFunction _ _ => true
  | workspaceOverview _ => true
  | _ => false

namespace Session

variable {pack : GrammarPack} {w : Workspace}

/-! ## How answers begin -/

theorem head?_notIndexed (root : String) : (notIndexed root).toList.head? = some 'W' := by
  simp [notIndexed]

theorem findAnswer_ne_notIndexed (name root : String)
    (hw : ∀ path ∈ w.index.files.keys, Path.IsNormal path) :
    findAnswer w name ≠ notIndexed root := by
  intro he
  have hhead := head?_notIndexed root
  rw [← he, findAnswer] at hhead
  split at hhead
  · simp at hhead
  · next hsome =>
    cases hplaces : w.index.locations name with
    | nil => exact hsome hplaces
    | cons place others =>
      -- The answer begins with the path of the first place, which is absolute.
      have hslash := (hw place.1 (CodeIndex.mem_keys_of_mem_locations
        (hplaces ▸ List.mem_cons_self))).head?
      obtain ⟨tail, ht⟩ := Text.exists_joinWith_cons "\n"
        (place.1 ++ ":" ++ Text.number place.2.lineStart ++ "–" ++ Text.number place.2.lineEnd)
        (("  signature:  " ++ place.2.signature) :: ("  complexity: "
          ++ Text.number place.2.complexity ++ "  visibility: " ++ place.2.visibility)
          :: others.flatMap locationLines)
      simp only [hplaces, List.flatMap_cons, locationLines, List.cons_append, List.nil_append, ht]
        at hhead
      simp [hslash] at hhead

theorem overviewAnswer_ne_notIndexed (root there : String) :
    overviewAnswer root w ≠ notIndexed there := by
  intro he
  simp only [overviewAnswer, List.cons_append] at he
  obtain ⟨tail, ht⟩ := Text.exists_joinWith_cons "\n" ("Workspace: " ++ root) _
  rw [ht] at he
  have hten := congrArg (fun s : String => s.toList.take 10) he
  simp [notIndexed] at hten

/-! ## When a project counts as not indexed -/

section

variable [PatternEngine]

/-- The workspaces of a session have entries for absolute paths only. -/
theorem isNormal_of_mem_keys {moments : List Moment} {root path : String}
    (hw : (reached pack moments).workspaces.get? root = some w)
    (hp : path ∈ w.index.files.keys) : Path.IsNormal path := by
  rw [get?_reached] at hw
  split at hw
  · obtain ⟨o, ho⟩ := (OrderedMap.mem_keys_iff _ _).mp hp
    rw [← Option.some.inj hw] at ho
    obtain ⟨_, -, -, ha⟩ := (Workspace.sound_reached ..).exists_of_get? ho
    exact ha.normal
  · cases hw

theorem respond_eq_notIndexed_iff (pack : GrammarPack) (moments : List Moment) (now : Moment)
    {here : Location} (hlook : now.request.looksUp = true)
    (hres : now.fs.resolve (Path.parse now.request.place) = .ok here) :
    ((reached pack moments).respond pack now).1 = .ok (notIndexed here.text) ↔
      (reached pack moments).workspaces.get? here.text = none := by
  have hkeys {w : Workspace} (hw : (reached pack moments).workspaces.get? here.text = some w) :
      ∀ path ∈ w.index.files.keys, Path.IsNormal path :=
    fun path hp => isNormal_of_mem_keys hw hp
  obtain ⟨fs, request⟩ := now
  cases request with
  | findFunction name project =>
    simp only [Request.place] at hres
    simp only [respond, answer, Traced.value_bind, Traced.value_pure, value_ofWorkspace, hres,
      Except.map, Except.ok.injEq]
    cases hw : (reached pack moments).workspaces.get? here.text with
    | none => simp
    | some w => simpa using findAnswer_ne_notIndexed name here.text (hkeys hw)
  | workspaceOverview project =>
    simp only [Request.place] at hres
    simp only [respond, answer, Traced.value_bind, Traced.value_pure, value_ofWorkspace, hres,
      Except.map, Except.ok.injEq]
    cases hw : (reached pack moments).workspaces.get? here.text with
    | none => simp
    | some w => simpa using overviewAnswer_ne_notIndexed here.text here.text
  | indexWorkspace path => cases hlook
  | analyzeFile path language => cases hlook
  | enclosingFunction path line project => cases hlook

/-- **A look-up answers that its project has not been indexed exactly if nothing has opened the
project before**: neither was its index to be made, nor was it the project of an accepted request
for the function around a line.  This tells the truth exactly if the index was to be made before, or
if no such request came before. -/
theorem notIndexed_iff (pack : GrammarPack) (moments : List Moment) (now : Moment)
    {here : Location} (hlook : now.request.looksUp = true)
    (hres : now.fs.resolve (Path.parse now.request.place) = .ok here) :
    (((reached pack moments).respond pack now).1 = .ok (notIndexed here.text) ↔
        ∀ m ∈ moments, m.indexes here.text = false ∧ m.asksEnclosing here.text = false) ∧
      ((((reached pack moments).respond pack now).1 = .ok (notIndexed here.text) ↔
          ∀ m ∈ moments, m.indexes here.text = false) ↔
        (∃ m ∈ moments, m.indexes here.text = true) ∨
          ∀ m ∈ moments, m.asksEnclosing here.text = false) := by
  have hexact : ((reached pack moments).respond pack now).1 = .ok (notIndexed here.text) ↔
      ∀ m ∈ moments, m.indexes here.text = false ∧ m.asksEnclosing here.text = false := by
    rw [respond_eq_notIndexed_iff pack moments now hlook hres, get?_reached]
    cases hany : moments.any (·.opens here.text) with
    | true =>
      obtain ⟨m, hm, ho⟩ := List.any_eq_true.mp hany
      simp only [if_true, reduceCtorEq, false_iff]
      intro hall
      simp [Moment.opens, hall m hm] at ho
    | false =>
      simp only [Bool.false_eq_true, if_false, true_iff]
      intro m hm
      simpa [Moment.opens] using List.any_eq_false.mp hany m hm
  refine ⟨hexact, ?_⟩
  rw [hexact]
  by_cases hindexed : ∃ m ∈ moments, m.indexes here.text = true
  · obtain ⟨m, hm, hi⟩ := hindexed
    have hnot : ¬∀ m ∈ moments, m.indexes here.text = false := by
      intro hall
      rw [hall m hm] at hi
      cases hi
    have hneither : ¬∀ m ∈ moments, m.indexes here.text = false ∧
        m.asksEnclosing here.text = false := fun hall => hnot fun m hm => (hall m hm).1
    exact iff_of_true (iff_of_false hneither hnot) (Or.inl ⟨m, hm, hi⟩)
  · have hall : ∀ m ∈ moments, m.indexes here.text = false := by
      intro m hm
      exact Bool.eq_false_iff.mpr fun hi => hindexed ⟨m, hm, hi⟩
    rw [or_iff_right hindexed, iff_true_right hall]
    constructor
    · intro h m hm
      exact (h m hm).2
    · intro h m hm
      exact ⟨hall m hm, h m hm⟩

end

/-! ## A project that was only asked about -/

/-- A request that meets the file system with nothing but `/ws`. -/
def bareMoment (request : Request) : Moment :=
  ⟨FileSystem.bareWs, request⟩

/-- The root is spelled differently when it is indexed and when it is looked up. -/
theorem overview_after_indexing_by_another_spelling :
    (bareMoment (.indexWorkspace "../ws")).indexes "/ws" = true ∧
      ((reached Workspace.blankPack [bareMoment (.indexWorkspace "../ws")]).respond
        Workspace.blankPack (bareMoment (.workspaceOverview "/ws/."))).1
          ≠ .ok (notIndexed "/ws") := by
  have hindexed : (bareMoment (.indexWorkspace "../ws")).indexes "/ws" = true := by decide +kernel
  have hres : FileSystem.bareWs.resolve (Path.parse "/ws/.") = .ok ["ws"] :=
    eq_ok_of_toOption (by decide +kernel)
  refine ⟨hindexed, ?_⟩
  intro he
  have hnone := (notIndexed_iff Workspace.blankPack [bareMoment (.indexWorkspace "../ws")]
    (bareMoment (.workspaceOverview "/ws/.")) rfl hres).1.mp he
  exact absurd hindexed (Bool.eq_false_iff.mp (hnone _ List.mem_cons_self).1)

/-- Nothing has been indexed, and yet a project is answered about: the function around a line of it
has been asked for. -/
theorem found_nothing_after_asking_enclosing :
    (∀ m ∈ [bareMoment (.enclosingFunction "/ws/a.py" 1 "/ws")], m.indexes "/ws" = false) ∧
      ((reached Workspace.blankPack [bareMoment (.enclosingFunction "/ws/a.py" 1 "/ws")]).respond
          Workspace.blankPack (bareMoment (.findFunction "f" "/ws"))).1
        = .ok "Function not found: f" ∧
      "Function not found: f" ≠ notIndexed "/ws" := by
  exact ⟨by decide +kernel, eq_ok_of_toOption (by decide +kernel), by decide +kernel⟩

end Session

end SourceIndex
