import SourceIndex.Proofs.CodeIndex.History
import SourceIndex.Proofs.Workspace.FileByFile

/-!
# What indexing a file leaves alone

However indexing a file ends, the workspace without the entry of the file is what it was before
(`IndexExit.drop_eq`): the entry may come, go, change or move to the end, and all else stays.  From
this one equation the rest is read off (`onlyAt_of_drop_eq`).

A file that had no entry is the case where the workspace without it is the workspace itself.  So
**removing a file takes back what indexing it has done**, by whatever name it is removed
(`indexFile_only_at`).
-/

namespace SourceIndex

/-! ## Taking back an insertion -/

theorem OrderedMap.keys_erase {κ ν : Type} [DecidableEq κ] (m : OrderedMap κ ν) (k : κ) :
    (m.erase k).keys = m.keys.filter (fun x => decide (x ≠ k)) := by
  rw [keys, keys, List.filter_map]
  rfl

/-- What was put under a key is gone when the key is removed. -/
theorem OrderedMap.erase_insert {κ ν : Type} [DecidableEq κ] (m : OrderedMap κ ν) (k : κ) (v : ν) :
    (m.insert k v).erase k = m.erase k := by
  have hput (l : List (κ × ν)) : (put k v l).filter (fun e => decide (e.1 ≠ k))
      = l.filter (fun e => decide (e.1 ≠ k)) := by
    induction l with
    | nil => simp [put]
    | cons e rest ih =>
      rw [put]
      split
      · next he => simp [he]
      · next he => rw [List.filter_cons, List.filter_cons, ih]
  unfold erase insert
  simp only [hput]

namespace CodeIndex

/-- What the file of a path gives to a total. -/
def part (x : CodeIndex) (count : Outline → Nat) (path : String) : Int :=
  match x.get? path with
  | some o => count o
  | none => 0

theorem totals_remove (x : CodeIndex) (path : String) :
    (x.remove path).totalFunctions = x.totalFunctions - x.part (·.functions.length) path ∧
      (x.remove path).totalClasses = x.totalClasses - x.part (·.classes.length) path := by
  unfold part
  cases h : x.get? path with
  | none =>
    rw [remove_of_none h]
    exact ⟨(Int.sub_zero _).symm, (Int.sub_zero _).symm⟩
  | some old =>
    rw [remove_of_some h]
    exact ⟨rfl, rfl⟩

/-- A file that is removed after it was added might as well have been removed at once. -/
theorem remove_add (x : CodeIndex) (path : String) (o : Outline) :
    (x.add path o).remove path = x.remove path := by
  have hsome : (x.add path o).get? path = some o := (get?_add x path path o).trans (if_pos rfl)
  have hfiles : (x.add path o).files.erase path = (x.remove path).files := by
    show ((x.remove path).files.insert path o).erase path = _
    have hnone : (x.remove path).get? path = none := (get?_remove x path path).trans (if_pos rfl)
    rw [OrderedMap.erase_insert]
    exact OrderedMap.erase_of_none hnone
  have hfunctions : (x.add path o).totalFunctions
      = (x.remove path).totalFunctions + o.functions.length := rfl
  have hclasses : (x.add path o).totalClasses
      = (x.remove path).totalClasses + o.classes.length := rfl
  rw [remove_of_some hsome, hfiles, hfunctions, hclasses, Int.add_sub_cancel, Int.add_sub_cancel]

theorem remove_remove (x : CodeIndex) (path : String) :
    (x.remove path).remove path = x.remove path :=
  remove_of_none ((get?_remove x path path).trans (if_pos rfl))

end CodeIndex

namespace Workspace

variable {pack : GrammarPack} {w after : Workspace} {fs : FileSystem} {path : String}

theorem drop_store (w : Workspace) (path : String) (analysed : Analysed) :
    (w.store path analysed).drop path = w.drop path := by
  simp only [store, drop, CodeIndex.remove_add, OrderedMap.erase_insert]

theorem drop_drop (w : Workspace) (path : String) : (w.drop path).drop path = w.drop path := by
  have hnone : (w.digests.erase path).get? path = none := w.digests.get?_erase_self path
  simp only [drop, CodeIndex.remove_remove, OrderedMap.erase_of_none hnone]

/-- **However indexing a file ends, without the file the workspace is what it was.** -/
theorem IndexExit.drop_eq {language : Option String} {answer : Option Outline}
    (hx : IndexExit w pack fs path language answer after) : after.drop path = w.drop path := by
  cases hx with
  | noLanguage => rfl
  | unreadable => exact drop_drop w path
  | unchanged => rfl
  | failed => exact drop_drop w path
  | analysed => exact drop_store w path _

/-- A file without an entry has one afterwards exactly if an outline is answered. -/
theorem IndexExit.isSome_get? {language : Option String} {answer : Option Outline}
    (hx : IndexExit w pack fs path language answer after) (h : w.index.get? path = none) :
    (after.index.get? path).isSome = answer.isSome := by
  have hdropped : (w.drop path).index.get? path = none :=
    (CodeIndex.get?_remove w.index path path).trans (if_pos rfl)
  cases hx with
  | noLanguage => rw [h]
  | unreadable => rw [hdropped]
  | unchanged _ _ hc => rw [(current?_eq_some.mp hc).1]
  | failed => rw [hdropped]
  | @analysed _ content o =>
    have hstored : (w.store path ⟨o, Sha256.hexDigest content⟩).index.get? path = some o :=
      (CodeIndex.get?_add w.index path path o).trans (if_pos rfl)
    rw [hstored]

/-! ## What the equation says -/

/-- Two workspaces differ in the entry of one path only: every other path has the same outline and
the same digest, the others stand in the same order, and each total differs by what the path gives
to it. -/
structure OnlyAt (path : String) (w after : Workspace) : Prop where
  outline : ∀ there, there ≠ path → after.index.get? there = w.index.get? there
  digest : ∀ there, there ≠ path → after.digests.get? there = w.digests.get? there
  order : after.index.files.keys.filter (fun there => decide (there ≠ path))
    = w.index.files.keys.filter (fun there => decide (there ≠ path))
  digestOrder : after.digests.keys.filter (fun there => decide (there ≠ path))
    = w.digests.keys.filter (fun there => decide (there ≠ path))
  functions : after.index.totalFunctions - w.index.totalFunctions
    = after.index.part (·.functions.length) path - w.index.part (·.functions.length) path
  classes : after.index.totalClasses - w.index.totalClasses
    = after.index.part (·.classes.length) path - w.index.part (·.classes.length) path

theorem onlyAt_of_drop_eq (h : after.drop path = w.drop path) : OnlyAt path w after := by
  have hindex : after.index.remove path = w.index.remove path := congrArg Workspace.index h
  have hdigests : after.digests.erase path = w.digests.erase path := congrArg Workspace.digests h
  obtain ⟨hf, hc⟩ := after.index.totals_remove path
  obtain ⟨hf', hc'⟩ := w.index.totals_remove path
  refine ⟨?_, ?_, ?_, ?_, ?_, ?_⟩
  · intro there hne
    have hget := congrArg (·.get? there) hindex
    simpa only [CodeIndex.get?_remove, if_neg hne] using hget
  · intro there hne
    have hget := congrArg (·.get? there) hdigests
    simpa only [OrderedMap.get?_erase, if_neg hne] using hget
  · have hkeys := congrArg (·.files.keys) hindex
    simpa only [CodeIndex.files_remove, OrderedMap.keys_erase] using hkeys
  · have hkeys := congrArg (·.keys) hdigests
    simpa only [OrderedMap.keys_erase] using hkeys
  · rw [hindex] at hf
    omega
  · rw [hindex] at hc
    omega

/-! ## The whole request -/

/-- **Indexing a file touches no other file, and removing the file takes it back.**  A path that
leads nowhere changes nothing.  If the file had no entry, then removing it, by any name that leads
to it, leaves the workspace as it was before, and tells whether there was an outline. -/
theorem indexFile_only_at [PatternEngine] (pack : GrammarPack) (config : Config)
    (registry : Registry) (history : List Moment) (fs : FileSystem) (path : String)
    (language : Option String) :
    (∀ e, fs.resolve (Path.parse path) = .error e →
        ((reached pack config registry history).indexFile pack fs path language).value
          = (.error e, reached pack config registry history)) ∧
      ∀ here, fs.resolve (Path.parse path) = .ok here → ∃ answer after,
        ((reached pack config registry history).indexFile pack fs path language).value
            = (.ok answer, after) ∧
          OnlyAt here.text (reached pack config registry history) after ∧
          (here.text ∉ (reached pack config registry history).index.files.keys →
            ∀ (later : FileSystem) (name : String) (there : Location),
              later.resolve (Path.parse name) = .ok there → there.text = here.text →
                (after.removeFile later name).value
                  = (.ok answer.isSome, reached pack config registry history)) := by
  have hs := sound_reached pack config registry history
  generalize reached pack config registry history = w at hs ⊢
  rcases indexFile_exit w pack fs path language with
    ⟨e, hr, hv⟩ | ⟨here, answer, after, hr, hv, hx⟩
  · refine ⟨?_, ?_⟩
    · intro e' hr'
      rw [hr] at hr'
      obtain rfl := Except.error.inj hr'
      exact hv
    · intro here hr'
      rw [hr] at hr'
      cases hr'
  · refine ⟨?_, ?_⟩
    · intro e hr'
      rw [hr] at hr'
      cases hr'
    · intro here' hr'
      rw [hr] at hr'
      obtain rfl := Except.ok.inj hr'
      refine ⟨answer, after, hv, onlyAt_of_drop_eq hx.drop_eq, ?_⟩
      intro hnot later name there hthere htext
      have hnone : w.index.get? here.text = none := OrderedMap.not_mem_keys_iff.mp hnot
      have hdrop : after.drop here.text = w :=
        hx.drop_eq.trans (drop_of_absent (hs.holds_none hnone))
      rw [removeFile, hthere]
      simp only [Traced.value_bind, Traced.value_pure]
      rw [htext, hx.isSome_get? hnone, hdrop]

/-- The Java file is indexed. -/
def javaIndexed : List Moment := [⟨javaAndPython, .indexFile "A.java" none⟩]

/-- The Python file is indexed after the Java file, and removed under another name. -/
theorem indexFile_only_at_javaAndPython :
    ∃ o after, ((reached blankPack { projectRoot := "/ws" } twoLanguages javaIndexed).indexFile
          blankPack javaAndPython "b.py" none).value = (.ok (some o), after) ∧
      OnlyAt "/ws/b.py" (reached blankPack { projectRoot := "/ws" } twoLanguages javaIndexed)
        after ∧
      (after.removeFile javaAndPython "../ws/./b.py").value
        = (.ok true, reached blankPack { projectRoot := "/ws" } twoLanguages javaIndexed) := by
  obtain ⟨-, hresolved⟩ := indexFile_only_at blankPack { projectRoot := "/ws" } twoLanguages
    javaIndexed javaAndPython "b.py" none
  have hplaces : (javaAndPython.resolve (Path.parse "b.py")).toOption = some ["ws", "b.py"] ∧
      (javaAndPython.resolve (Path.parse "../ws/./b.py")).toOption = some ["ws", "b.py"] := by
    decide +kernel
  obtain ⟨answer, after, hvalue, honly, hback⟩ :=
    hresolved ["ws", "b.py"] (eq_ok_of_toOption hplaces.1)
  have hnot : Location.text ["ws", "b.py"] ∉ (reached blankPack { projectRoot := "/ws" }
      twoLanguages javaIndexed).index.files.keys := by decide +kernel
  have hremoved := hback hnot javaAndPython "../ws/./b.py" ["ws", "b.py"]
    (eq_ok_of_toOption hplaces.2) rfl
  have hanswer : answersIn "python" ((reached blankPack { projectRoot := "/ws" } twoLanguages
      javaIndexed).indexFile blankPack javaAndPython "b.py" none).value.1 = true := by
    decide +kernel
  obtain ⟨o, ho, -⟩ := exists_of_answersIn hanswer
  rw [hvalue] at ho
  obtain rfl := Except.ok.inj ho
  exact ⟨o, after, hvalue, honly, hremoved⟩

end Workspace

end SourceIndex
