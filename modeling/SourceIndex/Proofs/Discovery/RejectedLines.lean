import SourceIndex.Proofs.Workspace.Returns

/-!
# Lines without meaning, and what is discovered

What stands in the ignore file shows nowhere but in its patterns.  So lines without meaning may be
put into the ignore file or into the configuration, or taken out: **discovery comes to the same**
(`value_discover_of_file`, `value_discover_of_exclude`), be it files or a failure.  Only a link could
name the ignore file like a source file, whose size counts.

Two file systems that differ in one file are alike in all else that discovery asks for
(`FileSystem.AgreesBut`): where paths lead, what is read and what is listed.
-/

namespace SourceIndex

/-- Lists with the same first components give the same, if their elements do. -/
theorem filterMap_eq_of_map_fst {α β γ : Type} {f : α × β → Option γ} {first second : List (α × β)}
    (h : first.map Prod.fst = second.map Prod.fst)
    (hf : ∀ a b c, (a, b) ∈ first → (a, c) ∈ second → f (a, b) = f (a, c)) :
    first.filterMap f = second.filterMap f := by
  induction first generalizing second with
  | nil => rw [List.map_eq_nil_iff.mp h.symm]
  | cons x rest ih =>
    obtain ⟨y, others, rfl, hxy, hrest⟩ := List.map_eq_cons_iff.mp h.symm
    obtain ⟨a, b⟩ := x
    obtain ⟨a', c⟩ := y
    obtain rfl : a' = a := hxy
    have hhead := hf a' b c List.mem_cons_self List.mem_cons_self
    have htail := ih hrest.symm fun a b c hb hc =>
      hf a b c (List.mem_cons_of_mem _ hb) (List.mem_cons_of_mem _ hc)
    rw [List.filterMap_cons, List.filterMap_cons, hhead, htail]

/-! ## File systems that differ in one file -/

namespace FileSystem

variable {before after : FileSystem} {here : Location} {old new : Bytes}

/-- File systems are the same, faults included, but for what stands at one location. -/
structure AgreesBut (here : Location) (before after : FileSystem) : Prop where
  entry : ∀ there, there ≠ here →
    before.volume.entries.get? there = after.volume.entries.get? there
  workingDirectory : before.workingDirectory = after.workingDirectory
  unreadable : before.unreadable = after.unreadable
  vanishing : before.vanishing = after.vanishing
  glimpsed : before.glimpsed = after.glimpsed
  unlistable : before.unlistable = after.unlistable
  closed : before.closed = after.closed

theorem get?_put_file {v : Volume} {there : Location} (hne : there ≠ here) (old new : Bytes) :
    (v.put here (.file old)).entries.get? there = (v.put here (.file new)).entries.get? there := by
  have htakes : v.Takes here (.file old) ↔ v.Takes here (.file new) :=
    ⟨fun h => ⟨⟨h.1.name, trivial, h.1.parent⟩, h.2⟩,
      fun h => ⟨⟨h.1.name, trivial, h.1.parent⟩, h.2⟩⟩
  unfold Volume.put
  split
  · next h =>
    rw [dif_pos (htakes.mp h)]
    exact (OrderedMap.get?_insert_ne _ hne _).trans (OrderedMap.get?_insert_ne _ hne _).symm
  · next h => rw [dif_neg (fun hn => h (htakes.mpr hn))]

/-- What is written to a path changes nothing but where the path leads. -/
theorem agreesBut_write (fs : FileSystem) (path : Path) (old new : Bytes) :
    AgreesBut (path.resolve fs.workingDirectory) (fs.write path (.file old))
      (fs.write path (.file new)) :=
  ⟨fun _ hne => get?_put_file hne old new, rfl, rfl, rfl, rfl, rfl, rfl⟩

namespace AgreesBut

variable (h : AgreesBut here before after)

include h

theorem comesAndGoes : before.comesAndGoes = after.comesAndGoes := by
  funext there
  rw [FileSystem.comesAndGoes, FileSystem.comesAndGoes, h.vanishing]

theorem misses (there : Location) : before.misses there = after.misses there := by
  rw [FileSystem.misses, FileSystem.misses, h.comesAndGoes, h.glimpsed]

theorem lists (root there : Location) : before.lists root there = after.lists root there := by
  rw [FileSystem.lists, FileSystem.lists, h.closed]

theorem standing?_eq {there : Location} (hne : there ≠ here) :
    before.standing? there = after.standing? there := by
  by_cases hnil : there = []
  · rw [hnil]
    rfl
  · exact (Entry.at?_of_ne_nil hnil).trans
      ((h.entry there hne).trans (Entry.at?_of_ne_nil hnil).symm)

/-- A look is the same in both. -/
theorem looked (there : Location) : AgreesBut here (before.looked there) (after.looked there) := by
  have hlook : (before.looked there).glimpsed = (after.looked there).glimpsed := by
    unfold FileSystem.looked FileSystem.comesAndGoes
    rw [h.vanishing, h.glimpsed]
    split
    · exact h.glimpsed
    · split <;> rfl
  obtain ⟨g, hb⟩ := before.exists_looked there
  obtain ⟨g', ha⟩ := after.exists_looked there
  rw [hb, ha] at hlook ⊢
  exact ⟨h.entry, h.workingDirectory, h.unreadable, h.vanishing, hlook, h.unlistable, h.closed⟩

section File

variable (hb : before.standing? here = some (.file old))
  (ha : after.standing? here = some (.file new))

include hb ha

theorem isDirectory (there : Location) : before.isDirectory there = after.isDirectory there := by
  rw [FileSystem.isDirectory, FileSystem.isDirectory]
  by_cases hthere : there = here
  · rw [hthere, hb, ha]
    rfl
  · rw [h.standing?_eq hthere]

theorem link? (there : Location) : before.volume.link? there = after.volume.link? there := by
  have hentry (fs : FileSystem) : fs.volume.standing? there = fs.standing? there := rfl
  rw [Volume.link?, Volume.link?, hentry, hentry]
  by_cases hthere : there = here
  · rw [hthere, hb, ha]
  · rw [h.standing?_eq hthere]

theorem resolve (path : Path) : before.resolve path = after.resolve path := by
  have hcount : before.volume.linkCount = after.volume.linkCount := by
    refine Volume.linkCount_congr ?_
    intro there target
    by_cases hthere : there = here
    · have hne : here ≠ [] := by
        rintro rfl
        cases hb
      have hold : before.volume.entries.get? here = _ := (Entry.at?_of_ne_nil hne).symm.trans hb
      have hnew : after.volume.entries.get? here = _ := (Entry.at?_of_ne_nil hne).symm.trans ha
      rw [hthere, hold, hnew]
      simp
    · rw [h.entry there hthere]
  rw [FileSystem.resolve, FileSystem.resolve, h.workingDirectory,
    Volume.resolve_congr (h.link? hb ha) hcount]

theorem follow (path : Path) : before.follow path = after.follow path := by
  -- No way leads through a file, whatever it holds.
  have hstands {e : Option Entry} (hold : some (.file old) = e ↔ some (.file new) = e)
      (there : Location) : before.volume.standing? there = e ↔ after.volume.standing? there = e := by
    show before.standing? there = e ↔ after.standing? there = e
    by_cases hthere : there = here
    · rw [hthere, hb, ha]
      exact hold
    · rw [h.standing?_eq hthere]
  rw [FileSystem.follow, FileSystem.follow, Volume.follow, Volume.follow, h.workingDirectory,
    Volume.followWithin_congr (h.link? hb ha) (hstands (by simp)) (hstands (by simp))]

/-- A path leads to the same in both, unless it leads to the file in which they differ. -/
theorem reach? (path : Path) :
    before.reach? path = after.reach? path ∨
      before.reach? path = some (.file old) ∧ after.reach? path = some (.file new) := by
  rw [FileSystem.reach?, FileSystem.reach?, h.follow hb ha]
  split
  · next there _ =>
    by_cases hthere : there = here
    · rw [hthere]
      exact Or.inr ⟨hb, ha⟩
    · exact Or.inl (h.standing?_eq hthere)
  · exact Or.inl rfl

/-- What is read is the same, unless it is the file in which they differ. -/
theorem read (path : Path) :
    before.read path = after.read path ∨
      before.read path = .ok old ∧ after.read path = .ok new := by
  unfold FileSystem.read
  rw [h.unreadable, h.follow hb ha]
  split
  · exact Or.inl rfl
  · split
    · exact Or.inl rfl
    · next there _ =>
      by_cases hthere : there = here
      · rw [hthere, hb, ha]
        exact Or.inr ⟨rfl, rfl⟩
      · rw [h.standing?_eq hthere]
        exact Or.inl rfl

/-- Files show in the same places. -/
theorem exists_shows_iff {there : Location} :
    (∃ content, before.Shows there content) ↔ ∃ content, after.Shows there content := by
  have hstands : (before.standing? there).isSome = (after.standing? there).isSome := by
    by_cases hthere : there = here
    · rw [hthere, hb, ha]
      rfl
    · rw [h.standing?_eq hthere]
  rcases h.reach? hb ha there.path with hsame | ⟨hold, hnew⟩
  · constructor
    · rintro ⟨content, hs, hr⟩
      exact ⟨content, hstands ▸ hs, hsame ▸ hr⟩
    · rintro ⟨content, hs, hr⟩
      exact ⟨content, hstands.symm ▸ hs, hsame.symm ▸ hr⟩
  · constructor
    · rintro ⟨content, hs, -⟩
      exact ⟨new, hstands ▸ hs, hnew⟩
    · rintro ⟨content, hs, -⟩
      exact ⟨old, hstands.symm ▸ hs, hold⟩

/-- Files are listed in the same places. -/
theorem map_fst_filesBelow (root : Location) :
    (before.filesBelow root).map Prod.fst = (after.filesBelow root).map Prod.fst := by
  have hmem (fs : FileSystem) (there : Location) :
      there ∈ (fs.filesBelow root).map Prod.fst ↔
        (∃ content, fs.Shows there content) ∧ fs.lists root there = true ∧
          fs.misses there = false := by
    simp only [List.mem_map, Prod.exists, exists_and_right, exists_eq_right, mem_filesBelow]
  have hperm : ((before.filesBelow root).map Prod.fst).Perm
      ((after.filesBelow root).map Prod.fst) := by
    refine (List.perm_ext_iff_of_nodup (before.nodup_filesBelow root)
      (after.nodup_filesBelow root)).mpr ?_
    intro there
    rw [hmem, hmem, h.exists_shows_iff hb ha, h.lists, h.misses]
  exact hperm.eq_of_pairwise (fun a b _ _ hab hba => absurd hba (List.lt_asymm hab))
    (before.pairwise_filesBelow root) (after.pairwise_filesBelow root)

end File

end AgreesBut

end FileSystem

/-! ## Discovery -/

namespace Discovery

section

open PatternEngine (Spec compile compileUsable ignores kept flaw? rejection? LastWord dropMessages)

variable [PatternEngine]
variable {before after : FileSystem} {config : Config} {root here : Location} {old new : Bytes}

/-- Of a file with the suffix of a language no more counts than whether it is small enough. -/
theorem source?_congr {s : Screen} {there : Location}
    (h : there.path.language?.isSome = true →
      (old.length ≤ s.maxFileBytes ↔ new.length ≤ s.maxFileBytes)) :
    s.source? (there, old) = s.source? (there, new) := by
  refine Option.ext ?_
  intro file
  rw [source?_eq_some, source?_eq_some, verdict_eq_taken, verdict_eq_taken]
  cases hl : there.path.language? with
  | none => simp
  | some language => rw [h (by rw [hl]; rfl)]

/-- No source file comes to be too large, or ceases to be. -/
def SizesKept (config : Config) (before after : FileSystem) : Prop :=
  ∀ there old new, before.Shows there old → after.Shows there new →
    there.path.language?.isSome = true →
      (old.length ≤ config.maxFileBytes ↔ new.length ≤ config.maxFileBytes)

omit [PatternEngine] in
theorem SizesKept.looked (h : SizesKept config before after) (root : Location) :
    SizesKept config (before.looked root) (after.looked root) := by
  intro there a b ha hb
  exact h there a b (FileSystem.shows_looked.mp ha) (FileSystem.shows_looked.mp hb)

omit [PatternEngine] in
/-- Without links, the ignore file is no source file. -/
theorem sizesKept_of_unlinked (h : FileSystem.AgreesBut (root ++ [".gitignore"]) before after)
    (hb : before.volume.linkCount = 0) (ha : after.volume.linkCount = 0) :
    SizesKept config before after := by
  intro there a b hbefore hafter hlanguage
  by_cases hthere : there = root ++ [".gitignore"]
  · have hname : (Location.path (root ++ [".gitignore"])).name = ".gitignore" := by
      simp [Path.name, Location.path]
    have hnone : (Location.path (root ++ [".gitignore"])).language? = none := by
      rw [Path.language?, Path.suffix, hname]
      decide +kernel
    rw [hthere, hnone] at hlanguage
    cases hlanguage
  · have hsame := h.standing?_eq hthere
    rw [hbefore.file (Volume.link?_of_linkCount hb there),
      hafter.file (Volume.link?_of_linkCount ha there)] at hsame
    obtain rfl : a = b := by simpa using hsame
    exact Iff.rfl

/-- The lines of the ignore file that are kept tell its patterns. -/
theorem ignoreFile_of_kept (h : FileSystem.AgreesBut here before after)
    (hb : before.standing? here = some (.file old)) (ha : after.standing? here = some (.file new))
    (hkept : kept (linesOf old) = kept (linesOf new)) :
    ignoreFile before config root = ignoreFile after config root := by
  unfold ignoreFile
  rw [value_gitignoreSpec, value_gitignoreSpec, h.misses]
  rcases h.read hb ha (Location.path (root ++ [".gitignore"])) with hread | ⟨hold, hnew⟩
  · rw [hread]
  · rw [hold, hnew]
    simp only [PatternEngine.value_compileUsable_of_kept hkept _
      (Location.text (root ++ [".gitignore"]))]

theorem value_below_of_ignoreFile (h : FileSystem.AgreesBut here before after)
    (hb : before.standing? here = some (.file old)) (ha : after.standing? here = some (.file new))
    (hsize : SizesKept config before after)
    (hfile : ignoreFile before config root = ignoreFile after config root) :
    (below before config root).value = (below after config root).value := by
  have hscreen : screen before config root = screen after config root := by
    unfold screen
    rw [hfile, h.comesAndGoes]
  rw [value_below, value_below, hscreen]
  cases hs : screen after config root with
  | error e => rfl
  | ok s =>
    have hfound : (before.filesBelow s.root).filterMap s.source?
        = (after.filesBelow s.root).filterMap s.source? := by
      refine filterMap_eq_of_map_fst (h.map_fst_filesBelow hb ha s.root) ?_
      intro there a b hbefore hafter
      refine source?_congr ?_
      rw [(settings_screen hs).2]
      exact hsize there a b (FileSystem.mem_filesBelow.mp hbefore).1
        (FileSystem.mem_filesBelow.mp hafter).1
    simp only [value_search, h.unlistable, h.misses]
    cases after.misses s.root with
    | true => rfl
    | false => simp only [Bool.false_eq_true, if_false, hfound]

/-- **Dropped lines of the ignore file have no say in what is discovered.** -/
theorem value_discover_of_file (h : FileSystem.AgreesBut here before after)
    (hb : before.standing? here = some (.file old)) (ha : after.standing? here = some (.file new))
    (hkept : kept (linesOf old) = kept (linesOf new)) (hsize : SizesKept config before after) :
    (discover before config).value = (discover after config).value := by
  unfold discover
  rw [← h.resolve hb ha]
  cases before.resolve (Path.parse config.projectRoot) with
  | error e => rfl
  | ok root =>
    have hlook (fs : FileSystem) : (fs.looked root).standing? here = fs.standing? here :=
      FileSystem.standing?_looked fs root here
    have hagain (fs : FileSystem) : ((fs.looked root).looked root).standing? here
        = fs.standing? here := (FileSystem.standing?_looked _ root here).trans (hlook fs)
    have honce := h.looked root
    simp only [Traced.value_bind, honce.misses,
      honce.isDirectory ((hlook before).trans hb) ((hlook after).trans ha)]
    split
    · rfl
    · have htwice := honce.looked root
      have hbefore := (hagain before).trans hb
      have hafter := (hagain after).trans ha
      exact value_below_of_ignoreFile htwice hbefore hafter ((hsize.looked root).looked root)
        (ignoreFile_of_kept htwice hbefore hafter hkept)

/-- **Dropped lines of the configuration have no say in what is discovered.** -/
theorem value_discover_of_exclude {exclude : List String}
    (h : kept exclude = kept config.exclude) (fs : FileSystem) :
    (discover fs { config with exclude }).value = (discover fs config).value := by
  have hscreen (fs : FileSystem) (root : Location) :
      screen fs { config with exclude } root = screen fs config root := by
    unfold screen
    rw [PatternEngine.value_compileUsable_of_kept h "exclude patterns" "exclude patterns"]
    rfl
  unfold discover
  cases fs.resolve (Path.parse config.projectRoot) with
  | error e => rfl
  | ok root =>
    simp only [Traced.value_bind]
    split
    · rfl
    · rw [value_below, value_below, hscreen]

end

/-- Two empty files. -/
def pair : FileSystem :=
  ["a.py", "b.py"].foldl (fun fs name => fs.write (Path.parse name) (.file []))
    FileSystem.bareWs

/-- Two empty files beside an ignore file. -/
def ignoring (text : String) : FileSystem :=
  pair.write (Path.parse ".gitignore") (.file (Utf8.encode text.toList))

end Discovery

end SourceIndex
