import SourceIndex.Proofs.Workspace.Run

/-!
# What the answer of indexing a file says

Two questions about a workspace that any run has reached, and about any file system it then meets.

* An outline is answered.  Is it what the analysis makes of the file now, in the language that was
  asked for?  It is an outline of what the file holds now, but **an unchanged file is answered in the
  language of its entry** (`indexFile_some_iff`).
* No outline is answered.  Is the file forgotten?  **It is, unless nothing tells its language**; then
  an entry that it has stays (`indexFile_none_iff`).
-/

namespace SourceIndex.Workspace

variable {pack : GrammarPack} {config : Config} {registry : Registry}
variable {history : List Moment} {w : Workspace} {fs : FileSystem}

/-! ## A file whose name tells no language -/

/-- The file system with one file, `/ws/notes`. -/
def notes (content : Bytes) : FileSystem :=
  FileSystem.bareWs.write (Path.parse "/ws/notes") (.file content)

/-- A request about the file. -/
def notesMoment (content : Bytes) (request : Request) : Moment :=
  ⟨notes content, request⟩

/-- The file is indexed as Python. -/
def pythonNotes : List Moment := [notesMoment [] (.indexFile "/ws/notes" (some "python"))]

/-- Whether an outline in a language is answered. -/
def answersIn (language : String) : Except Failure (Option Outline) → Bool
  | .ok (some o) => o.language == language
  | _ => false

theorem exists_of_answersIn {language : String} {answer : Except Failure (Option Outline)}
    (h : answersIn language answer = true) :
    ∃ o, answer = .ok (some o) ∧ o.language = language := by
  unfold answersIn at h
  split at h
  · next o => exact ⟨o, rfl, by simpa using h⟩
  · cases h

/-! ## An outline is answered -/

section

variable [PatternEngine]

/-- Digests tell what a file holds now from what was read from it before. -/
def Telling (config : Config) (history : List Moment) (fs : FileSystem) : Prop :=
  ∀ m ∈ history, ∀ path content found, m.Reads config path content → fs.Gives path found →
    Sha256.hexDigest content = Sha256.hexDigest found → content = found

/-- A current entry is an outline of what the file holds now. -/
theorem Sound.outline_of_current {path : String} {content : Bytes} {o : Outline}
    (h : Sound pack config registry history w) (ht : Telling config history fs)
    (hg : fs.Gives path content) (hc : w.current? path (Sha256.hexDigest content) = some o) :
    (Analyzer.mk pack registry config.strict).outline content path o.language = .ok o := by
  obtain ⟨hi, hd⟩ := current?_eq_some.mp hc
  obtain ⟨kept, hk, ha⟩ := h.held path
  cases kept with
  | none => exact absurd (hi.symm.trans hk.1) (by simp)
  | some analysed =>
    obtain ⟨before, ⟨m, hm, hread⟩, hdigest, hout⟩ := (ha analysed rfl).source
    have ho : analysed.outline = o := Option.some.inj (hk.1.symm.trans hi)
    have hsame : Sha256.hexDigest before = Sha256.hexDigest content := by
      rw [← hdigest]
      exact Option.some.inj (hk.2.symm.trans hd)
    rw [← ht m hm path before content hread hg hsame, ← ho]
    exact hout

/-- **An answered outline is one of what the file holds now**, and it is in the language that was
asked for exactly if no entry in another language was made from the same bytes. -/
theorem indexFile_some_iff {path : String} {language : Option String} {o : Outline}
    (hv : ((reached pack config registry history).indexFile pack fs path language).value.1
      = .ok (some o))
    (ht : Telling config history fs) :
    ∃ here l content, fs.resolve (Path.parse path) = .ok here ∧
      languageFor language here.text = some l ∧ fs.Gives here.text content ∧
      (Analyzer.mk pack registry config.strict).outline content here.text o.language = .ok o ∧
      ((Analyzer.mk pack registry config.strict).outline content here.text l = .ok o ↔
        ∀ old, (reached pack config registry history).current? here.text
          (Sha256.hexDigest content) = some old → old.language = l) := by
  have hs := sound_reached pack config registry history
  generalize reached pack config registry history = w at hv hs ⊢
  rcases indexFile_exit w pack fs path language with ⟨e, -, he⟩ | ⟨here, answer, after, hr, he, hx⟩
  · rw [he] at hv
    cases hv
  · rw [he] at hv
    obtain rfl := Except.ok.inj hv
    cases hx with
    | unchanged hl hg hc =>
      -- The entry need not be in the language that was asked for.
      have hnow := hs.outline_of_current ht hg hc
      refine ⟨here, _, _, hr, hl, hg, hnow, ?_⟩
      constructor
      · intro hout old hold
        rw [hc] at hold
        rw [← Option.some.inj hold]
        exact Analyzer.language_of_outline hout
      · intro hall
        rw [← hall o hc]
        exact hnow
    | analysed hl hg hc ho =>
      rw [analyzer, hs.registry_eq, hs.config_eq] at ho
      refine ⟨here, _, _, hr, hl, hg, ?_, ?_⟩
      · rw [Analyzer.language_of_outline ho]
        exact ho
      · refine iff_of_true ho ?_
        intro old hold
        rw [hc] at hold
        cases hold

theorem telling_of_same {moments : List Moment} (h : ∀ m ∈ moments, m.fs = fs) :
    Telling config moments fs := by
  intro m hm path content found hread hg _
  have hthen := hread.2
  rw [h m hm] at hthen
  exact hthen.unique hg

end

/-- Notes that were indexed as Python and then removed are answered in Java when Java is asked for. -/
theorem removed_notes_answered_in_java :
    ∃ o, ((reached blankPack { projectRoot := "/ws" } twoLanguages
          (pythonNotes ++ [notesMoment [] (.removeFile "/ws/notes")])).indexFile blankPack
            (notes []) "/ws/notes" (some "java")).value.1 = .ok (some o) ∧
      ∃ here l content, (notes []).resolve (Path.parse "/ws/notes") = .ok here ∧
        languageFor (some "java") here.text = some l ∧ (notes []).Gives here.text content ∧
        (Analyzer.mk blankPack twoLanguages false).outline content here.text o.language = .ok o ∧
        ((Analyzer.mk blankPack twoLanguages false).outline content here.text l = .ok o ↔
          ∀ old, (reached blankPack { projectRoot := "/ws" } twoLanguages
            (pythonNotes ++ [notesMoment [] (.removeFile "/ws/notes")])).current? here.text
              (Sha256.hexDigest content) = some old → old.language = l) := by
  have hanswer : answersIn "java" ((reached blankPack { projectRoot := "/ws" } twoLanguages
      (pythonNotes ++ [notesMoment [] (.removeFile "/ws/notes")])).indexFile blankPack
        (notes []) "/ws/notes" (some "java")).value.1 = true := by decide +kernel
  obtain ⟨o, ho, -⟩ := exists_of_answersIn hanswer
  refine ⟨o, ho, indexFile_some_iff ho (telling_of_same ?_)⟩
  intro m hm
  rcases List.mem_append.mp hm with hm | hm <;> rw [List.mem_singleton.mp hm] <;> rfl

/-- Notes that were indexed as Python and have not changed are answered in Python, though Java is
asked for and the analysis in Java succeeds. -/
theorem unchanged_notes_answered_in_python :
    ∃ o java, ((reached blankPack { projectRoot := "/ws" } twoLanguages pythonNotes).indexFile
          blankPack (notes []) "/ws/notes" (some "java")).value.1 = .ok (some o) ∧
      Telling { projectRoot := "/ws" } pythonNotes (notes []) ∧
      (notes []).Gives "/ws/notes" [] ∧
      (Analyzer.mk blankPack twoLanguages false).outline [] "/ws/notes" "java" = .ok java ∧
      java ≠ o := by
  have hanswer : answersIn "python" ((reached blankPack { projectRoot := "/ws" } twoLanguages
      pythonNotes).indexFile blankPack (notes []) "/ws/notes" (some "java")).value.1 = true := by
    decide +kernel
  obtain ⟨o, ho, hpython⟩ := exists_of_answersIn hanswer
  have hgives : (notes []).Gives "/ws/notes" [] :=
    ⟨by decide +kernel, eq_ok_of_toOption (by decide +kernel)⟩
  refine ⟨o, _, ho, telling_of_same ?_, hgives, rfl, ?_⟩
  · intro m hm
    rw [List.mem_singleton.mp hm]
    rfl
  · intro he
    rw [← he] at hpython
    exact absurd hpython (by decide)

/-! ## No outline is answered -/

section

variable [PatternEngine]

/-- What a workspace `w` has become holds nothing of a path: no outline, no digest, and in the totals
only what the other entries hold. -/
structure Forgets (w after : Workspace) (path : String) : Prop where
  outline : path ∉ after.index.files.keys
  digest : path ∉ after.digests.keys
  functions : after.index.totalFunctions = (w.index.files.erase path).total (·.functions.length)
  classes : after.index.totalClasses = (w.index.files.erase path).total (·.classes.length)

/-- What is left of a sound workspace without a path holds nothing of the path. -/
theorem Sound.forgets {after : Workspace} {path : String}
    (h : Sound pack config registry history after)
    (hp : after.index.get? path = none)
    (hrest : ∀ there, there ≠ path → after.index.get? there = w.index.get? there) :
    Forgets w after path := by
  obtain ⟨kept, hk, -⟩ := h.held path
  have hnone : kept = none := by
    have hmap := hk.1.symm.trans hp
    cases kept with
    | none => rfl
    | some analysed => cases hmap
  have hfiles : ∀ there, after.index.files.get? there = (w.index.files.erase path).get? there := by
    intro there
    rw [OrderedMap.get?_erase]
    split
    · next he => rw [he]; exact hp
    · next hne => exact hrest there hne
  refine ⟨OrderedMap.not_mem_keys_iff.mpr hp, OrderedMap.not_mem_keys_iff.mpr ?_, ?_, ?_⟩
  · rw [hk.2, hnone]
    rfl
  · rw [h.balanced.functions, OrderedMap.total_congr hfiles]
  · rw [h.balanced.classes, OrderedMap.total_congr hfiles]

theorem Sound.forgets_drop (h : Sound pack config registry history w) (path : String) :
    Forgets w (w.drop path) path := by
  refine (h.drop path).forgets ?_ ?_
  · exact (CodeIndex.get?_remove w.index path path).trans (if_pos rfl)
  · intro there hne
    exact (CodeIndex.get?_remove w.index path there).trans (if_neg hne)

/-- **A file for which no outline is answered is forgotten exactly if its language is known**, or if
it had no entry. -/
theorem indexFile_none_iff {path : String} {language : Option String}
    (hv : ((reached pack config registry history).indexFile pack fs path language).value.1
      = .ok none) :
    ∃ here, fs.resolve (Path.parse path) = .ok here ∧
      (Forgets (reached pack config registry history)
          ((reached pack config registry history).indexFile pack fs path language).value.2
          here.text ↔
        languageFor language here.text ≠ none ∨
          here.text ∉ (reached pack config registry history).index.files.keys) := by
  have hs := sound_reached pack config registry history
  generalize reached pack config registry history = w at hv hs ⊢
  rcases indexFile_exit w pack fs path language with ⟨e, -, he⟩ | ⟨here, answer, after, hr, he, hx⟩
  · rw [he] at hv
    cases hv
  · rw [he] at hv
    obtain rfl := Except.ok.inj hv
    refine ⟨here, hr, ?_⟩
    rw [he]
    cases hx with
    | noLanguage hl =>
      -- Nothing has changed, so that the path is forgotten only if it was not there.
      constructor
      · intro hf
        exact Or.inr hf.outline
      · rintro (hne | hnot)
        · exact absurd hl hne
        · exact hs.forgets (OrderedMap.not_mem_keys_iff.mp hnot) (fun _ _ => rfl)
    | unreadable hl => exact iff_of_true (hs.forgets_drop here.text) (Or.inl (by simp [hl]))
    | failed hl => exact iff_of_true (hs.forgets_drop here.text) (Or.inl (by simp [hl]))

end

/-- Notes that were indexed as Python and are gone when they are to be indexed as Python again are
forgotten. -/
theorem gone_notes_forgotten :
    ((reached blankPack { projectRoot := "/ws" } twoLanguages pythonNotes).indexFile blankPack
        FileSystem.bareWs "/ws/notes" (some "python")).value.1 = .ok none ∧
      ∃ here, FileSystem.bareWs.resolve (Path.parse "/ws/notes") = .ok here ∧
        (Forgets (reached blankPack { projectRoot := "/ws" } twoLanguages pythonNotes)
            ((reached blankPack { projectRoot := "/ws" } twoLanguages pythonNotes).indexFile
              blankPack FileSystem.bareWs "/ws/notes" (some "python")).value.2
            here.text ↔
          languageFor (some "python") here.text ≠ none ∨
            here.text ∉ (reached blankPack { projectRoot := "/ws" } twoLanguages
              pythonNotes).index.files.keys) := by
  have hnone : ((reached blankPack { projectRoot := "/ws" } twoLanguages pythonNotes).indexFile
      blankPack FileSystem.bareWs "/ws/notes" (some "python")).value.1 = .ok none :=
    eq_ok_of_toOption (by decide +kernel)
  exact ⟨hnone, indexFile_none_iff hnone⟩

/-- Notes that were indexed as Python and are gone keep their entry when nothing tells their
language. -/
theorem gone_notes_kept_without_language :
    ((reached blankPack { projectRoot := "/ws" } twoLanguages pythonNotes).indexFile blankPack
        FileSystem.bareWs "/ws/notes" none).value.1 = .ok none ∧
      FileSystem.bareWs.resolve (Path.parse "/ws/notes") = .ok ["ws", "notes"] ∧
      Location.text ["ws", "notes"] ∈ ((reached blankPack { projectRoot := "/ws" } twoLanguages
        pythonNotes).indexFile blankPack FileSystem.bareWs "/ws/notes"
          none).value.2.index.files.keys := by
  refine ⟨eq_ok_of_toOption ?_, eq_ok_of_toOption ?_, ?_⟩ <;> decide +kernel

end SourceIndex.Workspace
