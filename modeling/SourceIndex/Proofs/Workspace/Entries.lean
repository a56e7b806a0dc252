import SourceIndex.Proofs.CodeIndex
import SourceIndex.Proofs.FileSystem
import SourceIndex.Workspace.Basic

/-!
# What a workspace holds, and what a request for one file does to it

A workspace holds for each path an outline and a digest, or neither (`Holds`).  All changes go
through `store` and `drop`, which change what is held for one path and nothing else.

Indexing a file ends in one of five ways (`IndexExit`), and **every fact about indexing a file is a
case analysis over them** (`indexAt_exit`, `indexFile_exit`).  A file that is given up is removed by
its resolved path, which is resolved once more; it leads to the same place (`value_giveUp`).
-/

namespace SourceIndex

/-! ## The outline of a content -/

/-- The outline of the content of the file at a path. -/
def Analyzer.outline (a : Analyzer) (content : Bytes) (path language : String) :
    Except Failure Outline :=
  (a.analyze (Source.ofBytes content).text language (Path.parse path).name).value

/-- An outline tells the language it was made in. -/
theorem Analyzer.language_of_outline {a : Analyzer} {content : Bytes} {path language : String}
    {o : Outline} (h : a.outline content path language = .ok o) : o.language = language := by
  unfold outline analyze at h
  split at h
  · cases h
  · rw [Traced.value_bind] at h
    split at h
    · cases h
    · rw [← Except.ok.inj h]
      rfl

namespace Workspace

variable {w : Workspace} {pack : GrammarPack} {fs : FileSystem}

theorem value_analyzeSource (w : Workspace) (pack : GrammarPack) (path language : String)
    (content : Bytes) :
    (w.analyzeSource pack path language (Source.ofBytes content)).value
      = ((w.analyzer pack).outline content path language).map
          (⟨·, Sha256.hexDigest content⟩) := rfl

/-! ## What is held for a path -/

/-- For a path the workspace holds an outline and its digest, or nothing. -/
def Holds (w : Workspace) (path : String) (kept : Option Analysed) : Prop :=
  w.index.get? path = kept.map (·.outline) ∧ w.digests.get? path = kept.map (·.digest)

theorem Holds.store {there : String} {kept : Option Analysed} (h : w.Holds there kept)
    (path : String) (analysed : Analysed) :
    (w.store path analysed).Holds there (if there = path then some analysed else kept) := by
  obtain ⟨hi, hd⟩ := h
  constructor
  · show (w.index.add path analysed.outline).get? there = _
    rw [CodeIndex.get?_add]
    split
    · rfl
    · exact hi
  · show (w.digests.insert path analysed.digest).get? there = _
    rw [OrderedMap.get?_insert]
    split
    · rfl
    · exact hd

theorem Holds.drop {there : String} {kept : Option Analysed} (h : w.Holds there kept)
    (path : String) : (w.drop path).Holds there (if there = path then none else kept) := by
  obtain ⟨hi, hd⟩ := h
  constructor
  · show (w.index.remove path).get? there = _
    rw [CodeIndex.get?_remove]
    split
    · rfl
    · exact hi
  · show (w.digests.erase path).get? there = _
    rw [OrderedMap.get?_erase]
    split
    · rfl
    · exact hd

/-- An entry is current if it is held with the digest that is asked for. -/
theorem current?_eq_some {path digest : String} {o : Outline} :
    w.current? path digest = some o ↔
      w.index.get? path = some o ∧ w.digests.get? path = some digest := by
  unfold current?
  split
  · next hd => simp [hd]
  · next hd => simp [hd]

/-! ## The ways in which indexing a file ends -/

/-- The ways in which indexing the file at a resolved path ends, with the outline that is answered
and the workspace that is left. -/
inductive IndexExit (w : Workspace) (pack : GrammarPack) (fs : FileSystem) (here : String)
    (language : Option String) : Option Outline → Workspace → Prop
  /-- Nothing tells the language; nothing changes. -/
  | noLanguage (hl : languageFor language here = none) : IndexExit w pack fs here language none w
  /-- The file cannot be read. -/
  | unreadable {l : String} {e : Failure} (hl : languageFor language here = some l)
      (hr : fs.readSource here = .error e) :
      IndexExit w pack fs here language none (w.drop here)
  /-- The entry was made from the same bytes. -/
  | unchanged {l : String} {content : Bytes} {o : Outline}
      (hl : languageFor language here = some l)
      (hr : fs.Gives here content)
      (hc : w.current? here (Sha256.hexDigest content) = some o) :
      IndexExit w pack fs here language (some o) w
  /-- The bytes have no outline. -/
  | failed {l : String} {content : Bytes} {e : Failure}
      (hl : languageFor language here = some l)
      (hr : fs.Gives here content)
      (hc : w.current? here (Sha256.hexDigest content) = none)
      (ha : (w.analyzer pack).outline content here l = .error e) :
      IndexExit w pack fs here language none (w.drop here)
  /-- The bytes are new, and have an outline. -/
  | analysed {l : String} {content : Bytes} {o : Outline}
      (hl : languageFor language here = some l)
      (hr : fs.Gives here content)
      (hc : w.current? here (Sha256.hexDigest content) = none)
      (ha : (w.analyzer pack).outline content here l = .ok o) :
      IndexExit w pack fs here language (some o) (w.store here ⟨o, Sha256.hexDigest content⟩)

/-- Indexing a file changes nothing that is held for other paths. -/
theorem IndexExit.holds_of_ne {here there : String} {language : Option String}
    {outline : Option Outline} {v : Workspace} {kept : Option Analysed}
    (hx : IndexExit w pack fs here language outline v) (hne : there ≠ here)
    (h : w.Holds there kept) : v.Holds there kept := by
  have hdrop : (w.drop here).Holds there kept := by
    have hgone := h.drop here
    rwa [if_neg hne] at hgone
  cases hx with
  | noLanguage => exact h
  | unreadable => exact hdrop
  | unchanged => exact h
  | failed => exact hdrop
  | @analysed _ content o =>
    have hstore := h.store here ⟨o, Sha256.hexDigest content⟩
    rwa [if_neg hne] at hstore

theorem IndexExit.settings_eq {here : String} {language : Option String}
    {outline : Option Outline} {v : Workspace} (hx : IndexExit w pack fs here language outline v) :
    v.config = w.config ∧ v.registry = w.registry := by
  cases hx <;> exact ⟨rfl, rfl⟩

/-- To remove a resolved path is to drop its entry. -/
theorem value_removeFile {here : Location} (w : Workspace) (hs : fs.volume.Settled here) :
    (w.removeFile fs here.text).value
      = (.ok (w.index.get? here.text).isSome, w.drop here.text) := by
  rw [removeFile, FileSystem.resolve_text hs]
  rfl

/-- To give a resolved path up is to drop its entry. -/
theorem value_giveUp {here : Location} {e : Failure} (w : Workspace) (hs : fs.volume.Settled here)
    (language : String) :
    (w.giveUp fs here.text language e).value = (.ok none, w.drop here.text) := by
  simp only [giveUp, Traced.value_bind, Traced.value_pure, value_removeFile w hs]
  rfl

theorem refresh_exit {here : Location} {l : String} {language : Option String} {content : Bytes}
    (hs : fs.volume.Settled here) (hl : languageFor language here.text = some l)
    (hr : fs.Gives here.text content) :
    ∃ outline after,
      (w.refresh pack fs here.text l (Source.ofBytes content)).value = (.ok outline, after) ∧
        IndexExit w pack fs here.text language outline after := by
  unfold refresh
  split
  · next o hc => exact ⟨some o, w, rfl, .unchanged hl hr hc⟩
  · next hc =>
    simp only [Traced.value_bind, value_analyzeSource]
    cases ha : (w.analyzer pack).outline content here.text l with
    | error e => exact ⟨none, _, value_giveUp w hs l, .failed hl hr hc ha⟩
    | ok o => exact ⟨some o, _, rfl, .analysed hl hr hc ha⟩

/-- Indexing the file at a resolved path ends in one of the five ways. -/
theorem indexAt_exit {here : Location} (w : Workspace) (pack : GrammarPack)
    (hs : fs.volume.Settled here) (language : Option String) :
    ∃ outline after, (w.indexAt pack fs here.text language).value = (.ok outline, after) ∧
      IndexExit w pack fs here.text language outline after := by
  unfold indexAt
  split
  · next hl => exact ⟨none, w, rfl, .noLanguage hl⟩
  · next l hl =>
    split
    · next e hr => exact ⟨none, _, value_giveUp w hs l, .unreadable hl hr⟩
    · next source hr =>
      obtain ⟨content, hc, rfl⟩ := FileSystem.readSource_eq_ok hr
      exact refresh_exit hs hl hc

/-- Indexing the file that a path names fails if the path cannot be resolved, and otherwise ends in
one of the five ways. -/
theorem indexFile_exit (w : Workspace) (pack : GrammarPack) (fs : FileSystem) (path : String)
    (language : Option String) :
    (∃ e, fs.resolve (Path.parse path) = .error e ∧
        (w.indexFile pack fs path language).value = (.error e, w)) ∨
      ∃ here outline after, fs.resolve (Path.parse path) = .ok here ∧
        (w.indexFile pack fs path language).value = (.ok outline, after) ∧
        IndexExit w pack fs here.text language outline after := by
  unfold indexFile
  split
  · next e hr => exact Or.inl ⟨e, hr, rfl⟩
  · next here hr =>
    obtain ⟨outline, after, hv, hx⟩ :=
      indexAt_exit w pack (FileSystem.settled_of_resolve hr) language
    exact Or.inr ⟨here, outline, after, hr, hv, hx⟩

/-- Removing a file drops its entry, unless its path cannot be resolved. -/
theorem removeFile_exit (w : Workspace) (fs : FileSystem) (path : String) :
    (w.removeFile fs path).value.2 = w ∨
      ∃ here, fs.resolve (Path.parse path) = .ok here ∧
        (w.removeFile fs path).value.2 = w.drop here.text := by
  unfold removeFile
  split
  · exact Or.inl rfl
  · next here hr => exact Or.inr ⟨here, hr, rfl⟩

end Workspace

end SourceIndex
