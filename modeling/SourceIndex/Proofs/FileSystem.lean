import SourceIndex.FileSystem.Looks
import SourceIndex.FileSystem.Source
import SourceIndex.Proofs.FileSystem.Links

/-!
# Where paths lead, and what reading gives

Resolving leads to settled locations (`settled_of_resolve`), and the text of a settled location is
resolved to the location itself (`resolve_text`).

A file *shows* at a location if it stands there or if a link does that leads to it (`Shows`).  What
shows below a directory is what is listed there (`mem_filesBelow`), and **a file is read where it
shows** (`read_eq_ok`), a fault apart.  What is read from the text of a settled location stands there
(`Gives.stands`).
-/

namespace SourceIndex

theorem eq_ok_of_toOption {ε α : Type} {x : Except ε α} {a : α} (h : x.toOption = some a) :
    x = .ok a := by
  cases x with
  | error e => cases h
  | ok b => rw [Option.some.inj h]

namespace FileSystem

variable {fs : FileSystem} {here : Location} {content : Bytes}

/-! ## Resolving -/

theorem resolve_eq_ok {path : Path} (h : fs.resolve path = .ok here) :
    path.holdsNull = false ∧
      fs.volume.resolve (path.start fs.workingDirectory ++ path.parts) = .ok here := by
  unfold resolve at h
  split at h
  · cases h
  · next hn =>
    split at h
    · next there hs => exact ⟨by simpa using hn, Except.ok.inj h ▸ hs⟩
    · cases h

/-- **What a path is resolved to is settled.** -/
theorem settled_of_resolve {text : String} (h : fs.resolve (Path.parse text) = .ok here) :
    fs.volume.Settled here := by
  obtain ⟨hnull, hs⟩ := resolve_eq_ok h
  refine Volume.settled_of_resolve ?_ hs
  intro part hp hup
  rcases List.mem_append.mp hp with hp | hp
  · exact proper_start fs.proper (Path.parse text) part hp
  · exact Path.proper_parse hnull part hp hup

theorem resolve_of_settled (h : fs.volume.Settled here) : fs.resolve here.path = .ok here := by
  have hstart : here.path.start fs.workingDirectory ++ here.path.parts = here := rfl
  rw [resolve, holdsNull_path h.proper, hstart, Volume.resolve_of_settled h]
  rfl

/-- **A settled location is resolved to itself**, and so is what a path was resolved to. -/
theorem resolve_text (h : fs.volume.Settled here) :
    fs.resolve (Path.parse here.text) = .ok here := by
  rw [parse_text h.proper]
  exact resolve_of_settled h

/-! ## What shows where -/

/-- What stands somewhere and is no link is reached by its path. -/
theorem reach?_of_entry {entry : Entry} (h : fs.standing? here = some entry)
    (hl : fs.volume.link? here = none) : fs.reach? here.path = some entry := by
  have hfollow : fs.follow here.path = .ok here := Volume.follow_of_entry h hl
  rw [reach?, hfollow]
  exact h

/-- What the path of a settled location reaches stands there. -/
theorem standing?_of_reach? {entry : Entry} (hs : fs.volume.Settled here)
    (h : fs.reach? here.path = some entry) : fs.standing? here = some entry := by
  unfold reach? at h
  split at h
  · next there hf =>
    have hthere : there = here := Volume.eq_of_follow hs hf
    exact hthere ▸ h
  · cases h

/-- A file shows at a location: it stands there, or a link that leads to it does. -/
structure Shows (fs : FileSystem) (here : Location) (content : Bytes) : Prop where
  stands : (fs.standing? here).isSome = true
  reached : fs.reach? here.path = some (.file content)

theorem shows_of_file (h : fs.standing? here = some (.file content)) : fs.Shows here content where
  stands := by
    rw [h]
    rfl
  reached := reach?_of_entry h (by rw [Volume.link?, show fs.volume.standing? here = _ from h])

theorem shows_looked {there : Location} :
    (fs.looked there).Shows here content ↔ fs.Shows here content := by
  constructor
  · rintro ⟨hs, hr⟩
    rw [standing?_looked] at hs
    rw [reach?_looked] at hr
    exact ⟨hs, hr⟩
  · rintro ⟨hs, hr⟩
    refine ⟨?_, ?_⟩
    · rwa [standing?_looked]
    · rwa [reach?_looked]

/-- What is reached in a settled directory shows there. -/
theorem shows_of_reach? {name : String} (hs : fs.volume.Settled here) (hn : Path.isName name = true)
    (h : fs.reach? (Location.path (here ++ [name])) = some (.file content)) :
    fs.Shows (here ++ [name]) content := by
  refine ⟨?_, h⟩
  cases hl : fs.volume.link? (here ++ [name]) with
  | some target =>
    have hlink : fs.standing? (here ++ [name]) = _ := Volume.link?_eq_some.mp hl
    rw [hlink]
    rfl
  | none =>
    have hstep : Path.step here name = here ++ [name] := by
      rw [Path.step, if_neg (by simpa using (Path.isName_iff.mp hn).2.1)]
    have hsettled : fs.volume.Settled (here ++ [name]) :=
      hstep ▸ hs.step (fun _ => hn) (hstep ▸ hl)
    rw [standing?_of_reach? hsettled h]
    rfl

theorem Shows.proper (h : fs.Shows here content) : here.Proper := by
  obtain ⟨entry, he⟩ := Option.isSome_iff_exists.mp h.stands
  exact Volume.proper_of_entry he

/-- What shows and is no link stands at a settled location. -/
theorem Shows.settled (h : fs.Shows here content) (hl : fs.volume.link? here = none) :
    fs.volume.Settled here := by
  obtain ⟨entry, he⟩ := Option.isSome_iff_exists.mp h.stands
  exact Volume.settled_of_entry he hl

theorem Shows.file (h : fs.Shows here content) (hl : fs.volume.link? here = none) :
    fs.standing? here = some (.file content) :=
  standing?_of_reach? (h.settled hl) h.reached

/-- A path is resolved: resolving leads to the place that it names. -/
def Resolved (fs : FileSystem) (path : String) : Prop :=
  ∃ here : Location, path = here.text ∧ fs.resolve (Path.parse path) = .ok here

/-- A path names a link. -/
def Linked (fs : FileSystem) (path : String) : Prop :=
  ∃ (here : Location) (target : Path), path = here.text ∧ fs.standing? here = some (.link target)

theorem resolved_of_settled (h : fs.volume.Settled here) : fs.Resolved here.text :=
  ⟨here, rfl, resolve_text h⟩

theorem resolved_of_resolve {path : String} (h : fs.resolve (Path.parse path) = .ok here) :
    fs.Resolved here.text :=
  resolved_of_settled (settled_of_resolve h)

/-- No link stands where a resolved path leads. -/
theorem Resolved.not_linked {path : String} (h : fs.Resolved path) : ¬fs.Linked path := by
  obtain ⟨here, rfl, hr⟩ := h
  rintro ⟨there, target, htext, hl⟩
  have hs := settled_of_resolve hr
  obtain rfl := text_injective hs.proper (Volume.proper_of_entry hl) htext
  have hnone := hs.unlinked here List.prefix_rfl
  rw [Volume.link?_eq_some.mpr hl] at hnone
  cases hnone

/-- **Where a file shows, its path is resolved unless it names a link.** -/
theorem Shows.resolved_iff (h : fs.Shows here content) :
    fs.Resolved here.text ↔ ¬fs.Linked here.text := by
  refine ⟨Resolved.not_linked, ?_⟩
  intro hn
  refine resolved_of_settled (h.settled (Option.eq_none_iff_forall_ne_some.mpr ?_))
  exact fun target hl => hn ⟨here, target, rfl, Volume.link?_eq_some.mp hl⟩

/-- No link in a directory, at any depth, leads to a file. -/
def Plain (fs : FileSystem) (root : Location) : Prop :=
  ∀ here content, root <+: here → fs.Shows here content → fs.volume.link? here = none

theorem not_linked_of_linkCount (h : fs.volume.linkCount = 0) (path : String) :
    ¬fs.Linked path := by
  rintro ⟨here, target, -, hl⟩
  have hnone := Volume.link?_of_linkCount h here
  rw [Volume.link?_eq_some.mpr hl] at hnone
  cases hnone

theorem plain_of_linkCount (h : fs.volume.linkCount = 0) (root : Location) : fs.Plain root :=
  fun here _ _ _ => Volume.link?_of_linkCount h here

/-! ## Listing -/

theorem below_of_lists {root : Location} (h : fs.lists root here = true) :
    root.isPrefixOf here = true ∧ root.length < here.length := by
  rw [lists, Bool.and_eq_true, Bool.and_eq_true, decide_eq_true_eq] at h
  exact h.1

theorem fileBelow?_eq_some {root : Location} {file : Location × Bytes} :
    fs.fileBelow? root here = some file ↔
      here = file.1 ∧ fs.lists root file.1 = true ∧
        fs.reach? (Location.path file.1) = some (.file file.2) := by
  obtain ⟨there, content⟩ := file
  unfold fileBelow?
  constructor
  · intro h
    split at h
    · next hlists =>
      split at h
      · next found hr =>
        obtain ⟨rfl, rfl⟩ := Prod.mk.inj (Option.some.inj h)
        exact ⟨rfl, hlists, hr⟩
      · cases h
    · cases h
  · rintro ⟨rfl, hlists, hr⟩
    rw [if_pos hlists]
    simp only [hr]

/-- The files below a directory are those that show there, that are not passed over, and that a look
does not miss. -/
theorem mem_filesBelow {root : Location} :
    (here, content) ∈ fs.filesBelow root ↔
      fs.Shows here content ∧ fs.lists root here = true ∧ fs.misses here = false := by
  have hstands (hlists : fs.lists root here = true) :
      here ∈ fs.volume.entries.keys ↔ (fs.standing? here).isSome = true := by
    have hne : here ≠ [] := List.ne_nil_of_length_pos (Nat.zero_lt_of_lt (below_of_lists hlists).2)
    rw [OrderedMap.mem_keys_iff, Option.isSome_iff_exists, ← Entry.at?_of_ne_nil hne]
    rfl
  rw [filesBelow, List.mem_mergeSort, List.mem_filter, List.mem_filterMap]
  simp only [Bool.not_eq_eq_eq_not, Bool.not_true]
  constructor
  · rintro ⟨⟨there, hmem, hfile⟩, hseen⟩
    obtain ⟨rfl, hlists, hr⟩ := fileBelow?_eq_some.mp hfile
    exact ⟨⟨(hstands hlists).mp hmem, hr⟩, hlists, hseen⟩
  · rintro ⟨⟨hentry, hr⟩, hlists, hseen⟩
    exact ⟨⟨here, (hstands hlists).mpr hentry, fileBelow?_eq_some.mpr ⟨rfl, hlists, hr⟩⟩, hseen⟩

/-- No two files are listed at one location. -/
theorem nodup_filesBelow (root : Location) : ((fs.filesBelow root).map Prod.fst).Nodup := by
  have hentries : (fs.volume.entries.keys.filterMap (fs.fileBelow? root)).Pairwise
      (fun a b => a.1 ≠ b.1) := by
    refine List.Pairwise.filterMap _ ?_ fs.volume.entries.nodup
    intro a a' hne b hb b' hb'
    rw [(fileBelow?_eq_some.mp hb).1, (fileBelow?_eq_some.mp hb').1] at hne
    exact hne
  have hshown := (List.pairwise_map.mpr hentries).sublist
    ((List.filter_sublist (p := fun file => !fs.misses file.1)).map Prod.fst)
  exact ((List.mergeSort_perm _ _).map Prod.fst).nodup_iff.mpr hshown

/-- **Files are listed in the order of their locations**, component by component. -/
theorem pairwise_filesBelow (root : Location) :
    ((fs.filesBelow root).map Prod.fst).Pairwise (· < ·) := by
  have hsorted : ((fs.filesBelow root).map Prod.fst).Pairwise (fun a b => ¬ b < a) := by
    refine List.pairwise_map.mpr (List.Pairwise.imp precedes_iff.mp ?_)
    refine List.pairwise_mergeSort ?_ ?_ _
    · intro a b c hab hbc
      exact precedes_iff.mpr (List.le_trans (precedes_iff.mp hab) (precedes_iff.mp hbc))
    · intro a b
      rw [Bool.or_eq_true, precedes_iff, precedes_iff]
      exact List.le_total a.1 b.1
  refine hsorted.imp₂ ?_ (fs.nodup_filesBelow root)
  intro a b hle hne
  exact List.not_le.mp (fun hge => hne (List.le_antisymm hle hge))

/-! ## Reading -/

/-- **A path is read exactly if it leads to a file** and reading it is not refused. -/
theorem read_eq_ok {path : Path} :
    fs.read path = .ok content ↔
      fs.unreadable.lookup path.text = none ∧ fs.reach? path = some (.file content) := by
  unfold read reach?
  cases fs.unreadable.lookup path.text with
  | some fault => simp
  | none =>
    cases fs.follow path with
    | error e => simp
    | ok there =>
      simp only [true_and]
      cases fs.standing? there with
      | none => simp
      | some entry => cases entry <;> simp

/-- Opening a path gives a content. -/
def Gives (fs : FileSystem) (path : String) (content : Bytes) : Prop :=
  (Path.parse path).holdsNull = false ∧ fs.read (Path.parse path) = .ok content

theorem Gives.unique {path : String} {found : Bytes} (h : fs.Gives path content)
    (hf : fs.Gives path found) : content = found :=
  Except.ok.inj (h.2.symm.trans hf.2)

theorem gives_text_iff (hp : here.Proper) :
    fs.Gives here.text content ↔
      fs.unreadable.lookup here.text = none ∧ fs.reach? here.path = some (.file content) := by
  rw [Gives, parse_text hp, read_eq_ok]
  exact and_iff_right (holdsNull_path hp)

/-- What the text of a settled location gives stands there. -/
theorem Gives.stands (h : fs.Gives here.text content) (hs : fs.volume.Settled here) :
    fs.standing? here = some (.file content) :=
  standing?_of_reach? hs ((gives_text_iff hs.proper).mp h).2

theorem Gives.readSource {path : String} (h : fs.Gives path content) :
    fs.readSource path = .ok (Source.ofBytes content) := by
  rw [FileSystem.readSource, if_neg (by simp [h.1]), h.2]

/-- A source is read from the content that opening its path gives. -/
theorem readSource_eq_ok {path : String} {source : Source} (h : fs.readSource path = .ok source) :
    ∃ content, fs.Gives path content ∧ source = Source.ofBytes content := by
  unfold FileSystem.readSource at h
  split at h
  · cases h
  · next hn =>
    split at h
    · next content hr => exact ⟨content, ⟨by simpa using hn, hr⟩, (Except.ok.inj h).symm⟩
    · cases h

/-! ## File systems that differ in a few places -/

/-- Outside of the given places the same files stand, with the same contents and the same faults.
Directories may come and go anywhere. -/
structure AgreesOutside (changed : List Location) (before after : FileSystem) : Prop where
  file : ∀ here ∉ changed, ∀ content,
    before.standing? here = some (.file content) ↔ after.standing? here = some (.file content)
  fault : ∀ here ∉ changed, before.unreadable.lookup here.text = after.unreadable.lookup here.text
  comesAndGoes : ∀ here ∉ changed, before.comesAndGoes here = after.comesAndGoes here
  misses : ∀ here ∉ changed, before.misses here = after.misses here

/-- **A file that has not changed reads the same**, also where directories have changed. -/
theorem AgreesOutside.gives {changed : List Location} {before after : FileSystem}
    (h : AgreesOutside changed before after) (hn : here ∉ changed)
    (he : before.standing? here = some (.file content)) (found : Bytes) :
    before.Gives here.text found ↔ after.Gives here.text found := by
  have hp : here.Proper := Volume.proper_of_entry he
  have hafter := (h.file here hn content).mp he
  rw [gives_text_iff hp, gives_text_iff hp, h.fault here hn, (shows_of_file he).reached,
    (shows_of_file hafter).reached]

theorem AgreesOutside.symm {changed : List Location} {before after : FileSystem}
    (h : AgreesOutside changed before after) : AgreesOutside changed after before where
  file := fun here hn content => (h.file here hn content).symm
  fault := fun here hn => (h.fault here hn).symm
  comesAndGoes := fun here hn => (h.comesAndGoes here hn).symm
  misses := fun here hn => (h.misses here hn).symm

/-- In a settled directory without links to files, what has not changed reads the same. -/
theorem AgreesOutside.read_in {changed : List Location} {before after : FileSystem}
    (h : AgreesOutside changed before after) {name : String} (hs : before.volume.Settled here)
    (hp : before.Plain here) (hname : Path.isName name = true) (hn : here ++ [name] ∉ changed)
    (hr : before.read (Location.path (here ++ [name])) = .ok content) :
    after.read (Location.path (here ++ [name])) = .ok content := by
  obtain ⟨hfault, hreach⟩ := read_eq_ok.mp hr
  have hshows := shows_of_reach? hs hname hreach
  have hfile := hshows.file (hp _ _ (List.prefix_append here [name]) hshows)
  refine read_eq_ok.mpr ⟨?_, (shows_of_file ((h.file _ hn content).mp hfile)).reached⟩
  exact (h.fault _ hn).symm.trans hfault

/-- File systems agree outside of the places where their files differ, if their faults are the
same. -/
theorem agreesOutside_of_entries {changed : List Location} {before after : FileSystem}
    (hb : ∀ e ∈ before.volume.entries.entries,
      e.2 = .directory ∨ e.1 ∈ changed ∨ e ∈ after.volume.entries.entries)
    (ha : ∀ e ∈ after.volume.entries.entries,
      e.2 = .directory ∨ e.1 ∈ changed ∨ e ∈ before.volume.entries.entries)
    (hf : before.unreadable = after.unreadable) (hv : before.vanishing = after.vanishing)
    (hg : before.glimpsed = after.glimpsed) : AgreesOutside changed before after where
  file := by
    intro here hn content
    by_cases hne : here = []
    · rw [hne]
      exact Iff.rfl
    · show Entry.at? _ _ = _ ↔ Entry.at? _ _ = _
      rw [Entry.at?_of_ne_nil hne, Entry.at?_of_ne_nil hne, ← OrderedMap.mem_entries_iff,
        ← OrderedMap.mem_entries_iff]
      constructor
      · intro he
        exact ((hb _ he).resolve_left (by simp)).resolve_left hn
      · intro he
        exact ((ha _ he).resolve_left (by simp)).resolve_left hn
  fault := by
    intro here _
    rw [hf]
  comesAndGoes := by
    intro here _
    rw [FileSystem.comesAndGoes, FileSystem.comesAndGoes, hv]
  misses := by
    intro here _
    rw [FileSystem.misses, FileSystem.misses, FileSystem.comesAndGoes, FileSystem.comesAndGoes, hv,
      hg]

end FileSystem

end SourceIndex
