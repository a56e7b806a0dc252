import SourceIndex.FileSystem.Basic
import SourceIndex.Trace

/-!
# Looking at files that come and go

A look at a location where things come and go decides what the next look there finds, so it is an
event of the trace.  The file system that an operation leaves behind follows from the events of the
operation (`FileSystem.after`).

Where nothing comes and goes, looking does nothing (`glance_eq_pure`, `looked_eq_self`).
-/

namespace SourceIndex.FileSystem

/-- Looks at a location. -/
def glance (fs : FileSystem) (here : Location) : Traced Unit :=
  if fs.comesAndGoes here then Traced.emit (.look here) else pure ()

/-- The file system after a look at a location. -/
def looked (fs : FileSystem) (here : Location) : FileSystem :=
  if !fs.comesAndGoes here then fs
  else if fs.glimpsed.contains here.text then
    { fs with glimpsed := fs.glimpsed.filter (· != here.text) }
  else { fs with glimpsed := here.text :: fs.glimpsed }

/-- The file system after an event. -/
def afterEvent (fs : FileSystem) : Event → FileSystem
  | .look here => fs.looked here
  | _ => fs

/-- The file system after several events. -/
def after (fs : FileSystem) (events : List Event) : FileSystem :=
  events.foldl afterEvent fs

/-- The looks at all that comes and goes below a directory. -/
def looksBelow (fs : FileSystem) (root : Location) : List Event :=
  (fs.volume.entries.keys.filter (fun here => fs.lists root here && fs.comesAndGoes here)).map .look

/-! ## What looking leaves alone -/

/-- Looking changes nothing but what has been glimpsed. -/
theorem exists_looked (fs : FileSystem) (here : Location) :
    ∃ glimpsed, fs.looked here = { fs with glimpsed } := by
  unfold looked
  split
  · exact ⟨_, rfl⟩
  · split <;> exact ⟨_, rfl⟩

@[simp] theorem volume_looked (fs : FileSystem) (here : Location) :
    (fs.looked here).volume = fs.volume := by
  obtain ⟨glimpsed, h⟩ := fs.exists_looked here
  rw [h]

@[simp] theorem standing?_looked (fs : FileSystem) (here there : Location) :
    FileSystem.standing? (fs.looked here) there = fs.standing? there := by
  obtain ⟨glimpsed, h⟩ := fs.exists_looked here
  rw [h]
  rfl

@[simp] theorem comesAndGoes_looked (fs : FileSystem) (here there : Location) :
    (fs.looked here).comesAndGoes there = fs.comesAndGoes there := by
  obtain ⟨glimpsed, h⟩ := fs.exists_looked here
  rw [h]
  rfl

theorem resolve_looked (fs : FileSystem) (here : Location) (path : Path) :
    (fs.looked here).resolve path = fs.resolve path := by
  obtain ⟨glimpsed, h⟩ := fs.exists_looked here
  rw [h]
  rfl

theorem reach?_looked (fs : FileSystem) (here : Location) (path : Path) :
    (fs.looked here).reach? path = fs.reach? path := by
  obtain ⟨glimpsed, h⟩ := fs.exists_looked here
  rw [h]
  rfl

theorem read_looked (fs : FileSystem) (here : Location) (path : Path) :
    (fs.looked here).read path = fs.read path := by
  obtain ⟨glimpsed, h⟩ := fs.exists_looked here
  rw [h]
  rfl

/-! ## Where nothing comes and goes -/

theorem glance_eq_pure {fs : FileSystem} {here : Location} (h : fs.comesAndGoes here = false) :
    fs.glance here = pure () := by
  simp [glance, h]

theorem looked_eq_self {fs : FileSystem} {here : Location} (h : fs.comesAndGoes here = false) :
    fs.looked here = fs := by
  simp [looked, h]

@[simp] theorem value_glance (fs : FileSystem) (here : Location) : (fs.glance here).value = () := rfl

/-! ## Every second look misses -/

/-- What comes and goes is missed by a look exactly if the look before did not miss it. -/
theorem misses_looked {fs : FileSystem} {here : Location} (h : fs.comesAndGoes here = true) :
    (fs.looked here).misses here = !fs.misses here := by
  rw [misses, misses, comesAndGoes_looked, h, Bool.true_and, Bool.true_and]
  unfold looked
  rw [h]
  by_cases hg : fs.glimpsed.contains here.text <;> simp_all

@[simp] theorem after_nil (fs : FileSystem) : fs.after [] = fs := rfl

theorem after_append (fs : FileSystem) (first second : List Event) :
    fs.after (first ++ second) = (fs.after first).after second :=
  List.foldl_append

end SourceIndex.FileSystem
