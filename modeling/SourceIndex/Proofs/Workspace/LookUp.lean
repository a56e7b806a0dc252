import SourceIndex.Proofs.Workspace.IndexFile

/-!
# Looking up a line of a file without an entry

The function around a line is found in the entry of the file.  A file without an entry is analysed
on the way, and nothing is kept of that.  Indexing the file first goes another way, with its own
exits for what fails, and then looks the line up in what it has kept, or else analyses the file once
more.

**Both ways give the same answer, and the first leaves the workspace as it was**
(`enclosing?_of_unindexed`).  The answers agree in each of the ways in which indexing can end
(`IndexExit.value_enclosingAt?`): either the entry is what the analysis on the way comes to, or
there is again none, and what could not be analysed then cannot be analysed now.
-/

namespace SourceIndex

/-! ## Files after a request -/

namespace FileSystem

/-- What a request does to a file system changes neither where paths lead nor what is read there. -/
theorem resolve_read_after (fs : FileSystem) (events : List Event) (path : Path) :
    (fs.after events).resolve path = fs.resolve path ∧
      (fs.after events).read path = fs.read path := by
  induction events generalizing fs with
  | nil => exact ⟨rfl, rfl⟩
  | cons e rest ih =>
    obtain ⟨hresolve, hread⟩ := ih (fs.afterEvent e)
    cases e with
    | look here =>
      exact ⟨hresolve.trans (resolve_looked fs here path), hread.trans (read_looked fs here path)⟩
    | _ => exact ⟨hresolve, hread⟩

theorem resolve_after (fs : FileSystem) (events : List Event) (path : Path) :
    (fs.after events).resolve path = fs.resolve path :=
  (resolve_read_after fs events path).1

theorem readSource_after (fs : FileSystem) (events : List Event) (path : String) :
    (fs.after events).readSource path = fs.readSource path := by
  rw [readSource, readSource, (resolve_read_after fs events _).2]

end FileSystem

namespace Workspace

variable {pack : GrammarPack} {config : Config} {registry : Registry}
variable {w v : Workspace} {fs fs' : FileSystem} {here : String} {line : Int}

/-! ## One look-up -/

theorem value_enclosingAt?_of_entry {o : Outline} (h : w.index.get? here = some o) :
    (w.enclosingAt? pack fs here line).value = o.enclosing? line := by
  rw [enclosingAt?, h]
  rfl

/-- Without an entry, the answer is that of an attempt at the file, if its language is known. -/
theorem value_enclosingAt?_of_none (h : w.index.get? here = none) :
    (w.enclosingAt? pack fs here line).value
      = ((Path.parse here).language?.bind
          (fun language => (w.attempt pack fs here language).value)).bind
            (·.outline.enclosing? line) := by
  rw [enclosingAt?, h]
  cases (Path.parse here).language? with
  | none => rfl
  | some language => rfl

/-- Without an entry, the answer depends on the settings, and on what is read from the file. -/
theorem value_enclosingAt?_congr (hw : w.index.get? here = none) (hv : v.index.get? here = none)
    (hsettings : v.config = w.config ∧ v.registry = w.registry)
    (hread : fs'.readSource here = fs.readSource here) :
    (v.enclosingAt? pack fs' here line).value = (w.enclosingAt? pack fs here line).value := by
  rw [value_enclosingAt?_of_none hw, value_enclosingAt?_of_none hv]
  simp only [attempt_congr hsettings.1 hsettings.2 hread]

/-- **However indexing a file without an entry ends, the answer is the same afterwards.** -/
theorem IndexExit.value_enclosingAt? {answer : Option Outline}
    (hx : IndexExit w pack fs here none answer v) (hw : w.index.get? here = none)
    (hread : fs'.readSource here = fs.readSource here) :
    (v.enclosingAt? pack fs' here line).value = (w.enclosingAt? pack fs here line).value := by
  have hdropped : (w.drop here).index.get? here = none :=
    (CodeIndex.get?_remove w.index here here).trans (if_pos rfl)
  cases hx with
  | noLanguage => exact value_enclosingAt?_congr hw hw ⟨rfl, rfl⟩ hread
  | unreadable => exact value_enclosingAt?_congr hw hdropped ⟨rfl, rfl⟩ hread
  | failed => exact value_enclosingAt?_congr hw hdropped ⟨rfl, rfl⟩ hread
  | unchanged _ _ hc =>
    -- Nothing can be current without an entry.
    rw [(current?_eq_some.mp hc).1] at hw
    cases hw
  | @analysed l content o hl hr _ ha =>
    have hattempt : (w.attempt pack fs here l).value = some ⟨o, Sha256.hexDigest content⟩ :=
      value_attempt_eq_some.mpr ⟨content, hr, ha, rfl⟩
    have hlanguage : (Path.parse here).language? = some l := hl
    have hstored : (w.store here ⟨o, Sha256.hexDigest content⟩).index.get? here = some o :=
      (CodeIndex.get?_add w.index here here o).trans (if_pos rfl)
    rw [value_enclosingAt?_of_entry hstored, value_enclosingAt?_of_none hw, hlanguage,
      Option.bind_some, hattempt, Option.bind_some]

/-! ## Paths as they are given -/

/-- The file that a path leads to, if it leads anywhere, has no entry. -/
def Unindexed (w : Workspace) (fs : FileSystem) (path : String) : Prop :=
  ∀ here, fs.resolve (Path.parse path) = .ok here → here.text ∉ w.index.files.keys

theorem value_enclosing?_of_ok {path : String} {there : Location}
    (h : fs.resolve (Path.parse path) = .ok there) :
    (w.enclosing? pack fs path line).value
      = .ok (w.enclosingAt? pack fs there.text line).value := by
  rw [enclosing?, h]
  rfl

theorem value_enclosing?_of_error {path : String} {e : Failure}
    (h : fs.resolve (Path.parse path) = .error e) :
    (w.enclosing? pack fs path line).value = .error e := by
  rw [enclosing?, h]
  rfl

/-- **Looking up a line of a file without an entry answers what it would answer after the file has
been indexed, and leaves no trace**: whatever comes later, the workspace becomes what it would have
become without the look-up. -/
theorem enclosing?_of_unindexed [PatternEngine] (pack : GrammarPack) (config : Config)
    (registry : Registry) (history : List Moment) {path : String} (line : Int)
    (hn : Unindexed (reached pack config registry history) fs path) :
    (∀ later, reached pack config registry (history ++ ⟨fs, .enclosing path line⟩ :: later)
        = reached pack config registry (history ++ later)) ∧
      ((reached pack config registry history).enclosing? pack fs path line).value
        = (((reached pack config registry history).indexFile pack fs path none).value.2.enclosing?
            pack (fs.after ((reached pack config registry history).indexFile pack fs path
              none).events) path line).value := by
  constructor
  · intro later
    rw [reached, run_append, reached, run_append]
    rfl
  · generalize reached pack config registry history = w at hn ⊢
    generalize (w.indexFile pack fs path none).events = events
    rcases indexFile_exit w pack fs path none with
      ⟨e, hr, hv⟩ | ⟨there, answer, after, hr, hv, hx⟩
    · rw [hv, value_enclosing?_of_error hr,
        value_enclosing?_of_error ((fs.resolve_after events _).trans hr)]
    · have hw : w.index.get? there.text = none := OrderedMap.not_mem_keys_iff.mp (hn there hr)
      rw [hv, value_enclosing?_of_ok hr,
        value_enclosing?_of_ok ((fs.resolve_after events _).trans hr),
        hx.value_enclosingAt? hw (fs.readSource_after events there.text)]

/-- Every source is one function, named by all that it holds. -/
def wholePack : GrammarPack where
  loads _ := true
  parse _ source := .tree (.whole (.mk ⟨"function_definition", 0, source.length, 0, 0, [], 0⟩
    [.mk ⟨"identifier", 0, source.length, 0, 0, ["name"], 1⟩ []]) false)

/-- A Python file that comes and goes. -/
def flickering : FileSystem :=
  { FileSystem.bareWs.write (Path.parse "/ws/a.py") (.file (Utf8.encode "main".toList)) with
    vanishing := ["/ws/a.py"] }

/-- Whether a function of a name is answered. -/
def answersFunction (name : String) : Except Failure (Option FunctionInfo) → Bool
  | .ok (some f) => f.name == name
  | _ => false

/-- The function of the file is found though nothing is indexed, and found again in the entry. -/
theorem enclosing?_flickering :
    Unindexed (reached wholePack { projectRoot := "/ws" } twoLanguages []) flickering "../ws/a.py" ∧
      answersFunction "main" ((reached wholePack { projectRoot := "/ws" } twoLanguages
        []).enclosing? wholePack flickering "../ws/a.py" 1).value = true ∧
      ((reached wholePack { projectRoot := "/ws" } twoLanguages []).enclosing? wholePack
          flickering "../ws/a.py" 1).value
        = (((reached wholePack { projectRoot := "/ws" } twoLanguages []).indexFile wholePack
            flickering "../ws/a.py" none).value.2.enclosing? wholePack
              (flickering.after ((reached wholePack { projectRoot := "/ws" } twoLanguages
                []).indexFile wholePack flickering "../ws/a.py" none).events)
              "../ws/a.py" 1).value := by
  have hunindexed :
      Unindexed (reached wholePack { projectRoot := "/ws" } twoLanguages []) flickering
        "../ws/a.py" := fun _ _ hmem => by cases hmem
  exact ⟨hunindexed, by decide +kernel,
    (enclosing?_of_unindexed wholePack _ _ [] 1 hunindexed).2⟩

end Workspace

end SourceIndex
