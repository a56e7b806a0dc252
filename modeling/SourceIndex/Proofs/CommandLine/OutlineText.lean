import SourceIndex.Proofs.CommandLine.Output
import SourceIndex.Proofs.Text.Utf8
import SourceIndex.Proofs.Workspace.Strictness
import Mathlib.Data.List.TakeWhile

/-!
# The outline in words, and the outline as JSON

An outline is shown in words or as JSON.  Up to the outline both do the same, and end the same way if
there is none (`runOutline_of_none`).  Once there is one, JSON is printed whatever the outline holds.
In words the first line of each import is printed, and an import without any text has no first line:
the command breaks off there.

So **the two end alike exactly if no import of the file's tree covers nothing**; and when the outline
is shown in words, it is shown in full, the imports line by line and then the functions
(`outline_text_iff`).
-/

namespace SourceIndex

namespace Text

/-! ## First lines -/

/-- A text up to where its first line ends. -/
def firstLine (text : List Char) : List Char := text.takeWhile (fun c => !endsLine c)

theorem firstLine_of_endsLine {c : Char} (h : endsLine c = true) (rest : List Char) :
    firstLine (c :: rest) = [] :=
  List.takeWhile_cons_of_neg (by simp [h])

theorem firstLine_of_not_endsLine {c : Char} (h : ¬endsLine c = true) (rest : List Char) :
    firstLine (c :: rest) = c :: firstLine rest :=
  List.takeWhile_cons_of_pos (by simp [h])

theorem head?_linesFrom (seen text : List Char) :
    (linesFrom seen text).head?
      = if seen = [] ∧ text = [] then none else some (seen.reverse ++ firstLine text) := by
  fun_induction linesFrom seen text with
  | case1 seen hseen => rw [List.isEmpty_iff.mp hseen]; rfl
  | case2 seen hseen =>
    rw [if_neg (fun h => hseen (List.isEmpty_iff.mpr h.1)), firstLine, List.takeWhile_nil,
      List.append_nil]
    rfl
  | case3 seen rest _ =>
    rw [if_neg (by simp), firstLine_of_endsLine (by decide), List.append_nil]
    rfl
  | case4 seen c rest _ hc _ =>
    rw [if_neg (by simp), firstLine_of_endsLine hc, List.append_nil]
    rfl
  | case5 seen c rest _ hc ih =>
    rw [ih, if_neg (by simp), if_neg (by simp), firstLine_of_not_endsLine hc, List.reverse_cons,
      List.append_assoc]
    rfl

/-- A text that is not empty has lines, the first of which is its first line. -/
theorem exists_lines_eq {text : List Char} (h : text ≠ []) :
    ∃ rest, lines text = firstLine text :: rest := by
  have hhead := head?_linesFrom [] text
  rw [if_neg (fun hnil => h hnil.2)] at hhead
  exact List.head?_eq_some_iff.mp hhead

end Text

namespace CommandLine

variable {world : World} {file : String} {asked : Option String} {o : Outline}

/-! ## What is printed in words -/

/-- The line about an import. -/
def importLine (text : String) : String :=
  "    " ++ String.ofList (Text.firstLine text.toList)

/-- The lines in which an outline is shown; the entry of a function may be of several lines if its
texts are. -/
def outlineLines (o : Outline) : List String :=
  [o.fileName ++ "  (" ++ o.language ++ ")"]
    ++ (if o.imports = [] then [] else ["  imports: " ++ Text.number o.imports.length])
    ++ o.imports.map importLine
    ++ (if o.classes = [] then [] else ["  classes: " ++ Text.joinWith ", " o.classes])
    ++ ["  functions: " ++ Text.number o.functions.length]
    ++ o.functions.map functionLine

/-- The imports are printed one line each, up to one without text. -/
theorem printImports_eq (imports : List String) :
    printImports imports
      = ⟨if "" ∈ imports then .error .emptyImport else .ok (),
          (imports.takeWhile (· ≠ "")).map (fun text => .out (importLine text))⟩ := by
  induction imports with
  | nil => rfl
  | cons text rest ih =>
    by_cases htext : text = ""
    · subst htext
      rfl
    · obtain ⟨later, hlines⟩ :=
        Text.exists_lines_eq (fun hnil => htext (String.toList_eq_nil_iff.mp hnil))
      rw [printImports, hlines, List.takeWhile_cons_of_pos (by simpa using htext)]
      simp only [ih, List.mem_cons, show ¬"" = text from fun h => htext h.symm, false_or]
      rfl

/-- An outline is printed in full unless an import of it is without text. -/
theorem value_printOutline (o : Outline) :
    (printOutline o).value = if "" ∈ o.imports then .error .emptyImport else .ok () := by
  unfold printOutline
  rw [printImports_eq]
  by_cases h : "" ∈ o.imports
  · rw [if_pos h]
    cases o.imports.isEmpty <;> rfl
  · rw [if_neg h]
    cases o.imports.isEmpty <;> cases o.classes.isEmpty <;> rfl

theorem events_printOutline (h : "" ∉ o.imports) :
    (printOutline o).events = (outlineLines o).map .out := by
  have hall : o.imports.takeWhile (· ≠ "") = o.imports := by
    refine List.takeWhile_eq_self_iff.mpr ?_
    intro text htext
    rw [decide_eq_true_eq]
    rintro rfl
    exact h htext
  unfold printOutline outlineLines
  rw [printImports_eq, if_neg h, hall]
  by_cases hi : o.imports = [] <;> by_cases hc : o.classes = [] <;>
    simp [hi, hc, print, Function.comp_def, -bind_pure_comp]

/-! ## With and without an outline -/

theorem value_readBuffer_eq_some {text language : String}
    (h : (readBuffer world file asked).value = .ok (some (text, language))) :
    ∃ content, world.fs.Gives file content ∧ Workspace.languageFor asked file = some language ∧
      text = (Source.ofBytes content).text := by
  unfold readBuffer at h
  split at h
  · cases h
  · next l hlanguage =>
    split at h
    · split at h <;> cases h
    · next source hread =>
      obtain ⟨content, hgives, rfl⟩ := FileSystem.readSource_eq_ok hread
      obtain ⟨rfl, rfl⟩ := Prod.mk.inj (Option.some.inj (Except.ok.inj h))
      exact ⟨content, hgives, hlanguage, rfl⟩

/-- Two runs are the same and do not end well. -/
structure FailsAlike (x y : Traced (Except Crash Finish)) : Prop where
  same : x = y
  fails : x.value ≠ .ok (.exit 0)

/-- Only what follows on the value that has come out matters. -/
theorem FailsAlike.after {α : Type} {x : Traced α} {f g : α → Traced (Except Crash Finish)}
    (h : FailsAlike (f x.value) (g x.value)) : FailsAlike (x >>= f) (x >>= g) := by
  refine ⟨?_, h.fails⟩
  change Traced.mk _ _ = Traced.mk _ _
  rw [h.same]

/-- Without an outline, it does not matter how it would be shown. -/
theorem runOutline_of_none (h : ∀ o, ¬world.OutlinesIn file asked o) :
    FailsAlike (runOutline world file asked false) (runOutline world file asked true) := by
  unfold runOutline withBuffer
  refine FailsAlike.after ?_
  cases hbuffer : (readBuffer world file asked).value with
  | error e => exact ⟨rfl, nofun⟩
  | ok found =>
    cases found with
    | none => exact ⟨rfl, nofun⟩
    | some buffer =>
      obtain ⟨text, language⟩ := buffer
      obtain ⟨content, hgives, hlanguage, rfl⟩ := value_readBuffer_eq_some hbuffer
      refine FailsAlike.after (FailsAlike.after ?_)
      cases hvalue : (Analyzer.analyze? _ (Source.ofBytes content).text language
          (Path.parse file).name).value with
      | error e => exact ⟨rfl, nofun⟩
      | ok outline =>
        cases outline with
        | none => exact ⟨rfl, nofun⟩
        | some o =>
          exact absurd ⟨content, language, hgives, hlanguage,
            Analyzer.outline_of_value_analyze? hvalue⟩ (h o)

/-- With an outline, words break off if an import is without text, and only then. -/
theorem value_runOutline (h : world.OutlinesIn file asked o) :
    (runOutline world file asked false).value
      = if "" ∈ o.imports then .error .emptyImport else .ok (.exit 0) := by
  obtain ⟨a, source, language, hvalue, heq⟩ := withBuffer_of_outlines h
  rw [runOutline, heq]
  by_cases hempty : "" ∈ o.imports
  · simp only [Traced.value_bind, hvalue, Bool.false_eq_true, if_false, value_printOutline,
      if_pos hempty]
    rfl
  · simp only [Traced.value_bind, hvalue, Bool.false_eq_true, if_false, value_printOutline,
      if_neg hempty]
    rfl

/-- Words are printed in full if no import is without text. -/
theorem leaves_runOutline_text (h : world.OutlinesIn file asked o) (hi : "" ∉ o.imports) :
    Leaves (runOutline world file asked false) 0
      (String.join ((outlineLines o).map (· ++ "\n"))) := by
  refine leaves_withBuffer h ?_
  intro a source language hvalue
  refine Leaves.after ?_ (reportsFrom_analyze? _ _ _ _).silent
  have hprint : printOutline o = ⟨.ok (), (outlineLines o).map .out⟩ := by
    have hok := value_printOutline o
    rw [if_neg hi] at hok
    rw [← hok, ← events_printOutline hi]
  simp only [hvalue, Bool.false_eq_true, if_false, hprint]
  exact leaves_emitAll (outlineLines o) 0

end CommandLine

/-! ## Imports that cover nothing -/

theorem Tree.ownImport?_eq_empty {table : LanguageTable} {source : Bytes} {t : Tree} :
    t.ownImport? table source = some "" ↔
      t.isOf table .importDecl = true ∧ t.node.bytes source = [] := by
  unfold Tree.ownImport?
  split
  · next h =>
    rw [Option.some.injEq, ← String.toList_eq_nil_iff, String.toList_ofList, Tree.text, Node.text,
      Utf8.decode_eq_nil_iff]
    exact (and_iff_right h).symm
  · next h => exact ⟨nofun, fun himport => absurd himport.1 h⟩

/-- The parser gives a whole tree, and a node of it is an import and covers no byte. -/
def Analyzer.MeetsEmptyImport (a : Analyzer) (content : Bytes) (language : String) : Prop :=
  ∃ table root hasError, a.registry.table? language = some table ∧
    a.registry.outcome? a.pack language (Source.ofBytes content)
      = some (.tree (.whole root hasError)) ∧
    ∃ s ∈ root.walk, s.isOf table .importDecl = true ∧
      s.node.bytes (Utf8.encode (Source.ofBytes content).text.toList) = []

theorem Analyzer.meetsEmptyImport_iff {a : Analyzer} {content : Bytes} {language : String}
    (ha : a.strict = false) (path : String) :
    a.MeetsEmptyImport content language ↔
      ∃ o, a.outline content path language = .ok o ∧ "" ∈ o.imports := by
  constructor
  · rintro ⟨table, root, hasError, htable, htree, s, hs, hempty⟩
    have hstrict : a.strict = true → hasError = false := by simp [ha]
    refine ⟨_, outline_eq_ok.mpr ⟨table, root, hasError, htable, htree, hstrict, rfl⟩, ?_⟩
    exact List.mem_filterMap.mpr ⟨s, hs, Tree.ownImport?_eq_empty.mpr hempty⟩
  · rintro ⟨o, houtline, hmem⟩
    obtain ⟨table, root, hasError, htable, htree, -, rfl⟩ := outline_eq_ok.mp houtline
    obtain ⟨s, hs, himport⟩ := List.mem_filterMap.mp hmem
    exact ⟨table, root, hasError, htable, htree, s, hs, Tree.ownImport?_eq_empty.mp himport⟩

namespace World

variable {world : World} {path : String} {asked : Option String} {o found : Outline}

/-- The file has a tree in the language that is asked for, or else in that of its suffix, and one of
the imports in it covers no byte. -/
def MeetsEmptyImport (world : World) (path : String) (asked : Option String) : Prop :=
  ∃ content language, world.fs.Gives path content ∧
    Workspace.languageFor asked path = some language ∧
    (Analyzer.mk world.pack (Registry.buildDefault world.pack).value false).MeetsEmptyImport content
      language

theorem OutlinesIn.unique (h : world.OutlinesIn path asked o)
    (hf : world.OutlinesIn path asked found) : o = found := by
  obtain ⟨content, language, hgives, hlanguage, houtline⟩ := h
  obtain ⟨content', language', hgives', hlanguage', houtline'⟩ := hf
  obtain rfl := hgives.unique hgives'
  obtain rfl := Option.some.inj (hlanguage.symm.trans hlanguage')
  exact Except.ok.inj (houtline.symm.trans houtline')

theorem meetsEmptyImport_iff :
    world.MeetsEmptyImport path asked ↔ ∃ o, world.OutlinesIn path asked o ∧ "" ∈ o.imports := by
  constructor
  · rintro ⟨content, language, hgives, hlanguage, hmeets⟩
    obtain ⟨o, houtline, hmem⟩ := (Analyzer.meetsEmptyImport_iff rfl path).mp hmeets
    exact ⟨o, ⟨content, language, hgives, hlanguage, houtline⟩, hmem⟩
  · rintro ⟨o, ⟨content, language, hgives, hlanguage, houtline⟩, hmem⟩
    exact ⟨content, language, hgives, hlanguage,
      (Analyzer.meetsEmptyImport_iff rfl path).mpr ⟨o, houtline, hmem⟩⟩

/-- With an outline, an import that covers nothing is one without text. -/
theorem OutlinesIn.meetsEmptyImport_iff_mem (h : world.OutlinesIn path asked o) :
    world.MeetsEmptyImport path asked ↔ "" ∈ o.imports := by
  rw [meetsEmptyImport_iff]
  constructor
  · rintro ⟨found, hf, hmem⟩
    rwa [h.unique hf]
  · intro hmem
    exact ⟨o, h, hmem⟩

end World

namespace CommandLine

/-! ## Words against JSON -/

/-- A text shows an outline: the imports on one line each, and then the functions, all in order. -/
structure ShowsOutline (o : Outline) (text : String) : Prop where
  text_eq : text = String.join ((outlineLines o).map (· ++ "\n"))
  one_line : ∀ i ∈ o.imports, ∀ c ∈ (importLine i).toList, Text.endsLine c = false

theorem endsLine_of_mem_importLine {text : String} {c : Char} (h : c ∈ (importLine text).toList) :
    Text.endsLine c = false := by
  rw [importLine, String.toList_append, List.mem_append] at h
  cases h with
  | inl hblank =>
    obtain rfl : c = ' ' := by simpa using hblank
    decide
  | inr hfirst =>
    rw [String.toList_ofList] at hfirst
    simpa using List.mem_takeWhile_imp hfirst

/-- **An outline in words ends like one as JSON, unless an import of the file's tree covers
nothing**: then the words break off, and JSON does not.  Words that end well show the outline. -/
theorem outline_text_iff (world : World) (file : String) (asked : Option String) :
    (((Command.outline file asked false).run world).value
        = ((Command.outline file asked true).run world).value ↔
      ¬world.MeetsEmptyImport file asked) ∧
    (world.MeetsEmptyImport file asked →
      ((Command.outline file asked false).run world).value = .error .emptyImport ∧
        ((Command.outline file asked true).run world).value = .ok (.exit 0)) ∧
    (((Command.outline file asked false).run world).value = .ok (.exit 0) →
      ∃ o, world.OutlinesIn file asked o ∧
        ShowsOutline o (stdout ((Command.outline file asked false).run world).events)) := by
  simp only [Command.run]
  by_cases houtline : ∃ o, world.OutlinesIn file asked o
  · obtain ⟨o, ho⟩ := houtline
    rw [ho.meetsEmptyImport_iff_mem, value_runOutline ho, (leaves_runOutline ho).value]
    by_cases hempty : "" ∈ o.imports
    · rw [if_pos hempty]
      exact ⟨⟨nofun, fun h => absurd hempty h⟩, fun _ => ⟨rfl, rfl⟩, nofun⟩
    · rw [if_neg hempty]
      refine ⟨⟨fun _ => hempty, fun _ => rfl⟩, fun h => absurd h hempty, fun _ => ⟨o, ho, ?_, ?_⟩⟩
      · exact (leaves_runOutline_text ho hempty).output
      · exact fun i _ c hc => endsLine_of_mem_importLine hc
  · have hnone : ∀ o, ¬world.OutlinesIn file asked o := not_exists.mp houtline
    have halike := runOutline_of_none hnone
    have hmeets : ¬world.MeetsEmptyImport file asked := by
      rw [World.meetsEmptyImport_iff]
      rintro ⟨o, ho, -⟩
      exact hnone o ho
    exact ⟨⟨fun _ => hmeets, fun _ => congrArg Traced.value halike.same⟩, fun h => absurd h hmeets,
      fun h => absurd h halike.fails⟩

/-- A Python file with a text, and a tree of it. -/
def pythonFile (text : String) (tree : Tree) : World where
  pack := { loads _ := true, parse _ _ := .tree (.whole tree false) }
  fs := FileSystem.bareWs.write (Path.parse "/ws/a.py") (.file (Utf8.encode text.toList))

/-- A file with one import, on two lines. -/
def longImport : World :=
  pythonFile "from a import (\nb)" (.mk ⟨"module", 0, 18, 0, 1, [], 0⟩
    [.mk ⟨"import_from_statement", 0, 18, 0, 1, [], 1⟩ []])

/-- The first line of a long import is shown. -/
theorem outline_text_longImport :
    ¬longImport.MeetsEmptyImport "/ws/a.py" none ∧
      ∃ o, longImport.OutlinesIn "/ws/a.py" none o ∧ ShowsOutline o
        "a.py  (python)\n  imports: 1\n    from a import (\n  functions: 0\n" := by
  obtain ⟨hiff, -, hshows⟩ := outline_text_iff longImport "/ws/a.py" none
  refine ⟨hiff.mp (by decide +kernel), ?_⟩
  obtain ⟨o, ho, htext⟩ := hshows (by decide +kernel)
  refine ⟨o, ho, ?_⟩
  have hstdout : stdout ((Command.outline "/ws/a.py" none false).run longImport).events
      = "a.py  (python)\n  imports: 1\n    from a import (\n  functions: 0\n" := by decide +kernel
  rwa [hstdout] at htext

/-- An empty file, in whose tree there is an import. -/
def missingImport : World :=
  pythonFile "" (.mk ⟨"module", 0, 0, 0, 0, [], 0⟩ [.mk ⟨"import_statement", 0, 0, 0, 0, [], 1⟩ []])

/-- An import that covers nothing is listed as JSON, and is fatal in words. -/
theorem outline_text_breaks_off :
    ((Command.outline "/ws/a.py" none true).run missingImport).value = .ok (.exit 0) ∧
      ((Command.outline "/ws/a.py" none false).run missingImport).value = .error .emptyImport := by
  decide +kernel

end CommandLine

end SourceIndex
