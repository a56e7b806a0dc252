import SourceIndex.Analyzer
import SourceIndex.Grammar.Desk
import SourceIndex.Proofs.OrderedMap

/-!
# What a registry knows of its languages

A registry is asked for a language in several ways: for its grammar, for a parser, for its table,
and whether it is there at all.  The table is looked up by the grammar, so that the answers agree
only as long as every registered grammar has a table (`Registry.Tabled`).  Whatever a process does
with its registries keeps that (`RegistryDesk.Tabled.act`), and so **the answers agree in every
registry that is ever at hand** (`Registry.Tabled.coherent`): an analysis refuses a language exactly
if it is not among the languages of the registry.

The building of a registry is followed language by language (`Draft.Follows`): what was tried, what
was loaded and what was registered is a function of the part of the mapping that is done.
-/

namespace SourceIndex

/-! ## Analyses that refuse a language -/

theorem ParseOutcome.check_ne_unsupportedLanguage (strict : Bool) (language l : String)
    (outcome : ParseOutcome) :
    outcome.check strict language ≠ .error (.unsupportedLanguage l) := by
  cases outcome with
  | nothing => simp [check]
  | raised reason => simp [check]
  | tree parsed =>
    show parsed.check strict language ≠ _
    unfold ParsedTree.check
    split <;> simp

theorem ParsedTree.root_ne_unsupportedLanguage (parsed : ParsedTree) (l : String) :
    parsed.root ≠ .error (.unsupportedLanguage l) := by
  cases parsed <;> simp [root]

namespace Analyzer

variable {a : Analyzer} {language l : String}

theorem parse_ne_unsupportedLanguage {grammar : String}
    (h : a.registry.grammar? language = some grammar) (source : Bytes) :
    (a.parse source language).value ≠ .error (.unsupportedLanguage l) := by
  rw [parse, Registry.parser?, h]
  exact ParseOutcome.check_ne_unsupportedLanguage _ _ _ _

/-- An analysis refuses a language exactly if there is no table for it; a language with a table has
a parser too, so that the refusal is never that of the parser. -/
theorem analyze_eq_unsupportedLanguage_iff (text fileName : String) :
    (a.analyze text language fileName).value = .error (.unsupportedLanguage l)
      ↔ a.registry.table? language = none ∧ l = language := by
  rw [analyze]
  cases ht : a.registry.table? language with
  | none => simp [eq_comm]
  | some table =>
    -- A language with a table has a grammar, so that neither the parser nor its tree refuses it.
    obtain ⟨grammar, hg, -⟩ := Option.bind_eq_some_iff.mp ht
    have hroot : (a.parse (Utf8.encode text.toList) language).value.bind ParsedTree.root
        ≠ .error (.unsupportedLanguage l) := by
      cases hp : (a.parse (Utf8.encode text.toList) language).value with
      | error e =>
        intro h
        exact parse_ne_unsupportedLanguage hg _
          (hp.trans (congrArg Except.error (Except.error.inj h)))
      | ok parsed => exact parsed.root_ne_unsupportedLanguage l
    refine iff_of_false ?_ (fun h => Option.some_ne_none table h.1)
    simp only [Traced.value_bind]
    split
    · next e he =>
      intro h
      exact hroot (he.trans (congrArg Except.error (Except.error.inj h)))
    · simp only [Traced.value_bind, Traced.value_pure, reduceCtorEq, not_false_eq_true]

end Analyzer

namespace Registry

/-! ## Languages -/

theorem mem_languages_iff {r : Registry} {language : String} :
    language ∈ r.languages ↔ (r.grammar? language).isSome := by
  rw [languages, List.mem_mergeSort, OrderedMap.mem_keys_iff, Option.isSome_iff_exists]
  rfl

/-- The languages of a registry are sorted, and none occurs twice. -/
theorem pairwise_languages (r : Registry) : r.languages.Pairwise (· < ·) := by
  have hsorted : r.languages.Pairwise (· ≤ ·) := by
    refine List.Pairwise.imp of_decide_eq_true (List.pairwise_mergeSort ?_ ?_ _)
    · intro a b c hab hbc
      exact decide_eq_true (String.le_trans (of_decide_eq_true hab) (of_decide_eq_true hbc))
    · intro a b
      rw [Bool.or_eq_true, decide_eq_true_iff, decide_eq_true_iff]
      exact String.le_total a b
  have hnodup : r.languages.Nodup := (List.mergeSort_perm _ _).nodup_iff.mpr r.grammars.nodup
  refine hsorted.imp₂ ?_ hnodup
  intro a b hle hne
  exact String.not_le.mp (fun hge => hne (String.le_antisymm hle hge))

/-- Every registered grammar has a table. -/
def Tabled (r : Registry) : Prop :=
  ∀ language grammar, r.grammar? language = some grammar →
    (LanguageTable.ofGrammar? grammar).isSome

/-- All ways of asking a registry for a language agree. -/
structure Coherent (r : Registry) : Prop where
  /-- The languages are sorted, and none occurs twice. -/
  sorted : r.languages.Pairwise (· < ·)
  contains_iff : ∀ language, r.contains language ↔ language ∈ r.languages
  grammar_iff : ∀ language, (r.grammar? language).isSome ↔ language ∈ r.languages
  parser_iff : ∀ pack language, (r.parser? pack language).isSome ↔ language ∈ r.languages
  table_iff : ∀ language, (r.table? language).isSome ↔ language ∈ r.languages
  /-- An analysis refuses the languages that are not there, and no others. -/
  refused_iff : ∀ pack strict text language fileName l,
    (Analyzer.analyze ⟨pack, r, strict⟩ text language fileName).value
        = .error (.unsupportedLanguage l)
      ↔ language ∉ r.languages ∧ l = language
  /-- Of a language that is there, the parser does not refuse any source. -/
  parsed : ∀ pack strict source, ∀ language ∈ r.languages, ∀ l,
    (Analyzer.parse ⟨pack, r, strict⟩ source language).value ≠ .error (.unsupportedLanguage l)

theorem Tabled.isSome_table?_iff {r : Registry} (h : r.Tabled) (language : String) :
    (r.table? language).isSome ↔ language ∈ r.languages := by
  rw [mem_languages_iff, table?]
  cases hg : r.grammar? language with
  | none => simp
  | some grammar => simpa using h language grammar hg

theorem Tabled.coherent {r : Registry} (h : r.Tabled) : r.Coherent where
  sorted := r.pairwise_languages
  contains_iff language := by
    rw [mem_languages_iff]
    rfl
  grammar_iff language := mem_languages_iff.symm
  parser_iff pack language := by rw [mem_languages_iff, parser?, Option.isSome_map]
  table_iff := h.isSome_table?_iff
  refused_iff pack strict text language fileName l := by
    rw [Analyzer.analyze_eq_unsupportedLanguage_iff, ← h.isSome_table?_iff,
      Option.not_isSome_iff_eq_none]
  parsed pack strict source language hl l := by
    rw [mem_languages_iff, Option.isSome_iff_exists] at hl
    obtain ⟨grammar, hg⟩ := hl
    exact Analyzer.parse_ne_unsupportedLanguage hg source

/-! ## Registering and removing -/

theorem value_register (r : Registry) (language grammar : String) :
    (r.register language grammar).value =
      if (LanguageTable.ofGrammar? grammar).isSome then .ok ⟨r.grammars.insert language grammar⟩
      else .error ⟨grammar⟩ := by
  rw [register]
  cases LanguageTable.ofGrammar? grammar <;> rfl

theorem tabled_empty : empty.Tabled := nofun

theorem Tabled.register {r changed : Registry} {language grammar : String} (h : r.Tabled)
    (hr : (r.register language grammar).value = .ok changed) : changed.Tabled := by
  rw [value_register] at hr
  split at hr
  · next htable =>
    obtain rfl := Except.ok.inj hr
    intro l g hg
    rw [grammar?, OrderedMap.get?_insert] at hg
    split at hg
    · exact Option.some.inj hg ▸ htable
    · exact h l g hg
  · cases hr

theorem Tabled.unregister {r : Registry} (h : r.Tabled) (language : String) :
    (r.unregister language).Tabled := by
  intro l g hg
  rw [grammar?, Registry.unregister, OrderedMap.get?_erase] at hg
  split at hg
  · cases hg
  · exact h l g hg

/-! ## Building -/

namespace Draft

variable {pack : GrammarPack} {d : Draft} {language grammar : String}

/-! ### Loading, which is remembered -/

theorem load_of_some {loaded : Bool} (h : d.tried.get? grammar = some loaded) :
    d.load pack grammar = pure (loaded, d) := by
  rw [load, h]

theorem value_load_of_none (h : d.tried.get? grammar = none) :
    (d.load pack grammar).value =
      (pack.loads grammar, { d with tried := d.tried.insert grammar (pack.loads grammar) }) := by
  rw [load, h]
  cases pack.loads grammar <;> rfl

theorem count_load_of_none (h : d.tried.get? grammar = none) (x : String) :
    (d.load pack grammar).events.count (.load x) = if x = grammar then 1 else 0 := by
  have hcount : ([.load grammar] : List Event).count (.load x) = if x = grammar then 1 else 0 := by
    by_cases hx : x = grammar
    · simp [hx]
    · simp [hx, Ne.symm hx]
  rw [load, h, ← hcount]
  cases pack.loads grammar <;> rfl

/-- What is remembered of a grammar is what the pack says of it. -/
def Remembers (pack : GrammarPack) (d : Draft) (grammar : String) : Prop :=
  ∀ loaded, d.tried.get? grammar = some loaded → loaded = pack.loads grammar

theorem Remembers.value_load (h : d.Remembers pack grammar) :
    (d.load pack grammar).value.1 = pack.loads grammar := by
  cases ht : d.tried.get? grammar with
  | none => rw [value_load_of_none ht]
  | some loaded =>
    rw [load_of_some ht]
    exact h loaded ht

theorem registry_load : (d.load pack grammar).value.2.registry = d.registry := by
  cases ht : d.tried.get? grammar with
  | none => rw [value_load_of_none ht]
  | some loaded => rw [load_of_some ht, Traced.value_pure]

theorem Remembers.get?_tried_load (h : d.Remembers pack grammar) (x : String) :
    (d.load pack grammar).value.2.tried.get? x =
      if x = grammar then some (pack.loads grammar) else d.tried.get? x := by
  cases ht : d.tried.get? grammar with
  | none => rw [value_load_of_none ht, OrderedMap.get?_insert]
  | some loaded =>
    rw [load_of_some ht, Traced.value_pure]
    split
    · next hx => rw [hx, ht, h loaded ht]
    · rfl

/-- A grammar is loaded only if it has not been tried before. -/
theorem count_load (x : String) :
    (d.load pack grammar).events.count (.load x) =
      if x = grammar ∧ d.tried.get? grammar = none then 1 else 0 := by
  cases ht : d.tried.get? grammar with
  | none => simp [count_load_of_none ht]
  | some loaded => simp [load_of_some ht]

/-! ### Taking in one language -/

theorem tried_add :
    (d.add pack language grammar).value.tried = (d.load pack grammar).value.2.tried := by
  simp only [add, Traced.value_bind]
  split
  · simp only [Traced.value_bind, value_register]
    split <;> rfl
  · rfl

theorem count_load_add (x : String) :
    (d.add pack language grammar).events.count (.load x)
      = (d.load pack grammar).events.count (.load x) := by
  simp only [add, Traced.events_bind, List.count_append, Nat.add_eq_left]
  split
  · simp only [register]
    cases LanguageTable.ofGrammar? grammar with
    | none => rfl
    | some table => rfl
  · rfl

theorem Remembers.registry_add (h : d.Remembers pack grammar) :
    (d.add pack language grammar).value.registry =
      if pack.loads grammar ∧ (LanguageTable.ofGrammar? grammar).isSome then
        ⟨d.registry.grammars.insert language grammar⟩
      else d.registry := by
  simp only [add, Traced.value_bind, h.value_load]
  cases pack.loads grammar with
  | false => exact registry_load
  | true =>
    simp only [reduceIte, Traced.value_bind, value_register, registry_load]
    cases LanguageTable.ofGrammar? grammar with
    | none => exact registry_load
    | some table => rfl

/-! ### Taking in a mapping -/

/-- How far the building of a registry has come, once the languages of `done` are taken in. -/
structure Follows (pack : GrammarPack) (done : List (String × String)) (x : Traced Draft) :
    Prop where
  /-- The grammars of these languages have been tried, and no others. -/
  tried : ∀ grammar, x.value.tried.get? grammar =
    if grammar ∈ done.map Prod.snd then some (pack.loads grammar) else none
  /-- Each of them was loaded once. -/
  loads : ∀ grammar, x.events.count (.load grammar) =
    if grammar ∈ done.map Prod.snd then 1 else 0
  /-- The languages whose grammar can be used are registered for it, and no others. -/
  registered : ∀ language grammar, x.value.registry.grammar? language = some grammar ↔
    (language, grammar) ∈ done ∧ pack.loads grammar ∧ (LanguageTable.ofGrammar? grammar).isSome

theorem follows_nil (pack : GrammarPack) :
    Follows pack [] (pure ⟨Registry.empty, OrderedMap.empty⟩) where
  tried _ := rfl
  loads _ := rfl
  registered _ _ := by simp [grammar?, Registry.empty]

theorem Follows.remembers {done : List (String × String)} {x : Traced Draft}
    (h : Follows pack done x) (grammar : String) : x.value.Remembers pack grammar := by
  intro loaded hl
  rw [h.tried] at hl
  split at hl
  · exact (Option.some.inj hl).symm
  · cases hl

/-- One more language is taken in; it is none of those that are done, so that what was registered for
them stays. -/
theorem Follows.add {done : List (String × String)} {x : Traced Draft} (h : Follows pack done x)
    (hnew : language ∉ done.map Prod.fst) (grammar : String) :
    Follows pack (done ++ [(language, grammar)])
      (x >>= fun d => d.add pack language grammar) := by
  have hgrammars (g : String) : g ∈ (done ++ [(language, grammar)]).map Prod.snd
      ↔ g ∈ done.map Prod.snd ∨ g = grammar := by
    rw [List.map_append, List.mem_append, List.map_singleton, List.mem_singleton]
  have hfresh (g : String) : x.value.registry.grammar? language ≠ some g := by
    intro hg
    exact hnew (List.mem_map.mpr ⟨(language, g), ((h.registered language g).mp hg).1, rfl⟩)
  constructor
  case tried =>
    intro g
    simp only [hgrammars, Traced.value_bind, tried_add, (h.remembers grammar).get?_tried_load,
      h.tried]
    by_cases hg : g = grammar
    · rw [if_pos hg, if_pos (Or.inr hg), hg]
    · simp only [hg, or_false, if_false]
  case loads =>
    intro g
    simp only [hgrammars, Traced.events_bind, List.count_append, count_load_add, count_load,
      h.loads, h.tried]
    by_cases hg : g = grammar
    · -- The grammar counts once, be it now or in `done`.
      subst hg
      by_cases hd : g ∈ done.map Prod.snd
      · simp only [hd, if_true, reduceCtorEq, and_false, if_false, or_true]
      · simp only [hd, if_false, and_self, if_true, or_true]
    · simp only [hg, or_false, false_and, if_false, Nat.add_zero]
  case registered =>
    intro l g
    rw [Traced.value_bind, (h.remembers grammar).registry_add, List.mem_append, or_and_right,
      ← h.registered, List.mem_singleton, Prod.mk.injEq]
    split
    · next husable =>
      rw [grammar?, OrderedMap.get?_insert]
      split
      · next hl =>
        constructor
        · intro hg
          obtain rfl := Option.some.inj hg
          exact Or.inr ⟨⟨hl, rfl⟩, husable⟩
        · rintro (hg | ⟨⟨-, rfl⟩, -⟩)
          · exact absurd (hl ▸ hg) (hfresh g)
          · rfl
      · next hl => simp only [hl, false_and, or_false, grammar?]
    · next hunusable =>
      refine (or_iff_left ?_).symm
      rintro ⟨⟨-, rfl⟩, husable⟩
      exact hunusable husable

theorem Follows.addAll {done : List (String × String)} {x : Traced Draft}
    (h : Follows pack done x) (rest : List (String × String))
    (hnodup : ((done ++ rest).map Prod.fst).Nodup) :
    Follows pack (done ++ rest) (x >>= Draft.addAll pack rest) := by
  induction rest generalizing done x with
  | nil =>
    have hnil : (x >>= Draft.addAll pack []) = x := bind_pure x
    rwa [List.append_nil, hnil]
  | cons entry rest ih =>
    obtain ⟨language, grammar⟩ := entry
    have hnew : language ∉ done.map Prod.fst := by
      rw [List.map_append, List.nodup_append] at hnodup
      intro hl
      exact hnodup.2.2 language hl language List.mem_cons_self rfl
    rw [List.append_cons] at hnodup ⊢
    -- Taking in the entry belongs to the trace so far for `ih`, and to the rest for `addAll`.
    have hrest := ih (h.add hnew grammar) hnodup
    rw [bind_assoc] at hrest
    exact hrest

end Draft

/-- What the building of a registry from a mapping comes to. -/
structure BuiltFrom (pack : GrammarPack) (mapping : OrderedMap String String)
    (x : Traced Registry) : Prop where
  /-- A language has the grammar that it is mapped to, if that loads and has a table, and else
  none. -/
  grammar_iff : ∀ language grammar, x.value.grammar? language = some grammar ↔
    mapping.get? language = some grammar ∧ pack.loads grammar
      ∧ (LanguageTable.ofGrammar? grammar).isSome
  /-- The grammars of the mapping are loaded, each of them once. -/
  loads : ∀ grammar, x.events.count (.load grammar) =
    if grammar ∈ mapping.values then 1 else 0

theorem builtFrom_build (pack : GrammarPack) (mapping : OrderedMap String String) :
    BuiltFrom pack mapping (build pack mapping) := by
  have hall := (Draft.follows_nil pack).addAll mapping.entries mapping.nodup
  rw [pure_bind, List.nil_append] at hall
  constructor
  case grammar_iff =>
    intro language grammar
    rw [← OrderedMap.mem_entries_iff]
    exact hall.registered language grammar
  case loads =>
    intro grammar
    rw [build, Traced.events_bind, Traced.events_pure, List.append_nil]
    exact hall.loads grammar

/-- A registry that is built has grammars with tables only. -/
theorem tabled_build (pack : GrammarPack) (mapping : OrderedMap String String) :
    (build pack mapping).value.Tabled := by
  intro language grammar hg
  exact (((builtFrom_build pack mapping).grammar_iff language grammar).mp hg).2.2

end Registry

/-! ## Whatever a process does with its registries -/

/-- What a process can do with its registries. -/
inductive RegistryAction where
  /-- Turns to a registry that is built from a mapping. -/
  | build (pack : GrammarPack) (mapping : OrderedMap String String)
  /-- Turns to the default registry. -/
  | turnToDefault (pack : GrammarPack)
  /-- Registers a grammar. -/
  | register (language grammar : String)
  /-- Loads a grammar and registers it. -/
  | load (pack : GrammarPack) (language grammar : String)
  /-- Removes a language. -/
  | unregister (language : String)

namespace RegistryDesk

/-- The registries after an action; a grammar that is refused leaves them as they were. -/
def act (d : RegistryDesk) : RegistryAction → RegistryDesk
  | .build pack mapping => d.turnTo (Registry.build pack mapping).value
  | .turnToDefault pack => (d.turnToDefault pack).value
  | .register language grammar => (d.register language grammar).value.toOption.getD d
  | .load pack language grammar => (d.load pack language grammar).value.toOption.getD d
  | .unregister language => d.unregister language

/-- The registries that a process has come to. -/
def reached (actions : List RegistryAction) : RegistryDesk := actions.foldl act {}

/-- In all registries of a process, every registered grammar has a table. -/
structure Tabled (d : RegistryDesk) : Prop where
  current : d.current.Tabled
  shared : ∀ r, d.shared = some r → r.Tabled

variable {d : RegistryDesk}

theorem Tabled.update (h : d.Tabled) {r : Registry} (hr : r.Tabled) : (d.update r).Tabled where
  current := hr
  shared found hf := by
    rw [RegistryDesk.update] at hf
    dsimp only at hf
    split at hf
    · exact Option.some.inj hf ▸ hr
    · exact h.shared found hf

theorem Tabled.register (h : d.Tabled) {language grammar : String} {changed : RegistryDesk}
    (hc : (d.register language grammar).value = .ok changed) : changed.Tabled := by
  simp only [RegistryDesk.register, Traced.value_bind] at hc
  split at hc
  · next r hr =>
    obtain rfl := Except.ok.inj hc
    exact h.update (h.current.register hr)
  · cases hc

theorem Tabled.turnToDefault (h : d.Tabled) (pack : GrammarPack) :
    (d.turnToDefault pack).value.Tabled := by
  have hr : ∀ r : Registry, r.Tabled → (⟨r, some r, true⟩ : RegistryDesk).Tabled := by
    intro r hr
    exact ⟨hr, fun found hf => Option.some.inj hf ▸ hr⟩
  rw [RegistryDesk.turnToDefault]
  cases hs : d.shared with
  | none => exact hr _ (Registry.tabled_build pack Registry.defaultMapping)
  | some r => exact hr r (h.shared r hs)

theorem Tabled.getD {x : Except RegisterError RegistryDesk} (h : d.Tabled)
    (hx : ∀ changed, x = .ok changed → changed.Tabled) : (x.toOption.getD d).Tabled := by
  cases x with
  | error e => exact h
  | ok changed => exact hx changed rfl

/-- Every action keeps to grammars with a table. -/
theorem Tabled.act (h : d.Tabled) (action : RegistryAction) : (d.act action).Tabled := by
  cases action with
  | build pack mapping => exact ⟨Registry.tabled_build pack mapping, h.shared⟩
  | turnToDefault pack => exact h.turnToDefault pack
  | register language grammar => exact h.getD (fun _ => h.register)
  | load pack language grammar =>
    refine h.getD ?_
    intro changed hc
    simp only [RegistryDesk.load, Traced.value_bind] at hc
    split at hc
    · exact h.register hc
    · cases hc
  | unregister language => exact h.update (h.current.unregister language)

theorem tabled_reached (actions : List RegistryAction) : (reached actions).Tabled :=
  List.foldlRecOn actions act ⟨Registry.tabled_empty, nofun⟩ (fun _ h action _ => h.act action)

/-- A grammar without a table is refused, and nothing changes. -/
theorem act_register_of_none {grammar : String} (h : LanguageTable.ofGrammar? grammar = none)
    (d : RegistryDesk) (language : String) : d.act (.register language grammar) = d := by
  rw [act, RegistryDesk.register, Registry.register, h]
  rfl

/-- **Whatever a process has done with its registries, the registry at hand gives for each language
all of grammar, parser and table or none of them**, and what is refused leaves it as it was; a
registry that is built from a mapping has the languages whose grammar loads and has a table, with
each grammar of the mapping loaded once. -/
theorem coherent_reached_and_builtFrom (actions : List RegistryAction) :
    (reached actions).current.Coherent
      ∧ (∀ language grammar, LanguageTable.ofGrammar? grammar = none →
          reached (actions ++ [.register language grammar]) = reached actions)
      ∧ ∀ pack mapping, Registry.BuiltFrom pack mapping (Registry.build pack mapping) := by
  refine ⟨(tabled_reached actions).current.coherent, ?_, Registry.builtFrom_build⟩
  intro language grammar h
  rw [reached, List.foldl_append]
  exact act_register_of_none h _ language

end RegistryDesk

end SourceIndex
