import Mathlib.Data.List.Perm.Subperm
import SourceIndex.Proofs.CodeIndex.ByName
import SourceIndex.Proofs.Session.Isolation

/-!
# The most complex functions of a workspace

The overview of a workspace ends with its most complex functions.  They are found by sorting all
functions and cutting the list.  What this comes to is said without sorting: of two functions the
more complex one stands *above* the other, and of two that are equally complex the one whose place
in the index comes first (`Above`).

Sorting moves no function past another of the same complexity (`filter_ranked`), and so **the
ranking is in the order of standing above** (`pairwise_ranked`).  What is left of it when it is cut
is the top of the index (`isTop_take`), and no other list is (`IsTop.unique`).
-/

namespace SourceIndex

namespace CodeIndex

variable {x : CodeIndex} {limit : Nat} {listed other : List (Place × String × FunctionInfo)}
  {a b : Place × String × FunctionInfo}

/-! ## Standing above -/

/-- One function stands above another: it is more complex, or as complex and its place comes
first. -/
def Above (a b : Place × String × FunctionInfo) : Prop :=
  b.2.2.complexity < a.2.2.complexity ∨
    b.2.2.complexity = a.2.2.complexity ∧ a.1.Before b.1

instance (a b : Place) : Decidable (a.Before b) :=
  inferInstanceAs (Decidable (_ ∨ _))

instance (a b : Place × String × FunctionInfo) : Decidable (Above a b) :=
  inferInstanceAs (Decidable (_ ∨ _))

theorem Above.asymm (h : Above a b) : ¬Above b a := by
  simp only [Above, Place.Before] at h ⊢
  omega

/-! ## The ranking -/

/-- Whether one function is at least as complex as another. -/
def atLeast (a b : Place × String × FunctionInfo) : Bool :=
  decide (b.2.2.complexity ≤ a.2.2.complexity)

/-- All functions with their places, in the order of the ranking. -/
def ranked (x : CodeIndex) : List (Place × String × FunctionInfo) :=
  x.placed.mergeSort atLeast

theorem atLeast_trans (a b c : Place × String × FunctionInfo) (hab : atLeast a b = true)
    (hbc : atLeast b c = true) : atLeast a c = true := by
  simp only [atLeast, decide_eq_true_eq] at hab hbc ⊢
  omega

theorem atLeast_total (a b : Place × String × FunctionInfo) :
    (atLeast a b || atLeast b a) = true := by
  simp only [atLeast, Bool.or_eq_true, decide_eq_true_eq]
  omega

theorem map_snd_ranked (x : CodeIndex) : x.ranked.map Prod.snd = x.ranking := by
  rw [ranked, ranking, ← map_snd_placed]
  exact List.map_mergeSort (fun _ _ _ _ => rfl)

theorem ranked_perm (x : CodeIndex) : x.ranked.Perm x.placed :=
  List.mergeSort_perm x.placed atLeast

/-- **Functions of one complexity are ranked in the order of their places.** -/
theorem filter_ranked (x : CodeIndex) (n : Int) :
    x.ranked.filter (fun e => e.2.2.complexity == n)
      = x.placed.filter (fun e => e.2.2.complexity == n) := by
  have hequal : (x.placed.filter (fun e => e.2.2.complexity == n)).Pairwise
      (fun a b => atLeast a b = true) := by
    refine List.pairwise_of_forall_mem_list ?_
    intro a ha b hb
    have hna := (List.mem_filter.mp ha).2
    have hnb := (List.mem_filter.mp hb).2
    simp only [beq_iff_eq] at hna hnb
    simp [atLeast, hna, hnb]
  -- They were in order before, so that sorting keeps them as they stand, and it adds none.
  have hkept := List.sublist_mergeSort atLeast_trans atLeast_total hequal List.filter_sublist
  have hfilter := hkept.filter (fun e => e.2.2.complexity == n)
  rw [List.filter_filter] at hfilter
  simp only [Bool.and_self] at hfilter
  exact (hfilter.eq_of_length (x.ranked_perm.filter _).length_eq.symm).symm

/-- The ranking is in the order of standing above. -/
theorem pairwise_ranked (x : CodeIndex) : x.ranked.Pairwise Above := by
  have hsorted := List.pairwise_mergeSort atLeast_trans atLeast_total x.placed
  rw [List.pairwise_iff_forall_sublist] at hsorted ⊢
  intro a b hab
  have hle : b.2.2.complexity ≤ a.2.2.complexity := by simpa [atLeast] using hsorted hab
  rcases Int.lt_or_eq_of_le hle with hlt | heq
  · exact Or.inl hlt
  · have hfilter := hab.filter (fun e => e.2.2.complexity == a.2.2.complexity)
    rw [filter_ranked] at hfilter
    have hplaced : [a, b].Sublist x.placed := by
      refine List.Sublist.trans ?_ (hfilter.trans List.filter_sublist)
      simp [heq]
    exact Or.inr ⟨heq, List.pairwise_iff_forall_sublist.mp x.pairwise_placed hplaced⟩

/-! ## The top -/

/-- A list is the top of an index, at most `limit` functions long: as many functions as there can
be, each at its place and one above the next, and all of them above every other. -/
structure IsTop (x : CodeIndex) (limit : Nat) (listed : List (Place × String × FunctionInfo)) :
    Prop where
  length_eq : (listed.length : Int) = min (limit : Int) x.totalFunctions
  stands : ∀ place location, (place, location) ∈ listed → x.HasAt place location
  ordered : listed.Pairwise Above
  others : ∀ place location, x.HasAt place location → (place, location) ∉ listed →
    ∀ e ∈ listed, Above e (place, location)

theorem Balanced.length_placed (h : x.Balanced) : (x.placed.length : Int) = x.totalFunctions := by
  rw [h.functions, ← length_functions, ← map_snd_placed, List.length_map]

theorem isTop_of_placed (hlength : (listed.length : Int) = min (limit : Int) x.totalFunctions)
    (hsubset : ∀ e ∈ listed, e ∈ x.placed) (hordered : listed.Pairwise Above)
    (hothers : ∀ e ∈ x.placed, e ∉ listed → ∀ above ∈ listed, Above above e) :
    x.IsTop limit listed where
  length_eq := hlength
  stands _ _ h := mem_placed_iff.mp (hsubset _ h)
  ordered := hordered
  others _ _ h hnot := hothers _ (mem_placed_iff.mpr h) hnot

/-- **The ranking, cut off, is the top** of a balanced index. -/
theorem isTop_take (h : x.Balanced) (limit : Nat) : x.IsTop limit (x.ranked.take limit) := by
  have hsplit := x.pairwise_ranked
  rw [← List.take_append_drop limit x.ranked, List.pairwise_append] at hsplit
  refine isTop_of_placed ?_ ?_ hsplit.1 ?_
  · rw [List.length_take, x.ranked_perm.length_eq, ← h.length_placed]
    omega
  · intro e he
    exact x.ranked_perm.mem_iff.mp (List.mem_of_mem_take he)
  · intro e he hnot above habove
    have hranked := x.ranked_perm.mem_iff.mpr he
    rw [← List.take_append_drop limit x.ranked, List.mem_append] at hranked
    exact hsplit.2.2 above habove e (hranked.resolve_left hnot)

theorem nodup_of_pairwise_above (h : listed.Pairwise Above) : listed.Nodup := by
  refine h.imp ?_
  rintro a _ hab rfl
  exact hab.asymm hab

theorem IsTop.subset (h : x.IsTop limit listed) (h' : x.IsTop limit other) : listed ⊆ other := by
  intro e he
  by_contra hnot
  have hlength : listed.length = other.length := by
    have := h.length_eq.trans h'.length_eq.symm
    omega
  -- As many stand in the other list, so that one of them does not stand in this one.
  obtain ⟨f, hf, hfnot⟩ : ∃ f ∈ other, f ∉ listed := by
    by_contra hnone
    have hsubset : other ⊆ listed := by
      intro f hf
      by_contra hfnot
      exact hnone ⟨f, hf, hfnot⟩
    have hperm := (List.subperm_of_subset (nodup_of_pairwise_above h'.ordered)
      hsubset).perm_of_length_le hlength.le
    exact hnot (hperm.mem_iff.mpr he)
  have habove := h.others f.1 f.2 (h'.stands f.1 f.2 hf) hfnot e he
  exact habove.asymm (h'.others e.1 e.2 (h.stands e.1 e.2 he) hnot f hf)

/-- An index has one top. -/
theorem IsTop.unique (h : x.IsTop limit listed) (h' : x.IsTop limit other) : listed = other := by
  have hperm : listed.Perm other :=
    (List.perm_ext_iff_of_nodup (nodup_of_pairwise_above h.ordered)
      (nodup_of_pairwise_above h'.ordered)).mpr
      (fun e => ⟨fun he => h.subset h' he, fun he => h'.subset h he⟩)
  exact hperm.eq_of_pairwise (fun a b _ _ hab hba => absurd hba hab.asymm) h.ordered h'.ordered

/-- The top of an index is empty exactly if the index has no functions. -/
theorem IsTop.eq_nil_iff (h : x.IsTop limit listed) (hx : x.Balanced) (hlimit : 0 < limit) :
    listed = [] ↔ ∀ place location, ¬x.HasAt place location := by
  constructor
  · rintro rfl place location hat
    have hplaced : 0 < x.placed.length := List.length_pos_of_mem (mem_placed_iff.mpr hat)
    have hlength := h.length_eq
    have htotal := hx.length_placed
    rw [List.length_nil] at hlength
    omega
  · intro hnone
    rw [List.eq_nil_iff_forall_not_mem]
    rintro ⟨place, location⟩ he
    exact hnone place location (h.stands place location he)

end CodeIndex

/-! ## The overview -/

namespace Session

open CodeIndex (Place IsTop)

variable {w : Workspace}

/-- The last part of an overview, which lists the given functions; there is none without them. -/
def rankedPart : List (Place × String × FunctionInfo) → List String
  | [] => []
  | listed => "\nMost complex functions:" :: listed.map (fun e => rankedLine e.2)

/-- An answer shows the counts of a workspace and the top ten of its index, each with the path of
its file; it shows none of this exactly if the index has no functions. -/
def ShowsTop (root : String) (w : Workspace) (answer : String) : Prop :=
  ∃ listed, w.index.IsTop 10 listed ∧ (∀ other, w.index.IsTop 10 other → other = listed) ∧
    answer = overviewOf root w.index.size w.stats.sortedCounts w.index.totalFunctions
      w.index.totalClasses (rankedPart listed) ∧
    (rankedPart listed = [] ↔ ∀ place location, ¬w.index.HasAt place location)

theorem rankedLines_eq (w : Workspace) :
    rankedLines w = rankedPart (w.index.ranked.take overviewLimit) := by
  have hmap : mostComplex w = (w.index.ranked.take overviewLimit).map Prod.snd := by
    rw [mostComplex, ← CodeIndex.map_snd_ranked, List.map_take]
  unfold rankedLines
  rw [hmap]
  cases w.index.ranked.take overviewLimit with
  | nil => rfl
  | cons e rest => simp [rankedPart]

theorem rankedPart_eq_nil_iff {listed : List (Place × String × FunctionInfo)} :
    rankedPart listed = [] ↔ listed = [] := by
  cases listed <;> simp [rankedPart]

theorem showsTop_overviewAnswer (h : w.index.Balanced) (root : String) :
    ShowsTop root w (overviewAnswer root w) := by
  have htop : w.index.IsTop 10 (w.index.ranked.take overviewLimit) := CodeIndex.isTop_take h 10
  refine ⟨_, htop, fun other hother => hother.unique htop, ?_, ?_⟩
  · rw [overviewAnswer, rankedLines_eq]
    rfl
  · rw [rankedPart_eq_nil_iff]
    exact htop.eq_nil_iff h (by decide)

/-- **The overview lists the top ten** of every index, whatever was added to it and removed from it:
as many functions as there are, but ten at most, the more complex first, in the order of the index
where they are equally complex, and none left out that stands above one of them.  So does every
overview that is answered in a session. -/
theorem overview_lists_top [PatternEngine] :
    (∀ (history : List CodeIndex.Change) (w : Workspace) (root : String),
        w.index = CodeIndex.empty.run history → ShowsTop root w (overviewAnswer root w)) ∧
      ∀ (pack : GrammarPack) (moments : List Moment) (now : Moment) (project root : String),
        now.request = .workspaceOverview project → now.isFor root = true →
        ∀ w, (reached pack moments).workspaces.get? root = some w →
          ∃ answer, ((reached pack moments).respond pack now).1 = .ok answer ∧
            ShowsTop root w answer := by
  constructor
  · intro history w root hindex
    refine showsTop_overviewAnswer ?_ root
    rw [hindex]
    exact (CodeIndex.determinedBy_empty.run history).balanced
  · intro pack moments now project root hq hnow w hw
    refine ⟨overviewAnswer root w, ?_, showsTop_overviewAnswer (tallied_reached hw).2 root⟩
    rw [respond_overview hq hnow, hw]
    rfl

/-- An outline with functions of the given complexities. -/
def graded (complexities : List Int) : Outline :=
  { fileName := "", language := "python"
    functions := complexities.map (fun n => { CodeIndex.bareFunction "f" with complexity := n }) }

/-- Twelve functions are equally complex, and one in the second file is more complex than they. -/
def tied : List CodeIndex.Change :=
  [.add "/b" (graded (List.replicate 7 2)), .add "/a" (graded (3 :: List.replicate 5 2))]

/-- A workspace with these functions. -/
def tiedWorkspace : Workspace :=
  { opened Workspace.blankPack "/ws" with index := CodeIndex.empty.run tied }

/-- The places that the top ten of these functions have. -/
def tiedPlaces : List Place :=
  ⟨1, 0⟩ :: (List.range 7).map (⟨0, ·⟩) ++ [⟨1, 1⟩, ⟨1, 2⟩]

/-- The cut goes through the functions of the second file; without functions nothing is listed. -/
theorem overview_lists_top_tied :
    (∃ listed, tiedWorkspace.index.IsTop 10 listed ∧ listed.map Prod.fst = tiedPlaces ∧
        overviewAnswer "/ws" tiedWorkspace
          = overviewOf "/ws" 2 tiedWorkspace.stats.sortedCounts 13 0 (rankedPart listed)) ∧
      ∃ answer, ((reached Workspace.blankPack twoRoots).respond Workspace.blankPack
          (twoFilesMoment (.workspaceOverview "/ws/."))).1 = .ok answer ∧
        ShowsTop "/ws" twoFiles answer := by
  constructor
  · have htop : tiedWorkspace.index.IsTop 10 (tiedWorkspace.index.placed.filter
        (fun e => e.1 ∈ tiedPlaces && e.2.2.complexity == 3) ++ tiedWorkspace.index.placed.filter
        (fun e => e.1 ∈ tiedPlaces && e.2.2.complexity == 2)) :=
      CodeIndex.isTop_of_placed (by decide +kernel) (by decide +kernel) (by decide +kernel)
        (by decide +kernel)
    obtain ⟨listed, hlisted, honly, hanswer, -⟩ :=
      overview_lists_top.1 tied tiedWorkspace "/ws" rfl
    refine ⟨listed, hlisted, ?_, hanswer⟩
    rw [← honly _ htop]
    decide +kernel
  · exact overview_lists_top.2 Workspace.blankPack twoRoots
      (twoFilesMoment (.workspaceOverview "/ws/.")) "/ws/." "/ws" rfl (by decide +kernel) twoFiles
      get?_twoRoots

end Session

end SourceIndex
