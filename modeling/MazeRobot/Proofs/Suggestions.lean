import Mathlib.Data.List.Basic
import Mathlib.Data.Set.Basic
import MazeRobot.Proofs.ByteOrder
import MazeRobot.Proofs.Edits
import MazeRobot.Text.Suggestion

/-! # Suggestions are nearest

A hint names the nearest candidate. Candidates are sorted first and then searched for the least
distance, once among those that the target abbreviates and, where there are none, once among all.
The first of several at the least distance is taken, which after sorting is the first by its bytes.
So the hint depends on the candidates alone, and neither on their order nor on how often they occur.

* `IsNearest`: the least by distance and then by bytes.
* `Abbreviates`, `expansions`, `misspellings`: the candidates that count.
* `isNearest_of_leastBy`: the search finds the least.
* `closest?_eq_some_iff`: what is found, in terms of the candidates as a set.
* `suggestion_nearest`: what a hint names. -/

namespace MazeRobot.Text

variable {target best : String} {candidates : List String}

/-! ## The nearest -/

/-- The least of some texts by their distance from a target; among those at one distance the least
by their bytes. -/
structure IsNearest (target : String) (among : Set String) (best : String) : Prop where
  /-- It is one of the texts. -/
  member : best ∈ among
  /-- The others are farther away, or as far with bytes that come later. -/
  least : ∀ other ∈ among, editDistance target best < editDistance target other ∨
    editDistance target best = editDistance target other ∧ utf8 best ≤ utf8 other

namespace IsNearest

variable {among : Set String}

/-- For `IsNearest` texts may be compared in place of their bytes. -/
theorem of_le (member : best ∈ among)
    (least : ∀ other ∈ among, editDistance target best < editDistance target other ∨
      editDistance target best = editDistance target other ∧ best ≤ other) :
    IsNearest target among best :=
  ⟨member, fun other inside =>
    (least other inside).imp_right (And.imp_right utf8_le_utf8_iff.mpr)⟩

/-- Only one text `IsNearest`. -/
theorem eq {another : String} (nearest : IsNearest target among best)
    (again : IsNearest target among another) : another = best := by
  have first := nearest.least another again.member
  have second := again.least best nearest.member
  have below : utf8 best ≤ utf8 another := by
    rcases first with less | ⟨-, ordered⟩
    · omega
    · exact ordered
  have above : utf8 another ≤ utf8 best := by
    rcases second with less | ⟨-, ordered⟩
    · omega
    · exact ordered
  exact String.le_antisymm (utf8_le_utf8_iff.mp above) (utf8_le_utf8_iff.mp below)

/-- The text that `IsNearest` of some texts is so of those that remain with it. -/
theorem of_subset {fewer : Set String} (nearest : IsNearest target among best)
    (part : fewer ⊆ among) (remains : best ∈ fewer) : IsNearest target fewer best :=
  ⟨remains, fun other member => nearest.least other (part member)⟩

end IsNearest

/-! ## The search -/

/-- `leastBy` finds nothing only where there is nothing. -/
theorem leastBy_eq_none_iff {key : String → Nat} {texts : List String} :
    leastBy key texts = none ↔ texts = [] := by
  cases texts with
  | nil => simp [leastBy]
  | cons s rest =>
    rw [leastBy]
    cases leastBy key rest with
    | none => simp
    | some found => by_cases less : key s ≤ key found <;> simp [less]

/-- **The first of the texts at the least distance, which `leastBy` finds, `IsNearest`** if they are
sorted. -/
theorem isNearest_of_leastBy {texts : List String} (sorted : texts.Pairwise (· ≤ ·))
    (found : leastBy (editDistance target) texts = some best) :
    IsNearest target {c | c ∈ texts} best := by
  -- The search goes from the back, so the first text is compared with the nearest of the others.
  induction texts generalizing best with
  | nil => cases found
  | cons s rest ih =>
    obtain ⟨first, later⟩ := List.pairwise_cons.mp sorted
    rw [leastBy] at found
    cases next : leastBy (editDistance target) rest with
    | none =>
      rw [next] at found
      cases found
      cases leastBy_eq_none_iff.mp next
      refine .of_le (List.mem_singleton_self s) fun other member => .inr ?_
      rw [List.mem_singleton.mp member]
      exact ⟨rfl, String.le_refl s⟩
    | some other =>
      rw [next] at found
      dsimp only at found
      have nearest := ih later next
      split at found
      · next closer =>
        cases found
        refine .of_le List.mem_cons_self fun another member => ?_
        rcases List.mem_cons.mp member with rfl | behind
        · exact .inr ⟨rfl, String.le_refl another⟩
        · -- What is as far away as the first text stands behind it.
          have ordered := first another behind
          rcases nearest.least another behind with farther | ⟨same, -⟩
          · exact .inl (Nat.lt_of_le_of_lt closer farther)
          · rcases Nat.lt_or_eq_of_le (same ▸ closer) with less | equal
            · exact .inl less
            · exact .inr ⟨equal, ordered⟩
      · next farther =>
        cases found
        refine ⟨List.mem_cons_of_mem s nearest.member, fun another member => ?_⟩
        rcases List.mem_cons.mp member with rfl | behind
        · exact .inl (Nat.lt_of_not_le farther)
        · exact nearest.least another behind

/-! ## The candidates -/

/-- A text abbreviates another: letter case aside, its characters occur in the other in order, and
it does not take more bytes. -/
def Abbreviates (target candidate : String) : Prop :=
  (lower target).toList.Sublist (lower candidate).toList ∧
    byteLength (lower target) ≤ byteLength (lower candidate)

instance (target candidate : String) : Decidable (Abbreviates target candidate) :=
  inferInstanceAs (Decidable (_ ∧ _))

/-- The candidates that the target abbreviates. -/
def expansions (target : String) (candidates : List String) : Set String :=
  {c | c ∈ candidates ∧ c ≠ target ∧ Abbreviates target c}

/-- The candidates of which the target may be a misspelling. -/
def misspellings (target : String) (candidates : List String) : Set String :=
  {c | c ∈ candidates ∧ c ≠ target ∧ editDistance target c ≤ 2}

/-- `isSubsequence` looks for a sequence from the left, and this misses nothing. -/
theorem isSubsequence_iff {s t : List Char} : isSubsequence s t = true ↔ s.Sublist t := by
  fun_induction isSubsequence s t with
  | case1 t => simp
  | case2 c s => simp
  | case3 c s t ih => rw [ih, List.cons_sublist_cons]
  | case4 c s d t differ ih =>
    rw [ih, List.cons_sublist_cons', or_iff_left]
    exact fun same => differ same.1

/-- `abbreviates` computes whether the target `Abbreviates` a candidate. -/
theorem abbreviates_iff {candidate : String} :
    abbreviates target candidate = true ↔ Abbreviates target candidate := by
  simp [abbreviates, Abbreviates, isSubsequence_iff, and_comm]

/-- The `rivals` are the candidates that differ from the target. -/
theorem mem_rivals {candidate : String} :
    candidate ∈ rivals target candidates ↔ candidate ∈ candidates ∧ candidate ≠ target := by
  simp [rivals]

/-- The `rivals` are sorted. -/
theorem pairwise_rivals (target : String) (candidates : List String) :
    (rivals target candidates).Pairwise (· ≤ ·) := by
  have sorted : (rivals target candidates).Pairwise fun s t => decide (s ≤ t) = true := by
    apply List.pairwise_mergeSort
    · intro a b c first second
      exact decide_eq_true (String.le_trans (of_decide_eq_true first) (of_decide_eq_true second))
    · intro a b
      simpa using String.le_total a b
  exact sorted.imp of_decide_eq_true

/-- The `rivals` that the target `abbreviates` are its `expansions`. -/
theorem setOf_mem_filter_abbreviates (target : String) (candidates : List String) :
    {c | c ∈ (rivals target candidates).filter (abbreviates target)} =
      expansions target candidates := by
  ext c
  simp [expansions, mem_rivals, abbreviates_iff, and_assoc]

/-- The `misspellings` are among all `rivals`. -/
theorem misspellings_subset (target : String) (candidates : List String) :
    misspellings target candidates ⊆ {c | c ∈ rivals target candidates} :=
  fun _ member => mem_rivals.mpr ⟨member.1, member.2.1⟩

/-! ## What is found -/

/-- The nearest of the candidates that the target abbreviates, or, where there are none, the nearest
of those of which it may be a misspelling. -/
def IsMeant (target : String) (candidates : List String) (best : String) : Prop :=
  IsNearest target (expansions target candidates) best ∨
    expansions target candidates = ∅ ∧ IsNearest target (misspellings target candidates) best

/-- Only one candidate `IsMeant`. -/
theorem IsMeant.eq {another : String} (meant : IsMeant target candidates best)
    (again : IsMeant target candidates another) : another = best := by
  rcases meant with first | ⟨none, first⟩
  · rcases again with second | ⟨none, -⟩
    · exact first.eq second
    · exact absurd (none ▸ first.member) (Set.notMem_empty best)
  · rcases again with second | ⟨-, second⟩
    · exact absurd (none ▸ second.member) (Set.notMem_empty another)
    · exact first.eq second

/-- What `IsMeant` is a candidate. -/
theorem IsMeant.mem (meant : IsMeant target candidates best) : best ∈ candidates := by
  rcases meant with nearest | ⟨-, nearest⟩
  · exact nearest.member.1
  · exact nearest.member.1

/-- Where there are neither `expansions` nor `misspellings`, no candidate `IsMeant`. -/
theorem not_isMeant (none : expansions target candidates = ∅)
    (nothing : misspellings target candidates = ∅) (best : String) :
    ¬ IsMeant target candidates best := by
  rintro (nearest | ⟨-, nearest⟩)
  · exact absurd (none ▸ nearest.member) (Set.notMem_empty best)
  · exact absurd (nothing ▸ nearest.member) (Set.notMem_empty best)

/-- What `closest?` finds `IsMeant`; where it finds nothing, there are neither `expansions` nor
`misspellings`. -/
theorem closest?_cases (named : target ≠ "") (candidates : List String) :
    (∃ best, closest? target candidates = some best ∧ IsMeant target candidates best) ∨
      closest? target candidates = none ∧ expansions target candidates = ∅ ∧
        misspellings target candidates = ∅ := by
  have full : ¬ target.isEmpty = true := by simpa using named
  have sorted := pairwise_rivals target candidates
  rw [closest?, if_neg full]
  dsimp only
  cases abbreviated : leastBy (editDistance target)
      ((rivals target candidates).filter (abbreviates target)) with
  | some best =>
    have nearest := isNearest_of_leastBy (sorted.filter _) abbreviated
    rw [setOf_mem_filter_abbreviates] at nearest
    exact .inl ⟨best, rfl, .inl nearest⟩
  | none =>
    have none : expansions target candidates = ∅ := by
      rw [← setOf_mem_filter_abbreviates, leastBy_eq_none_iff.mp abbreviated]
      simp
    cases found : leastBy (editDistance target) (rivals target candidates) with
    | none =>
      have nothing := misspellings_subset target candidates
      rw [leastBy_eq_none_iff.mp found] at nothing
      exact .inr ⟨rfl, none, Set.subset_empty_iff.mp (by simpa using nothing)⟩
    | some best =>
      have nearest := isNearest_of_leastBy sorted found
      have rival := mem_rivals.mp nearest.member
      by_cases close : editDistance target best ≤ maxEdits
      · have near := nearest.of_subset (misspellings_subset target candidates)
          ⟨rival.1, rival.2, close⟩
        exact .inl ⟨best, if_pos close, .inr ⟨none, near⟩⟩
      · -- All others are at least as far away as the nearest one.
        refine .inr ⟨if_neg close, none, Set.eq_empty_of_forall_notMem fun other member => ?_⟩
        have far : 2 < editDistance target best := Nat.lt_of_not_le close
        have near : editDistance target other ≤ 2 := member.2.2
        rcases nearest.least other (misspellings_subset target candidates member) with less | same
        · omega
        · omega

/-- **`closest?` finds a candidate exactly if it `IsMeant`.** -/
theorem closest?_eq_some_iff (named : target ≠ "") :
    closest? target candidates = some best ↔ IsMeant target candidates best := by
  rcases closest?_cases named candidates with ⟨other, found, meant⟩ | ⟨found, none, nothing⟩
  · rw [found, Option.some.injEq]
    exact ⟨fun same => same ▸ meant, fun again => again.eq meant⟩
  · rw [found]
    exact iff_of_false (by simp) (not_isMeant none nothing best)

/-- **What `closest?` finds depends on the candidates as a set.** -/
theorem closest?_congr {others : List String} (same : ∀ c, c ∈ others ↔ c ∈ candidates) :
    closest? target others = closest? target candidates := by
  by_cases named : target = ""
  · rw [named]
    rfl
  · have long : expansions target others = expansions target candidates := by
      simp only [expansions, same]
    have close : misspellings target others = misspellings target candidates := by
      simp only [misspellings, same]
    refine Option.ext fun best => ?_
    rw [closest?_eq_some_iff named, closest?_eq_some_iff named, IsMeant, IsMeant, long, close]

/-- `suggestion?` names the candidate that `IsMeant`. -/
theorem suggestion?_of_isMeant (named : target ≠ "") (allNamed : ∀ c ∈ candidates, c ≠ "")
    (meant : IsMeant target candidates best) :
    suggestion? target candidates = some s!"did you mean '{best}'?" := by
  have shown : ¬ best.isEmpty = true := by simpa using allNamed best meant.mem
  rw [suggestion?, (closest?_eq_some_iff named).mpr meant]
  exact if_neg shown

/-- **A hint names the nearest candidate, whatever the order of the candidates.** The edit distance
is the least number of edits of single characters. Take the candidates that differ from the target
and that it abbreviates, letter case aside. If there are any, the hint names the nearest of them,
and of several at one distance the first by its bytes. If there are none, the hint names the nearest
of the candidates at most two edits away, by the same order; and if there are none of these either,
there is no hint. Other lists with the same candidates, in another order or with repetitions, give
the same hint. -/
theorem suggestion_nearest (named : target ≠ "") (allNamed : ∀ c ∈ candidates, c ≠ "") :
    (∀ c : String, IsLeast {n | Edits n target.toList c.toList} (editDistance target c)) ∧
    ((expansions target candidates).Nonempty →
      ∃ best, IsNearest target (expansions target candidates) best ∧
        suggestion? target candidates = some s!"did you mean '{best}'?") ∧
    (expansions target candidates = ∅ → (misspellings target candidates).Nonempty →
      ∃ best, IsNearest target (misspellings target candidates) best ∧
        suggestion? target candidates = some s!"did you mean '{best}'?") ∧
    (expansions target candidates = ∅ → misspellings target candidates = ∅ →
      suggestion? target candidates = none) ∧
    ∀ others : List String, (∀ c, c ∈ others ↔ c ∈ candidates) →
      suggestion? target others = suggestion? target candidates := by
  refine ⟨isLeast_editDistance target, ?_, ?_, ?_, ?_⟩
  · intro some
    rcases closest?_cases named candidates with ⟨best, -, meant⟩ | ⟨-, none, -⟩
    · refine ⟨best, ?_, suggestion?_of_isMeant named allNamed meant⟩
      exact meant.resolve_right fun other => some.ne_empty other.1
    · exact absurd none some.ne_empty
  · intro none some
    rcases closest?_cases named candidates with ⟨best, -, meant⟩ | ⟨-, -, nothing⟩
    · refine ⟨best, ?_, suggestion?_of_isMeant named allNamed meant⟩
      exact (meant.resolve_left fun nearest => (none ▸ nearest.member).elim).2
    · exact absurd nothing some.ne_empty
  · intro none nothing
    rcases closest?_cases named candidates with ⟨best, -, meant⟩ | ⟨found, -, -⟩
    · exact absurd meant (not_isMeant none nothing best)
    · rw [suggestion?, found]
  · intro others same
    rw [suggestion?, suggestion?, closest?_congr same]

/-- A misspelt direction, and names that it abbreviates or nearly is. -/
def leftNames : List String := ["loft", "LEFT", "let", "left", "lft"]

/-- Names that a misspelt command nearly is. -/
def forwardNames : List String := ["froward", "back", "forward"]

/-- Of two names at one distance the first by its bytes is named, and an abbreviation is preferred
to a misspelling. -/
theorem suggestion_nearest_left :
    suggestion? "lft" leftNames = some "did you mean 'left'?" ∧
      suggestion? "lft" ["left", "lft", "left", "let", "loft", "LEFT"] =
        some "did you mean 'left'?" ∧
      suggestion? "fowrard" forwardNames = some "did you mean 'forward'?" ∧
      suggestion? "jump" forwardNames = none := by
  have left : IsNearest "lft" (expansions "lft" leftNames) "left" := by
    have all : ∀ c ∈ leftNames, c ≠ "lft" → Abbreviates "lft" c →
        editDistance "lft" "left" < editDistance "lft" c ∨
          editDistance "lft" "left" = editDistance "lft" c ∧ "left" ≤ c := by
      decide +kernel
    exact .of_le ⟨by decide, by decide, by decide +kernel⟩
      fun other member => all other member.1 member.2.1 member.2.2
  have forward : IsNearest "fowrard" (misspellings "fowrard" forwardNames) "forward" := by
    have all : ∀ c ∈ forwardNames, editDistance "fowrard" "forward" < editDistance "fowrard" c ∨
        editDistance "fowrard" "forward" = editDistance "fowrard" c ∧ "forward" ≤ c := by
      decide +kernel
    exact .of_le ⟨by decide, by decide, by decide +kernel⟩
      fun other member => all other member.1
  have unabbreviated {target : String} (none : ∀ c ∈ forwardNames, ¬ Abbreviates target c) :
      expansions target forwardNames = ∅ :=
    Set.eq_empty_of_forall_notMem fun c member => none c member.1 member.2.2
  have far : misspellings "jump" forwardNames = ∅ := by
    have all : ∀ c ∈ forwardNames, ¬ editDistance "jump" c ≤ 2 := by decide +kernel
    exact Set.eq_empty_of_forall_notMem fun c member => all c member.1 member.2.2
  have allNamed : ∀ c ∈ forwardNames, c ≠ "" := by decide
  obtain ⟨-, abbreviated, -, -, reordered⟩ :=
    suggestion_nearest (show "lft" ≠ "" by decide) (show ∀ c ∈ leftNames, c ≠ "" by decide)
  obtain ⟨-, -, misspelt, -, -⟩ := suggestion_nearest (show "fowrard" ≠ "" by decide) allNamed
  obtain ⟨-, -, -, unknown, -⟩ := suggestion_nearest (show "jump" ≠ "" by decide) allNamed
  obtain ⟨best, nearest, hint⟩ := abbreviated ⟨"left", left.member⟩
  obtain rfl := left.eq nearest
  obtain ⟨best, nearest, hint'⟩ :=
    misspelt (unabbreviated (by decide +kernel)) ⟨"forward", forward.member⟩
  obtain rfl := forward.eq nearest
  refine ⟨hint, (reordered _ fun c => ?_).trans hint, hint', unknown (unabbreviated ?_) far⟩
  · grind [leftNames]
  · decide +kernel

end MazeRobot.Text
