import MazeRobot.Text.Suggestion

/-! # Ranking candidates by a stable sort and a scan

Another way to find what `Text.closest?` finds: the candidates that the target abbreviates are
sorted by their distance, and the first one is taken; where there are none, one scan over all
candidates keeps the nearest so far, and only one that is nearer takes its place. The sort is
stable, so both ways settle a tie for the first by its bytes, which is what `Text.leastBy` does.

* `ranked`, `nearestWithin`: the sort and the scan.
* `bestMatch`: the candidate they find, and the empty text where they find none.
* `head?_mergeSort`, `nearestWithin_eq`: the sort and the scan in terms of `leastBy`.
* `bestMatch_eq_closest?`, `suggestion?_eq_bestMatch`: both ways find the same and give the same
  hint. -/

namespace MazeRobot.Text

/-! ## The sort and the scan -/

/-- The candidates that the target abbreviates, the nearest first. Those at one distance stay in
their order. -/
def ranked (target : String) (pool : List String) : List String :=
  (pool.filter (abbreviates target)).mergeSort fun s t =>
    editDistance target s ≤ editDistance target t

/-- One look at a text: it takes the place of the best so far if its key is less. -/
def keepLess (key : String → Nat) (best : String × Nat) (text : String) : String × Nat :=
  if key text < best.2 then (text, key text) else best

/-- The candidate nearest to the target, with its distance, if that is at most `maxEdits`; else the
empty text. -/
def nearestWithin (target : String) (pool : List String) : String × Nat :=
  pool.foldl (keepLess (editDistance target)) ("", maxEdits + 1)

/-- The candidate nearest to the target by the sort and the scan; the empty text where there is
none. -/
def bestMatch (target : String) (candidates : List String) : String :=
  if target.isEmpty then ""
  else
    let pool := rivals target candidates
    match ranked target pool with
    | best :: _ => best
    | [] => (nearestWithin target pool).1

/-! ## Both find the least -/

/-- **The first text after a stable sort is the one that `leastBy` finds.** -/
theorem head?_mergeSort (key : String → Nat) (texts : List String) :
    (texts.mergeSort fun s t => key s ≤ key t).head? = leastBy key texts := by
  have trans (a b c : String) (first : decide (key a ≤ key b) = true)
      (second : decide (key b ≤ key c) = true) : decide (key a ≤ key c) = true := by
    simp only [decide_eq_true_eq] at first second ⊢
    omega
  have total (a b : String) : (decide (key a ≤ key b) || decide (key b ≤ key a)) = true := by
    simpa using Nat.le_total (key a) (key b)
  induction texts with
  | nil => simp [leastBy]
  | cons s rest ih =>
    -- A stable sort puts the first text right after those that are less.
    obtain ⟨less, others, whole, part, below⟩ := List.mergeSort_cons trans total s rest
    have sorted := List.pairwise_mergeSort trans total (s :: rest)
    rw [whole] at sorted ⊢
    rw [leastBy, ← ih, part]
    cases less with
    | nil =>
      cases others with
      | nil => rfl
      | cons next others =>
        have first : key s ≤ key next := by
          simpa using List.rel_of_pairwise_cons sorted List.mem_cons_self
        simp [first]
    | cons best less =>
      have later : ¬ key s ≤ key best := by simpa using below best List.mem_cons_self
      simp [later]

/-- The scan finds what `leastBy` finds, if its key is less than that of the text it starts with. -/
theorem foldl_keepLess (key : String → Nat) (start : String × Nat) (texts : List String) :
    texts.foldl (keepLess key) start =
      match leastBy key texts with
      | some best => keepLess key start best
      | none => start := by
  induction texts generalizing start with
  | nil => rfl
  | cons s rest ih =>
    rw [List.foldl_cons, ih, leastBy]
    cases leastBy key rest with
    | none => rfl
    | some next =>
      dsimp only
      unfold keepLess
      -- Either text may be less than the start, and either may be less than the other.
      grind

/-- The text that `nearestWithin` finds, in terms of `leastBy`. -/
theorem nearestWithin_eq (target : String) (pool : List String) :
    (nearestWithin target pool).1 =
      match leastBy (editDistance target) pool with
      | some best => if editDistance target best ≤ maxEdits then best else ""
      | none => "" := by
  rw [nearestWithin, foldl_keepLess]
  cases leastBy (editDistance target) pool with
  | none => rfl
  | some best =>
    dsimp only
    rw [keepLess]
    by_cases near : editDistance target best ≤ maxEdits
    · rw [if_pos (Nat.lt_succ_of_le near), if_pos near]
    · rw [if_neg (fun less => near (Nat.le_of_lt_succ less)), if_neg near]

/-! ## Both ways find the same -/

/-- **The sort and the scan find what `closest?` finds**, and the empty text where it finds
nothing. -/
theorem bestMatch_eq_closest? (target : String) (candidates : List String) :
    bestMatch target candidates = (closest? target candidates).getD "" := by
  rw [bestMatch, closest?]
  by_cases unnamed : target.isEmpty = true
  · rw [if_pos unnamed, if_pos unnamed]
    rfl
  · rw [if_neg unnamed, if_neg unnamed]
    dsimp only
    rw [← head?_mergeSort, ← ranked, nearestWithin_eq]
    cases ranked target (rivals target candidates) with
    | cons best others => rfl
    | nil =>
      dsimp only [List.head?_nil]
      cases leastBy (editDistance target) (rivals target candidates) with
      | none => rfl
      | some best =>
        dsimp only
        by_cases near : editDistance target best ≤ maxEdits
        · rw [if_pos near, if_pos near]
          rfl
        · rw [if_neg near, if_neg near]
          rfl

/-- The hint names the `bestMatch`, unless that is the empty text. -/
theorem suggestion?_eq_bestMatch (target : String) (candidates : List String) :
    suggestion? target candidates =
      if bestMatch target candidates = "" then none
      else some s!"did you mean '{bestMatch target candidates}'?" := by
  rw [suggestion?, bestMatch_eq_closest?]
  cases closest? target candidates with
  | none => rfl
  | some best => simp

end MazeRobot.Text
