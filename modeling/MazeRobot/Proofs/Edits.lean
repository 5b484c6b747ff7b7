import Mathlib.Order.Bounds.Defs
import MazeRobot.Text.EditDistance

/-! # The least number of edits

The edit distance is computed row by row from the fronts of two texts. What it computes is the least
number of edits, one character put in, taken out or replaced at a time, that lead from one text to
the other. Between the two stand alignments: each pairs off characters of the texts from left to
right, and each can be read from right to left as well.

* `Edit`, `Edits`: one edit, and some edits in a row.
* `Aligned`: the cost of pairing off the characters of two texts.
* `Aligned.trans`: alignments of one text with a second and of that with a third compose.
* `alignCost`: the least cost of an alignment, by recursion from the left.
* `editDistanceChars_eq_alignCost`: the table holds these costs, of the texts read backwards.
* `isLeast_editDistance`: the edit distance is the least number of edits. -/

namespace MazeRobot.Text

variable {n m : Nat} {c d : Char} {s t u : List Char}

/-! ## Edits -/

/-- A character is put in, taken out or replaced. -/
inductive Edit : List Char → List Char → Prop
  /-- A character is put in front. -/
  | insert (c : Char) (s : List Char) : Edit s (c :: s)
  /-- The character in front is taken out. -/
  | delete (c : Char) (s : List Char) : Edit (c :: s) s
  /-- The character in front is replaced. -/
  | replace (c d : Char) (s : List Char) : Edit (c :: s) (d :: s)
  /-- The edit is made behind the character in front. -/
  | later (c : Char) {s t : List Char} (edit : Edit s t) : Edit (c :: s) (c :: t)

/-- A number of edits, one after another. -/
inductive Edits : Nat → List Char → List Char → Prop
  /-- Nothing is edited. -/
  | none (s : List Char) : Edits 0 s s
  /-- One edit, and some more after it. -/
  | step {n : Nat} {s t u : List Char} (first : Edit s t) (rest : Edits n t u) : Edits (n + 1) s u

/-- `Edits` can be made behind a character. -/
theorem Edits.later (c : Char) (edits : Edits n s t) : Edits n (c :: s) (c :: t) := by
  induction edits with
  | none s => exact .none (c :: s)
  | step first _ ih => exact .step (.later c first) ih

/-! ## Alignments -/

/-- The cost of a pair of characters. -/
def mismatch (c d : Char) : Nat := if c = d then 0 else 1

/-- `mismatch` of a character with itself costs nothing. -/
@[simp] theorem mismatch_self (c : Char) : mismatch c c = 0 := if_pos rfl

/-- `mismatch` costs at most one. -/
theorem mismatch_le_one (c d : Char) : mismatch c d ≤ 1 := by
  rw [mismatch]
  split <;> omega

/-- `mismatch` of a pair costs no more than two pairs with a character between. -/
theorem mismatch_triangle (c d e : Char) : mismatch c e ≤ mismatch c d + mismatch d e := by
  grind [mismatch]

/-- The characters of two texts are paired off from left to right; a pair of different characters
and each character without a partner cost one. -/
inductive Aligned : Nat → List Char → List Char → Prop
  /-- Both texts are at their end. -/
  | nil : Aligned 0 [] []
  /-- The next characters make a pair. -/
  | pair {n : Nat} {s t : List Char} (c d : Char) (rest : Aligned n s t) :
      Aligned (n + mismatch c d) (c :: s) (d :: t)
  /-- The next character of the second text has no partner. -/
  | insert {n : Nat} {s t : List Char} (d : Char) (rest : Aligned n s t) : Aligned (n + 1) s (d :: t)
  /-- The next character of the first text has no partner. -/
  | delete {n : Nat} {s t : List Char} (c : Char) (rest : Aligned n s t) : Aligned (n + 1) (c :: s) t

namespace Aligned

/-- A text is `Aligned` with itself at no cost. -/
theorem refl (s : List Char) : Aligned 0 s s := by
  induction s with
  | nil => exact .nil
  | cons c s ih => simpa using ih.pair c c

/-- The `Edits` that an alignment stands for. -/
theorem edits (aligned : Aligned n s t) : Edits n s t := by
  induction aligned with
  | nil => exact .none []
  | @pair n s t c d _ ih =>
    by_cases same : c = d
    · subst same
      simpa using ih.later c
    · rw [mismatch, if_neg same]
      exact .step (.replace c d s) (ih.later d)
  | @insert n s t d _ ih => exact .step (.insert d s) (ih.later d)
  | @delete n s t c _ ih => exact .step (.delete c s) ih

/-- `Aligned` texts stay so with characters without partners in front of the second one. -/
theorem insertAll (added : List Char) (aligned : Aligned n s t) :
    Aligned (n + added.length) s (added ++ t) := by
  induction added with
  | nil => exact aligned
  | cons d added ih => exact ih.insert d

/-- What becomes of the first character of an `Aligned` text: it has a partner, or it has none,
behind some characters of the other text that have none either. -/
theorem uncons (aligned : Aligned n (c :: s) t) :
    ∃ k added rest, Aligned k s rest ∧
      (t = added ++ rest ∧ n = k + 1 + added.length ∨
        ∃ d, t = added ++ d :: rest ∧ n = k + mismatch c d + added.length) := by
  -- Insertions leave the first text as it is, so it has to be a variable in the induction.
  generalize whole : c :: s = s' at aligned
  induction aligned with
  | nil => cases whole
  | pair c' d rest _ =>
    cases whole
    exact ⟨_, [], _, rest, .inr ⟨d, rfl, rfl⟩⟩
  | insert d _ ih =>
    obtain ⟨k, added, rest, aligned, found⟩ := ih whole
    refine ⟨k, d :: added, rest, aligned, ?_⟩
    rcases found with ⟨rfl, rfl⟩ | ⟨e, rfl, rfl⟩
    · exact .inl ⟨rfl, rfl⟩
    · exact .inr ⟨e, rfl, rfl⟩
  | delete c' rest _ =>
    cases whole
    exact ⟨_, [], _, rest, .inl ⟨rfl, rfl⟩⟩

/-- **`Aligned` is transitive**, and the cost does not exceed the sum of both costs. -/
theorem trans (first : Aligned m s t) (second : Aligned n t u) :
    ∃ k ≤ m + n, Aligned k s u := by
  -- The second alignment is taken apart at the next character of the text in the middle.
  induction first generalizing n u with
  | nil => exact ⟨n, Nat.le_add_left n 0, second⟩
  | @pair m s t c d _ ih =>
    obtain ⟨k, added, rest, below, ⟨rfl, rfl⟩ | ⟨e, rfl, rfl⟩⟩ := second.uncons
    · obtain ⟨cost, less, aligned⟩ := ih below
      exact ⟨_, by omega, (aligned.delete c).insertAll added⟩
    · obtain ⟨cost, less, aligned⟩ := ih below
      have triangle := mismatch_triangle c d e
      exact ⟨_, by omega, (aligned.pair c e).insertAll added⟩
  | @insert m s t d _ ih =>
    obtain ⟨k, added, rest, below, ⟨rfl, rfl⟩ | ⟨e, rfl, rfl⟩⟩ := second.uncons
    · obtain ⟨cost, less, aligned⟩ := ih below
      exact ⟨_, by omega, aligned.insertAll added⟩
    · obtain ⟨cost, less, aligned⟩ := ih below
      exact ⟨_, by omega, (aligned.insert e).insertAll added⟩
  | delete c _ ih =>
    obtain ⟨cost, less, aligned⟩ := ih second
    exact ⟨_, by omega, aligned.delete c⟩

/-- `Aligned` texts can be put one after another. -/
theorem append {s' t' : List Char} (first : Aligned m s t) (second : Aligned n s' t') :
    Aligned (m + n) (s ++ s') (t ++ t') := by
  induction first with
  | nil => simpa using second
  | pair c d _ ih => simpa [Nat.add_right_comm] using ih.pair c d
  | insert d _ ih => simpa [Nat.add_right_comm] using ih.insert d
  | delete c _ ih => simpa [Nat.add_right_comm] using ih.delete c

/-- `Aligned` texts can be read from right to left. -/
theorem reverse (aligned : Aligned n s t) : Aligned n s.reverse t.reverse := by
  induction aligned with
  | nil => exact .nil
  | pair c d _ ih => simpa using ih.append (nil.pair c d)
  | insert d _ ih => simpa using ih.append (nil.insert d)
  | delete c _ ih => simpa using ih.append (nil.delete c)

end Aligned

/-- An `Edit` is an alignment. -/
theorem Edit.aligned (edit : Edit s t) : ∃ k ≤ 1, Aligned k s t := by
  induction edit with
  | insert c s => exact ⟨1, Nat.le_refl 1, (Aligned.refl s).insert c⟩
  | delete c s => exact ⟨1, Nat.le_refl 1, (Aligned.refl s).delete c⟩
  | replace c d s =>
    refine ⟨0 + mismatch c d, ?_, (Aligned.refl s).pair c d⟩
    have one := mismatch_le_one c d
    omega
  | later c _ ih =>
    obtain ⟨k, less, aligned⟩ := ih
    exact ⟨k, less, by simpa using aligned.pair c c⟩

/-- `Edits` in a row are an alignment that costs no more. -/
theorem Edits.aligned (edits : Edits n s t) : ∃ k ≤ n, Aligned k s t := by
  induction edits with
  | none s => exact ⟨0, Nat.le_refl 0, .refl s⟩
  | step first _ ih =>
    obtain ⟨k, one, before⟩ := first.aligned
    obtain ⟨l, less, after⟩ := ih
    obtain ⟨cost, total, aligned⟩ := before.trans after
    exact ⟨cost, by omega, aligned⟩

/-! ## The least cost -/

/-- The least cost of an alignment. -/
def alignCost : List Char → List Char → Nat
  | [], [] => 0
  | [], d :: t => alignCost [] t + 1
  | _ :: s, [] => alignCost s [] + 1
  | c :: s, d :: t =>
    min (min (alignCost s (d :: t) + 1) (alignCost (c :: s) t + 1)) (alignCost s t + mismatch c d)
termination_by s t => s.length + t.length

/-- `alignCost` with an empty text: all characters are without partners. -/
@[simp] theorem alignCost_nil_left (t : List Char) : alignCost [] t = t.length := by
  induction t with
  | nil => rw [alignCost, List.length_nil]
  | cons d t ih => rw [alignCost, ih, List.length_cons]

/-- There is an alignment at the cost of `alignCost`. -/
theorem aligned_alignCost (s t : List Char) : Aligned (alignCost s t) s t := by
  fun_induction alignCost s t with
  | case1 => exact .nil
  | case2 d t ih => exact ih.insert d
  | case3 c s ih => exact ih.delete c
  | case4 c s d t above left diagonal =>
    -- The least of the three costs is that of the alignment to take.
    rcases Nat.le_total (min (alignCost s (d :: t) + 1) (alignCost (c :: s) t + 1))
      (alignCost s t + mismatch c d) with alone | paired
    · rw [Nat.min_eq_left alone]
      rcases Nat.le_total (alignCost s (d :: t) + 1) (alignCost (c :: s) t + 1) with first | second
      · rw [Nat.min_eq_left first]
        exact above.delete c
      · rw [Nat.min_eq_right second]
        exact left.insert d
    · rw [Nat.min_eq_right paired]
      exact diagonal.pair c d

/-- A character more in the second text adds at most one to `alignCost`. -/
theorem alignCost_insert_le (s : List Char) (d : Char) (t : List Char) :
    alignCost s (d :: t) ≤ alignCost s t + 1 := by
  cases s with
  | nil => exact Nat.le_of_eq (by rw [alignCost])
  | cons c s =>
    rw [alignCost]
    omega

/-- A character more in the first text adds at most one to `alignCost`. -/
theorem alignCost_delete_le (c : Char) (s t : List Char) :
    alignCost (c :: s) t ≤ alignCost s t + 1 := by
  cases t with
  | nil => exact Nat.le_of_eq (by rw [alignCost])
  | cons d t =>
    rw [alignCost]
    omega

/-- No alignment costs less than `alignCost`. -/
theorem Aligned.alignCost_le (aligned : Aligned n s t) : alignCost s t ≤ n := by
  induction aligned with
  | nil => exact Nat.le_of_eq (alignCost_nil_left [])
  | pair c d _ ih =>
    rw [alignCost]
    omega
  | @insert n s t d _ ih => exact Nat.le_trans (alignCost_insert_le s d t) (Nat.succ_le_succ ih)
  | @delete n s t c _ ih => exact Nat.le_trans (alignCost_delete_le c s t) (Nat.succ_le_succ ih)

/-- `alignCost` is the same for the texts read backwards. -/
theorem alignCost_reverse (s t : List Char) : alignCost s.reverse t.reverse = alignCost s t := by
  apply Nat.le_antisymm
  · exact (aligned_alignCost s t).reverse.alignCost_le
  · simpa using (aligned_alignCost s.reverse t.reverse).reverse.alignCost_le

/-! ## The table -/

/-- The costs of a text with a second one, of which some characters have been seen, and with each of
the longer fronts of it. Both texts are held backwards, as far as they have been seen. -/
def costs (source seen : List Char) : List Char → List Nat
  | [] => [alignCost source seen]
  | t :: rest => alignCost source seen :: costs source (t :: seen) rest

/-- The first of the `costs` is that of what has been seen. -/
theorem costs_eq_cons (source seen rest : List Char) :
    costs source seen rest = alignCost source seen :: (costs source seen rest).tail := by
  cases rest <;> rfl

/-- **`nextDistances` computes a row of the table from the one before it.** -/
theorem nextDistances_costs (c : Char) (source seen rest : List Char) :
    nextDistances c (alignCost (c :: source) seen) (alignCost source seen) rest
        (costs source seen rest).tail = (costs (c :: source) seen rest).tail := by
  -- With each character of the target the entry just made becomes the one to the left.
  induction rest generalizing seen with
  | nil => rfl
  | cons t rest ih =>
    have entry : min (min (alignCost source (t :: seen) + 1) (alignCost (c :: source) seen + 1))
        (if c = t then alignCost source seen else alignCost source seen + 1) =
          alignCost (c :: source) (t :: seen) := by
      rw [alignCost, mismatch]
      split <;> rfl
    have above : (costs source seen (t :: rest)).tail =
        alignCost source (t :: seen) :: (costs source (t :: seen) rest).tail := by
      rw [costs, List.tail_cons, ← costs_eq_cons]
    have next : (costs (c :: source) seen (t :: rest)).tail =
        alignCost (c :: source) (t :: seen) :: (costs (c :: source) (t :: seen) rest).tail := by
      rw [costs, List.tail_cons, ← costs_eq_cons]
    rw [above, next, nextDistances, entry, ih]

/-- `distanceRow` computes the `costs` of a longer source. -/
theorem distanceRow_costs (c : Char) (source target : List Char) :
    distanceRow target (costs source [] target) c = costs (c :: source) [] target := by
  have first : alignCost (c :: source) [] = alignCost source [] + 1 := by rw [alignCost]
  rw [costs_eq_cons source, costs_eq_cons (c :: source), distanceRow, ← first, nextDistances_costs]

/-- `distanceRow` computes the `costs` of all fronts of a source in turn. -/
theorem foldl_distanceRow (source before target : List Char) :
    source.foldl (distanceRow target) (costs before [] target) =
      costs (source.reverse ++ before) [] target := by
  induction source generalizing before with
  | nil => rfl
  | cons c source ih =>
    rw [List.foldl_cons, distanceRow_costs, ih, List.reverse_cons, List.append_assoc,
      List.singleton_append]

/-- The `costs` of an empty source are the lengths of the fronts. -/
theorem costs_nil (seen rest : List Char) :
    costs [] seen rest = List.range' seen.length (rest.length + 1) := by
  induction rest generalizing seen with
  | nil => simp [costs]
  | cons t rest ih =>
    rw [costs, ih, alignCost_nil_left, List.length_cons, List.length_cons]
    exact List.range'_succ.symm

/-- The `costs` end with that of the whole target. -/
theorem getLastD_costs (source seen rest : List Char) (default : Nat) :
    (costs source seen rest).getLastD default = alignCost source (rest.reverse ++ seen) := by
  induction rest generalizing seen default with
  | nil => rfl
  | cons t rest ih =>
    rw [costs, List.getLastD_cons, ih, List.reverse_cons, List.append_assoc, List.singleton_append]

/-- **`editDistanceChars` is `alignCost`**: the table ends with the least cost of an alignment. -/
theorem editDistanceChars_eq_alignCost (source target : List Char) :
    editDistanceChars source target = alignCost source target := by
  have start : List.range (target.length + 1) = costs [] [] target := by
    rw [costs_nil, List.range_eq_range', List.length_nil]
  rw [editDistanceChars, start, foldl_distanceRow, getLastD_costs, List.append_nil,
    List.append_nil, alignCost_reverse]

/-- **The `editDistance` is the least number of `Edits`** that lead from one text to the other. -/
theorem isLeast_editDistance (source target : String) :
    IsLeast {n | Edits n source.toList target.toList} (editDistance source target) := by
  rw [editDistance, editDistanceChars_eq_alignCost]
  refine ⟨(aligned_alignCost _ _).edits, fun n edits => ?_⟩
  obtain ⟨k, less, aligned⟩ := edits.aligned
  exact Nat.le_trans aligned.alignCost_le less

end MazeRobot.Text
