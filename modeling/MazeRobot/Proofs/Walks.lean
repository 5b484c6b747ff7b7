import MazeRobot.Maze.Distance
import Mathlib.Data.List.Chain
import Mathlib.Data.Nat.Find

/-! # Walks

What the distance in a maze is about: walks from position to neighbouring position over cells that
are no walls, and the least number of steps in which a position can be reached.

* `Position.Adjacent`: positions one step apart.
* `Grid.IsWalk`, `Grid.LeadsToGoal`: walks, and walks from a position to a goal.
* `Grid.Reaches`: the positions that can be reached in a number of steps.
* `Grid.AtDistance`: the positions for which a number of steps is the least. -/

namespace MazeRobot

/-! ## Neighbours -/

/-- Whether two positions are one step apart. -/
def Position.Adjacent (p q : Position) : Prop := (p.x - q.x).natAbs + (p.y - q.y).natAbs = 1

/-- `Adjacent` is symmetric. -/
theorem Position.Adjacent.symm {p q : Position} (adjacent : p.Adjacent q) : q.Adjacent p := by
  unfold Adjacent at adjacent ⊢
  omega

/-- A `step` leads to a position that is `Adjacent`. -/
theorem Position.adjacent_step (p : Position) (heading : Heading) :
    p.Adjacent (p.step heading) := by
  cases heading <;> simp only [Adjacent, step] <;> omega

/-- A position that is `Adjacent` is reached by a `step` in one of the four headings. -/
theorem Position.Adjacent.exists_step {p q : Position} (adjacent : p.Adjacent q) :
    ∃ heading, p.step heading = q := by
  obtain ⟨px, py⟩ := p
  obtain ⟨qx, qy⟩ := q
  simp only [Adjacent] at adjacent
  have cases : (qx = px ∧ qy = py - 1) ∨ (qx = px + 1 ∧ qy = py) ∨ (qx = px ∧ qy = py + 1) ∨
      (qx = px - 1 ∧ qy = py) := by omega
  rcases cases with ⟨rfl, rfl⟩ | ⟨rfl, rfl⟩ | ⟨rfl, rfl⟩ | ⟨rfl, rfl⟩
  · exact ⟨.north, rfl⟩
  · exact ⟨.east, rfl⟩
  · exact ⟨.south, rfl⟩
  · exact ⟨.west, rfl⟩

/-- `Heading.all` has every heading. -/
theorem Heading.mem_all (heading : Heading) : heading ∈ Heading.all := by
  cases heading <;> simp [Heading.all]

/-- The `neighbours` of a position are those that are `Adjacent` to it. -/
theorem Position.mem_neighbours {p q : Position} : q ∈ p.neighbours ↔ p.Adjacent q := by
  rw [neighbours, List.mem_map]
  constructor
  · rintro ⟨heading, -, rfl⟩
    exact p.adjacent_step heading
  · intro adjacent
    obtain ⟨heading, step⟩ := adjacent.exists_step
    exact ⟨heading, heading.mem_all, step⟩

namespace Grid

/-! ## Free positions -/

/-- Whether a position is on the grid and holds no wall. -/
def Free (g : Grid) (p : Position) : Prop := g.inBounds p = true ∧ g.cell p ≠ .wall

/-- A position is `Free` where it is not `blocked`. -/
theorem free_iff {g : Grid} {p : Position} : g.Free p ↔ g.blocked p = false := by
  unfold Free inBounds blocked cell
  cases g.cell? p <;> simp

/-- A goal is `Free`. -/
theorem free_of_cell_eq_goal {g : Grid} {p : Position} (goal : g.cell p = .goal) : g.Free p := by
  rw [free_iff, blocked, goal]
  rfl

/-! ## Walks as lists -/

/-- Positions in a row, each free and one step from the one before. -/
structure IsWalk (g : Grid) (ps : List Position) : Prop where
  /-- Each position is one step from the one before. -/
  adjacent : ps.IsChain Position.Adjacent
  /-- Each position is free. -/
  free : ∀ p ∈ ps, g.Free p

/-- A walk from a position to a goal. -/
structure LeadsToGoal (g : Grid) (origin : Position) (ps : List Position) : Prop
    extends g.IsWalk ps where
  /-- The walk starts at the position. -/
  start : ps.head? = some origin
  /-- The walk ends at a goal. -/
  goal : ∃ p, ps.getLast? = some p ∧ g.cell p = .goal

/-- A position that is `Free` is a walk of its own. -/
theorem isWalk_singleton {g : Grid} {p : Position} (free : g.Free p) : g.IsWalk [p] :=
  ⟨.singleton p, by simpa using free⟩

/-- What `IsWalk` goes on with a free position one step from its end. -/
theorem IsWalk.append {g : Grid} {ps : List Position} {p q : Position} (walk : g.IsWalk ps)
    (last : ps.getLast? = some p) (adjacent : p.Adjacent q) (free : g.Free q) :
    g.IsWalk (ps ++ [q]) := by
  refine ⟨List.isChain_append.mpr ⟨walk.adjacent, .singleton q, ?_⟩, ?_⟩
  · intro p' last' q' first
    rw [last] at last'
    cases last'
    cases first
    exact adjacent
  · intro r member
    rcases List.mem_append.mp member with earlier | here
    · exact walk.free r earlier
    · rw [List.mem_singleton.mp here]
      exact free

/-! ## Reaching a position in a number of steps -/

/-- The positions that can be reached from an origin in exactly so many steps over free
positions. -/
inductive Reaches (g : Grid) (origin : Position) : Nat → Position → Prop
  /-- A free origin is reached in no step. -/
  | start (free : g.Free origin) : Reaches g origin 0 origin
  /-- One more step leads to a free neighbour. -/
  | step {n : Nat} {p q : Position} (before : Reaches g origin n p) (adjacent : p.Adjacent q)
      (free : g.Free q) : Reaches g origin (n + 1) q

section Reaches

variable {g : Grid} {origin p q : Position} {n : Nat}

/-- A position that an origin `Reaches` is `Free`. -/
theorem Reaches.free (reaches : g.Reaches origin n p) : g.Free p := by
  cases reaches with
  | start free => exact free
  | step _ _ free => exact free

/-- An origin that `Reaches` something is `Free`. -/
theorem Reaches.origin_free (reaches : g.Reaches origin n p) : g.Free origin := by
  induction reaches with
  | start free => exact free
  | step _ _ _ ih => exact ih

/-- An origin `Reaches` a position by a walk with one position more than steps. -/
theorem Reaches.exists_walk (reaches : g.Reaches origin n p) :
    ∃ ps, g.IsWalk ps ∧ ps.head? = some origin ∧ ps.getLast? = some p ∧ ps.length = n + 1 := by
  induction reaches with
  | start free => exact ⟨[origin], isWalk_singleton free, rfl, rfl, rfl⟩
  | @step n p q before adjacent free ih =>
    obtain ⟨ps, walk, head, last, length⟩ := ih
    refine ⟨ps ++ [q], walk.append last adjacent free, ?_, ?_, ?_⟩
    · rw [List.head?_append, head, Option.some_or]
    · rw [List.getLast?_concat]
    · rw [List.length_append, length, List.length_singleton]

/-- The start of a walk `Reaches` its end in one step less than the walk has positions. -/
theorem IsWalk.reaches {ps : List Position} (walk : g.IsWalk ps) (head : ps.head? = some origin)
    (last : ps.getLast? = some p) : g.Reaches origin (ps.length - 1) p := by
  induction ps using List.reverseRecOn generalizing p with
  | nil => cases head
  | append_singleton ps q ih =>
    obtain rfl : q = p := by rw [List.getLast?_concat] at last; exact Option.some.inj last
    have free : g.Free q := walk.free q (by simp)
    obtain ⟨chain, -, link⟩ := List.isChain_append.mp walk.adjacent
    have shorter : g.IsWalk ps :=
      ⟨chain, fun r member => walk.free r (List.mem_append_left _ member)⟩
    cases before : ps.getLast? with
    | none =>
      -- The walk is its last position alone.
      obtain rfl : ps = [] := List.getLast?_eq_none_iff.mp before
      obtain rfl : q = origin := Option.some.inj head
      exact .start free
    | some r =>
      have nonempty : ps ≠ [] := by rintro rfl; cases before
      have sameHead : ps.head? = some origin := by
        rw [List.head?_append_of_ne_nil _ nonempty] at head
        exact head
      have adjacent : r.Adjacent q := link r before q rfl
      have length : (ps ++ [q]).length - 1 = ps.length - 1 + 1 := by
        have positive := List.length_pos_iff.mpr nonempty
        rw [List.length_append, List.length_singleton]
        omega
      rw [length]
      exact .step (ih shorter sameHead before) adjacent free

/-- A walk with so many steps `LeadsToGoal` exactly where the origin `Reaches` a goal in them. -/
theorem exists_leadsToGoal_iff :
    (∃ ps, g.LeadsToGoal origin ps ∧ ps.length = n + 1) ↔
      ∃ p, g.Reaches origin n p ∧ g.cell p = .goal := by
  constructor
  · rintro ⟨ps, leads, length⟩
    obtain ⟨p, last, goal⟩ := leads.goal
    have reaches := leads.toIsWalk.reaches leads.start last
    rw [length, Nat.add_sub_cancel] at reaches
    exact ⟨p, reaches, goal⟩
  · rintro ⟨p, reaches, goal⟩
    obtain ⟨ps, walk, head, last, length⟩ := reaches.exists_walk
    exact ⟨ps, ⟨walk, head, p, last, goal⟩, length⟩

/-! ## The least number of steps -/

/-- Whether so many steps are the least in which a position can be reached. -/
def AtDistance (g : Grid) (origin : Position) (n : Nat) (p : Position) : Prop :=
  g.Reaches origin n p ∧ ∀ m, g.Reaches origin m p → n ≤ m

/-- A position is `AtDistance` of one number of steps at most. -/
theorem AtDistance.unique {m : Nat} (least : g.AtDistance origin n p)
    (other : g.AtDistance origin m p) : n = m :=
  Nat.le_antisymm (least.2 m other.1) (other.2 n least.1)

/-- A position that an origin `Reaches` is `AtDistance` of some least number of steps. -/
theorem Reaches.exists_atDistance (reaches : g.Reaches origin n p) :
    ∃ m, m ≤ n ∧ g.AtDistance origin m p := by
  classical
  have some : ∃ m, g.Reaches origin m p := ⟨n, reaches⟩
  exact ⟨Nat.find some, Nat.find_min' some reaches, Nat.find_spec some,
    fun m other => Nat.find_min' some other⟩

/-- Only the origin is `AtDistance` zero. -/
theorem atDistance_zero_iff (free : g.Free origin) : g.AtDistance origin 0 p ↔ p = origin := by
  constructor
  · rintro ⟨reaches, -⟩
    cases reaches
    rfl
  · rintro rfl
    exact ⟨.start free, fun m _ => Nat.zero_le m⟩

/-- Before a position `AtDistance` of some steps a shortest walk comes to one at one step less. -/
theorem AtDistance.exists_pred (least : g.AtDistance origin (n + 1) q) :
    ∃ p, g.AtDistance origin n p ∧ p.Adjacent q := by
  obtain ⟨reaches, minimal⟩ := least
  cases reaches with
  | @step _ p _ before adjacent free =>
    refine ⟨p, ⟨before, fun m other => ?_⟩, adjacent⟩
    exact Nat.le_of_succ_le_succ (minimal (m + 1) (.step other adjacent free))

/-- Where a position is `AtDistance` of some steps there are positions at every smaller number of
steps. -/
theorem AtDistance.exists_of_le {m : Nat} (least : g.AtDistance origin n p) (le : m ≤ n) :
    ∃ q, g.AtDistance origin m q := by
  induction n generalizing p with
  | zero =>
    obtain rfl : m = 0 := Nat.le_zero.mp le
    exact ⟨p, least⟩
  | succ n ih =>
    rcases Nat.lt_or_eq_of_le le with smaller | rfl
    · obtain ⟨q, before, -⟩ := least.exists_pred
      exact ih before (Nat.le_of_lt_succ smaller)
    · exact ⟨p, least⟩

/-- The distances of neighbours, as in `AtDistance`, differ by at most one. -/
theorem AtDistance.le_succ_of_adjacent {m : Nat} (here : g.AtDistance origin n p)
    (there : g.AtDistance origin m q) (adjacent : p.Adjacent q) : n ≤ m + 1 :=
  here.2 (m + 1) (.step there.1 adjacent.symm here.1.free)

/-- The positions `AtDistance` of one step more are the free neighbours of those at a number of
steps that are at no other distance in reach. Steps go both ways, so only two distances are. -/
theorem atDistance_succ_iff :
    g.AtDistance origin (n + 1) q ↔
      (∃ p, g.AtDistance origin n p ∧ p.Adjacent q) ∧ g.Free q ∧ ¬ g.AtDistance origin n q ∧
        ∀ m, m + 1 = n → ¬ g.AtDistance origin m q := by
  constructor
  · intro least
    refine ⟨least.exists_pred, least.1.free, fun same => ?_, fun m less same => ?_⟩
    · exact absurd (least.unique same) (Nat.succ_ne_self n)
    · have := least.unique same
      omega
  · rintro ⟨⟨p, before, adjacent⟩, free, notHere, notBefore⟩
    have reaches : g.Reaches origin (n + 1) q := .step before.1 adjacent free
    obtain ⟨m, le, least⟩ := reaches.exists_atDistance
    have close : n ≤ m + 1 := before.le_succ_of_adjacent least adjacent
    -- Of the three distances in reach, two are ruled out.
    rcases Nat.lt_or_eq_of_le le with smaller | rfl
    · rcases Nat.lt_or_eq_of_le (Nat.le_of_lt_succ smaller) with before' | rfl
      · exact absurd least (notBefore m (by omega))
      · exact absurd least notHere
    · exact least

end Reaches

end Grid

end MazeRobot
