import MazeRobot.Proofs.Walks
import Mathlib.Data.List.FinRange
import Mathlib.Data.List.Nodup
import Mathlib.Data.List.Perm.Subperm
import Mathlib.Order.Bounds.Basic

/-! # Breadth-first search finds the least distance

The layers of the search hold the positions at each distance: a layer follows from the two before
it, because steps go both ways. Every distance up to that of a position belongs to a position of its
own, so the cells of a grid bound the layers, and the search is never cut short.

* `Grid.positions`: the positions on a grid, as many as it has cells.
* `Grid.Layers`: what the search knows when it looks at a layer.
* `Grid.distance?_eq_some_iff`, `Grid.distance?_eq_none_iff`: the result of the search.
* `Grid.distance_isLeast_walk`: the distance is the least length of a walk to a goal. -/

namespace MazeRobot.Grid

/-! ## There are no more distances than cells -/

/-- The positions on a grid, row by row. -/
def positions (g : Grid) : List Position :=
  g.rows.zipIdx.flatMap fun (row, y) => row.zipIdx.map fun (_, x) => ⟨x, y⟩

/-- `positions` has as many members as the grid has cells. -/
theorem length_positions (g : Grid) : g.positions.length = g.cellCount := by
  have numbered (rows : List (List Cell)) (first : Nat) :
      ((rows.zipIdx first).flatMap fun (row, y) =>
        row.zipIdx.map fun (_, x) => (⟨x, y⟩ : Position)).length =
          rows.foldr (fun row count => row.length + count) 0 := by
    induction rows generalizing first with
    | nil => rfl
    | cons row rows ih =>
      rw [List.zipIdx_cons, List.flatMap_cons, List.length_append, ih, List.foldr_cons,
        List.length_map, List.length_zipIdx]
  exact numbered g.rows 0

/-- A position that is `inBounds` is among the `positions`. -/
theorem mem_positions {g : Grid} {p : Position} (on : g.inBounds p = true) :
    p ∈ g.positions := by
  obtain ⟨x, y⟩ := p
  unfold inBounds cell? at on
  split at on
  · cases on
  · next inside =>
    simp only [Bool.or_eq_true, decide_eq_true_eq, not_or, Int.not_lt] at inside
    obtain ⟨cell, found⟩ := Option.isSome_iff_exists.mp on
    obtain ⟨row, rowFound, cellFound⟩ := Option.bind_eq_some_iff.mp found
    rw [positions, List.mem_flatMap]
    refine ⟨(row, y.toNat), List.mem_zipIdx_iff_getElem?.mpr rowFound, ?_⟩
    rw [List.mem_map]
    refine ⟨(cell, x.toNat), List.mem_zipIdx_iff_getElem?.mpr cellFound, ?_⟩
    simp only [Position.mk.injEq]
    omega

/-- A distance is smaller than `cellCount`. -/
theorem AtDistance.lt_cellCount {g : Grid} {origin p : Position} {n : Nat}
    (least : g.AtDistance origin n p) : n < g.cellCount := by
  classical
  -- One position at each distance up to `n`; they differ because their distances do.
  choose position atDistance using fun m : Fin (n + 1) =>
    least.exists_of_le (Nat.le_of_lt_succ m.isLt)
  have injective : Function.Injective position := by
    intro i j same
    have other := atDistance j
    rw [← same] at other
    exact Fin.ext ((atDistance i).unique other)
  have distinct : ((List.finRange (n + 1)).map position).Nodup :=
    List.Nodup.map injective (List.nodup_finRange (n + 1))
  have inside : (List.finRange (n + 1)).map position ⊆ g.positions := by
    intro q member
    obtain ⟨i, -, rfl⟩ := List.mem_map.mp member
    exact mem_positions (atDistance i).1.free.1
  have length := (distinct.subperm inside).length_le
  rw [List.length_map, List.length_finRange, length_positions] at length
  exact length

/-! ## Layers -/

/-- What the search knows when it looks at a layer: the layer holds the positions at its distance,
and the layer before it those at one step less. -/
structure Layers (g : Grid) (origin : Position) (hops : Nat) (previous current : List Position) :
    Prop where
  /-- The layer holds the positions at its distance. -/
  current : ∀ p, p ∈ current ↔ g.AtDistance origin hops p
  /-- The layer before holds the positions at one step less. -/
  previous : ∀ p, p ∈ previous ↔ ∃ n, n + 1 = hops ∧ g.AtDistance origin n p

section Layers

variable {g : Grid} {origin : Position} {hops : Nat} {previous current : List Position}

/-- `Layers` holds at the start, with the origin as the first layer. -/
theorem layers_zero (free : g.Free origin) : g.Layers origin 0 [] [origin] := by
  refine ⟨fun p => ?_, fun p => ?_⟩
  · rw [List.mem_singleton, atDistance_zero_iff free]
  · simp

/-- `nextLayer` follows a layer: `Layers` holds one step further. -/
theorem Layers.next (layers : g.Layers origin hops previous current) :
    g.Layers origin (hops + 1) current (g.nextLayer previous current) := by
  refine ⟨fun q => ?_, fun q => ?_⟩
  · rw [nextLayer, List.mem_eraseDups, List.mem_filter, List.mem_flatMap, atDistance_succ_iff]
    simp only [Bool.and_eq_true, Bool.not_eq_true', List.contains_eq_mem, decide_eq_false_iff_not,
      layers.current, layers.previous, Position.mem_neighbours, free_iff]
    constructor
    · rintro ⟨before, ⟨free, notBefore⟩, notHere⟩
      exact ⟨before, free, notHere, fun m less same => notBefore ⟨m, less, same⟩⟩
    · rintro ⟨before, free, notHere, notBefore⟩
      exact ⟨before, ⟨free, fun ⟨m, less, same⟩ => notBefore m less same⟩, notHere⟩
  · rw [layers.current]
    constructor
    · intro here
      exact ⟨hops, rfl, here⟩
    · rintro ⟨n, same, here⟩
      obtain rfl : n = hops := Nat.succ.inj same
      exact here

/-- What `searchLayers` finds is the distance of a goal, and of no goal before. -/
theorem Layers.searchLayers_eq_some {bound n : Nat}
    (layers : g.Layers origin hops previous current)
    (found : g.searchLayers bound hops previous current = some n) :
    (∃ p, g.AtDistance origin n p ∧ g.cell p = .goal) ∧
      ∀ m p, hops ≤ m → m < n → g.AtDistance origin m p → g.cell p ≠ .goal := by
  induction bound generalizing hops previous current with
  | zero => cases found
  | succ bound ih =>
    rw [searchLayers] at found
    split at found
    · next goal =>
      obtain rfl : hops = n := Option.some.inj found
      obtain ⟨p, member, goal⟩ := List.any_eq_true.mp goal
      exact ⟨⟨p, (layers.current p).mp member, of_decide_eq_true goal⟩, fun m p _ _ => by omega⟩
    · next noGoal =>
      split at found
      · cases found
      · obtain ⟨goal, first⟩ := ih layers.next found
        refine ⟨goal, fun m p from' before here isGoal => ?_⟩
        rcases Nat.lt_or_eq_of_le from' with later | rfl
        · exact first m p later before here isGoal
        · exact noGoal (List.any_eq_true.mpr
            ⟨p, (layers.current p).mpr here, decide_eq_true isGoal⟩)

/-- Where `searchLayers` finds nothing there is no goal in the layers it looks at. -/
theorem Layers.searchLayers_eq_none {bound : Nat}
    (layers : g.Layers origin hops previous current)
    (nothing : g.searchLayers bound hops previous current = none) {m : Nat} {p : Position}
    (from' : hops ≤ m) (upTo : m < hops + bound) (here : g.AtDistance origin m p) :
    g.cell p ≠ .goal := by
  induction bound generalizing hops previous current with
  | zero => omega
  | succ bound ih =>
    rw [searchLayers] at nothing
    split at nothing
    · cases nothing
    · next noGoal =>
      intro isGoal
      -- A position at a later distance has positions at this one before it.
      obtain ⟨q, before⟩ := here.exists_of_le from'
      have member := (layers.current q).mpr before
      split at nothing
      · next empty =>
        rw [List.isEmpty_iff.mp empty] at member
        cases member
      · rcases Nat.lt_or_eq_of_le from' with later | rfl
        · exact ih layers.next nothing later (by omega) isGoal
        · exact noGoal (List.any_eq_true.mpr
            ⟨p, (layers.current p).mpr here, decide_eq_true isGoal⟩)

end Layers

/-! ## The distance to a goal -/

section Distance

variable {g : Grid} {origin : Position}

/-- What `distance?` finds is the least number of steps in which a goal can be reached. -/
theorem isLeast_of_distance?_eq_some {n : Nat} (found : g.distance? origin = some n) :
    IsLeast {n | ∃ p, g.Reaches origin n p ∧ g.cell p = .goal} n := by
  unfold distance? at found
  split at found
  · cases found
  · next free =>
    have layers := layers_zero (free_iff.mpr (Bool.not_eq_true _ ▸ free))
    obtain ⟨⟨p, least, goal⟩, first⟩ := layers.searchLayers_eq_some found
    refine ⟨⟨p, least.1, goal⟩, ?_⟩
    rintro m ⟨q, reaches, isGoal⟩
    obtain ⟨m', le, nearest⟩ := reaches.exists_atDistance
    by_contra smaller
    exact first m' q (Nat.zero_le m') (by omega) nearest isGoal

/-- `distance?` finds nothing exactly where no goal can be reached. -/
theorem distance?_eq_none_iff :
    g.distance? origin = none ↔ ∀ n p, g.Reaches origin n p → g.cell p ≠ .goal := by
  constructor
  · intro nothing n p reaches
    have free : g.blocked origin = false := free_iff.mp reaches.origin_free
    rw [distance?, free, if_neg Bool.false_ne_true] at nothing
    obtain ⟨m, -, least⟩ := reaches.exists_atDistance
    have bound := least.lt_cellCount
    exact (layers_zero (free_iff.mpr free)).searchLayers_eq_none nothing (Nat.zero_le m)
      (by omega) least
  · intro noGoal
    cases found : g.distance? origin with
    | none => rfl
    | some n =>
      obtain ⟨p, reaches, goal⟩ := (isLeast_of_distance?_eq_some found).1
      exact absurd goal (noGoal n p reaches)

/-- `distance?` finds a number of steps exactly where it is the least in which a goal can be
reached. -/
theorem distance?_eq_some_iff {n : Nat} :
    g.distance? origin = some n ↔
      IsLeast {n | ∃ p, g.Reaches origin n p ∧ g.cell p = .goal} n := by
  refine ⟨isLeast_of_distance?_eq_some, fun least => ?_⟩
  cases found : g.distance? origin with
  | none =>
    obtain ⟨p, reaches, goal⟩ := least.1
    exact absurd goal (distance?_eq_none_iff.mp found n p reaches)
  | some m => rw [(isLeast_of_distance?_eq_some found).unique least]

/-- `distance`, which programs see, is a number of steps where `distance?` finds one. -/
theorem distance_eq_natCast_iff {n : Nat} :
    g.distance origin = n ↔ g.distance? origin = some n := by
  unfold distance
  cases g.distance? origin with
  | none => simp
  | some hops => simp only [Option.some.injEq, Int.natCast_inj]

/-- `distance`, which programs see, is `-1` where `distance?` finds nothing. -/
theorem distance_eq_neg_one_iff : g.distance origin = -1 ↔ g.distance? origin = none := by
  unfold distance
  cases g.distance? origin with
  | none => simp
  | some hops => simp

/-- **The `distance` is the length of a shortest walk to a goal.** It is the least number of steps
of a walk that `LeadsToGoal` from the origin, and `-1` exactly where there is no such walk; there is
none from a wall or from outside. -/
theorem distance_isLeast_walk (g : Grid) (origin : Position) :
    (∀ n : Nat, g.distance origin = n ↔
      IsLeast {n | ∃ ps, g.LeadsToGoal origin ps ∧ ps.length = n + 1} n) ∧
    (g.distance origin = -1 ↔ ¬ ∃ ps, g.LeadsToGoal origin ps) ∧
    (g.cell origin = .wall ∨ g.inBounds origin = false → g.distance origin = -1) := by
  have none_iff : g.distance origin = -1 ↔ ¬ ∃ ps, g.LeadsToGoal origin ps := by
    rw [distance_eq_neg_one_iff, distance?_eq_none_iff]
    constructor
    · rintro noGoal ⟨ps, leads⟩
      obtain ⟨p, last, goal⟩ := leads.goal
      exact noGoal _ p (leads.toIsWalk.reaches leads.start last) goal
    · intro noWalk n p reaches goal
      obtain ⟨ps, leads, -⟩ := exists_leadsToGoal_iff.mpr ⟨p, reaches, goal⟩
      exact noWalk ⟨ps, leads⟩
  refine ⟨fun n => ?_, none_iff, fun shut => none_iff.mpr ?_⟩
  · simp only [distance_eq_natCast_iff, distance?_eq_some_iff, exists_leadsToGoal_iff]
  · rintro ⟨ps, leads⟩
    have free : g.Free origin := leads.free origin (List.mem_of_mem_head? leads.start)
    rcases shut with wall | outside
    · exact free.2 wall
    · rw [free.1] at outside
      cases outside

end Distance

end MazeRobot.Grid
