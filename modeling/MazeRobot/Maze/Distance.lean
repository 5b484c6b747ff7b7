import MazeRobot.Maze.Grid

/-! # Distances

The least number of steps from a position to a goal, by breadth-first search. The search goes out in
layers: a layer holds the positions at one distance, and the next layer holds their passable
neighbours that are neither in it nor in the layer before. The steps of a maze go both ways, so no
neighbour of a layer can lie further back. A search with one queue finds the same distance, as
`Grid.queueDistance?_eq_distance?` shows.

* `Grid.nextLayer`: one layer from the two before it.
* `Grid.distance?`: the distance to the nearest goal, where one can be reached. -/

namespace MazeRobot.Grid

/-- The positions one step further than the layer `current`, which follows the layer `previous`. -/
def nextLayer (g : Grid) (previous current : List Position) : List Position :=
  ((current.flatMap Position.neighbours).filter fun p =>
    !g.blocked p && !previous.contains p && !current.contains p).eraseDups

/-- The distance of the first layer that holds a goal, for at most `bound` layers from `current`,
whose own distance is `hops`. -/
def searchLayers (g : Grid) (bound hops : Nat) (previous current : List Position) : Option Nat :=
  match bound with
  | 0 => none
  | bound + 1 =>
    if current.any fun p => g.cell p = .goal then some hops
    else if current.isEmpty then none
    else searchLayers g bound (hops + 1) current (g.nextLayer previous current)

/-- The least number of steps from a position to a goal. The layers are disjoint, so there are no
more of them than cells. -/
def distance? (g : Grid) (origin : Position) : Option Nat :=
  if g.blocked origin then none else g.searchLayers (g.cellCount + 1) 0 [] [origin]

/-- The distance as a number that programs see: `-1` where no goal can be reached. -/
def distance (g : Grid) (origin : Position) : Int :=
  match g.distance? origin with
  | some hops => hops
  | none => -1

end MazeRobot.Grid
