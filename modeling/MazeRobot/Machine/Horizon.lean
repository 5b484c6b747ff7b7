import MazeRobot.Machine.Basic
import MazeRobot.Program.Walk

/-! # Horizons

How many commands a program can give at most. There is no arithmetic in programs, so every value is
one that is written in the program or a distance in the maze; this bounds the rounds of a loop.
Loops nest no deeper than the program has nodes, and calls no deeper than the limit.

* `Program.greatestValue`: a bound on the values that a program can hold.
* `Program.horizon`: a bound on the commands that it can give. -/

namespace MazeRobot

/-- The number that a node writes out, zero for every other node. -/
def Node.literal : Node → Nat
  | .expr (.number value _) => value.toNat
  | _ => 0

namespace Program

/-- A bound on the values that a program can hold in a maze. -/
def greatestValue (program : Program) (grid : Grid) : Nat :=
  (program.nodes.map Node.literal).foldl max grid.cellCount

/-- A bound on the commands that one body can give, a call counting as one: each of its nodes is run
at most once for every round of the loops around it. -/
def bodyHorizon (program : Program) (grid : Grid) : Nat :=
  let size := program.nodes.length + 1
  size * Nat.pow (program.greatestValue grid + 1) size

/-- A bound on the commands that a program can give: calls nest no deeper than the limit, and each
is run by one body. -/
def horizon (program : Program) (grid : Grid) (limits : Limits) : Nat :=
  Nat.pow (program.bodyHorizon grid) (limits.maxCallDepth + 1)

end Program

end MazeRobot
