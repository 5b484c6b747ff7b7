/-! # Directions

The four directions in which the robot can sense, relative to where it faces. A direction is also a
number of quarter turns to the right.

* `Direction`: front, right, back and left.
* `Direction.ofName?`: reading a direction's name. -/

namespace MazeRobot

/-- A direction relative to the robot. -/
inductive Direction where
  /-- Where the robot faces. -/
  | front
  /-- A quarter turn to the right. -/
  | right
  /-- Half a turn. -/
  | back
  /-- A quarter turn to the left. -/
  | left
  deriving DecidableEq, Repr

namespace Direction

/-- All directions, in the order of their numbers. -/
def all : List Direction := [front, right, back, left]

/-- The name of a direction. -/
def name : Direction → String
  | front => "front"
  | right => "right"
  | back => "back"
  | left => "left"

/-- The number of a direction: its quarter turns to the right. -/
def code : Direction → Nat
  | front => 0
  | right => 1
  | back => 2
  | left => 3

/-- The direction with the given name. -/
def ofName? (name : String) : Option Direction := all.find? (·.name = name)

/-- The name shown for a number, also one that numbers no direction. -/
def nameOfCode (n : Int) : String :=
  if n < 0 then "unknown" else (all[n.toNat]?).elim "unknown" name

/-- The quarter turns of a direction as a machine integer. -/
def quarterTurns (direction : Direction) : Int64 := Int64.ofNat direction.code

/-- `ofName?` reads back what `name` writes. -/
@[simp] theorem ofName?_name (direction : Direction) : ofName? direction.name = some direction := by
  cases direction <;> rfl

end Direction

end MazeRobot
