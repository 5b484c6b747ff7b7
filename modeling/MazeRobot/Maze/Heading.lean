import MazeRobot.Text.LowerCase
import MazeRobot.Text.Raw

/-! # Headings and positions

Where a robot can look and where it can stand. A heading is one of the four points of the compass;
turning adds quarter turns in machine arithmetic. A position is a pair of coordinates, with the
second one growing southwards.

* `Heading.turn`: a heading after some quarter turns to the right.
* `Heading.ofName?`: the heading with a name.
* `Position.step`: the neighbour in a heading. -/

namespace MazeRobot

/-- A point of the compass. -/
inductive Heading where
  /-- Towards the first row. -/
  | north
  /-- Away from the first column. -/
  | east
  /-- Away from the first row. -/
  | south
  /-- Towards the first column. -/
  | west
  deriving DecidableEq, Repr

namespace Heading

/-- All headings, clockwise from the north. -/
def all : List Heading := [north, east, south, west]

/-- The name of a heading. -/
def name : Heading → String
  | north => "north"
  | east => "east"
  | south => "south"
  | west => "west"

/-- The number of a heading: its quarter turns to the right from the north. -/
def code : Heading → Int64
  | north => 0
  | east => 1
  | south => 2
  | west => 3

/-- The heading with a number from zero to three; any other number is taken for the west. -/
def ofCode (n : Int64) : Heading :=
  if n = 0 then north else if n = 1 then east else if n = 2 then south else west

/-- The heading with the given number. -/
def ofCode? (n : Int) : Option Heading := if n < 0 then none else all[n.toNat]?

/-- The name shown for a number, also one that numbers no heading. -/
def nameOfCode (n : Int) : String := (ofCode? n).elim "unknown" name

/-- The heading after some quarter turns to the right. The sum wraps around at 64 bits and the
remainder has the sign of the sum, so it is lifted above zero before it is reduced once more. -/
def turn (heading : Heading) (quarterTurns : Int64) : Heading :=
  ofCode (((heading.code + quarterTurns) % 4 + 4) % 4)

/-- The heading with the given name: the compass point, its initial or a word for the direction on
the page. Blanks at the ends and letter case do not count. -/
def ofName? (name : String) : Option Heading :=
  match Text.lower (Text.trim name) with
  | "north" | "n" | "up" => some north
  | "east" | "e" | "right" => some east
  | "south" | "s" | "down" => some south
  | "west" | "w" | "left" => some west
  | _ => none

/-- What is said about a name that is no heading. -/
def unknownMessage (name : RawText) : String := "unknown heading " ++ name.quote

/-- `ofCode` reads back what `code` writes. -/
@[simp] theorem ofCode_code (heading : Heading) : ofCode heading.code = heading := by
  cases heading <;> rfl

end Heading

/-- A place in the plane. -/
structure Position where
  /-- The column. -/
  x : Int
  /-- The row; rows are counted southwards. -/
  y : Int
  deriving DecidableEq, Repr

namespace Position

/-- A position in a message. -/
def display (p : Position) : String :=
  let x := p.x
  let y := p.y
  s!"({x},{y})"

/-- The neighbour in a heading. -/
def step (p : Position) : Heading → Position
  | .north => ⟨p.x, p.y - 1⟩
  | .east => ⟨p.x + 1, p.y⟩
  | .south => ⟨p.x, p.y + 1⟩
  | .west => ⟨p.x - 1, p.y⟩

/-- The four neighbours. -/
def neighbours (p : Position) : List Position := Heading.all.map p.step

end Position

end MazeRobot
