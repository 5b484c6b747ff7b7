import MazeRobot.Maze.Robot

/-! # Levels

A maze together with the place and the heading at which a robot starts, and the words by which
people know it. A level is written down as a record of texts and numbers, as it stands in a file;
building a level from a record checks it.

* `Level`: a playable maze.
* `Level.Record`: a level as it is written down.
* `Level.Record.build`, `Level.record`: from one to the other.
* `Level.arrange`: a set of levels in the order of their numbers. -/

namespace MazeRobot

/-- A playable maze. -/
structure Level where
  /-- The number of the level. -/
  id : Int
  /-- The name of the level. -/
  name : RawText
  /-- What the level is about. -/
  description : RawText
  /-- The maze. -/
  grid : Grid
  /-- Where the robot starts. -/
  start : Position
  /-- Where the robot looks at the start. -/
  heading : Heading
  /-- Whether the maze lies in fog. -/
  fog : Bool
  deriving DecidableEq, Repr

namespace Level

/-- A robot at the start of the level. -/
def robot (level : Level) : Robot := .start level.grid level.start level.heading

/-- The first goal of the maze. -/
def goal? (level : Level) : Option Position := (level.grid.find .goal).head?

/-! ## Records -/

/-- A level as it is written down. -/
structure Record where
  /-- The number of the level. -/
  id : Int := 0
  /-- The name of the level; an empty one is made up from the number. -/
  name : RawText := {}
  /-- What the level is about. -/
  description : RawText := {}
  /-- The name of the heading at the start; an empty one stands for the east. -/
  heading : RawText := {}
  /-- The position at the start, if it is not told by the maze. -/
  start : Option Position := none
  /-- Whether the maze lies in fog. -/
  fog : Bool := false
  /-- The maze as text. -/
  grid : RawText := {}
  deriving DecidableEq, Repr

/-- Why a record describes no level. -/
inductive BuildError where
  /-- The maze cannot be read. -/
  | grid (error : Grid.ParseError)
  /-- The heading is unknown. -/
  | heading (name : RawText)
  /-- The robot has no place to start. -/
  | noStart
  /-- The robot has several places to start. -/
  | manyStarts (count : Nat)
  /-- The robot would start in a wall or outside. -/
  | blockedStart (position : Position)
  /-- There is no goal. -/
  | noGoal
  deriving DecidableEq, Repr

/-- What is said about a record that describes no level. -/
def BuildError.message : BuildError → String
  | grid error => error.message
  | heading name => Heading.unknownMessage name
  | noStart => "no start cell 'S' and no explicit start"
  | manyStarts count => s!"{count} start cells, expected one"
  | blockedStart position => "start " ++ position.display ++ " is a wall or off the grid"
  | noGoal => "no end cell 'E'"

namespace Record

/-- The name of the level, made up from the number where none is given. -/
def levelName (record : Record) : RawText :=
  let id := record.id
  if record.name.isEmpty then .ofString s!"level {id}" else record.name

/-- The heading that a record gives. -/
def levelHeading (record : Record) : Except BuildError Heading :=
  if record.heading.isEmpty then .ok .east
  else
    match Heading.ofName? record.heading.shown with
    | some heading => .ok heading
    | none => .error (.heading record.heading)

/-- The position at which the robot starts: the one given, or the only start cell. -/
def levelStart (record : Record) (grid : Grid) : Except BuildError Position :=
  match record.start with
  | some position => .ok position
  | none =>
    match grid.find .start with
    | [] => .error .noStart
    | [position] => .ok position
    | starts => .error (.manyStarts starts.length)

/-- The level that a record describes. The maze is checked first, then the heading, the start and
the goal. -/
def build (record : Record) : Except BuildError Level := do
  let grid ← (Grid.parse record.grid).mapError .grid
  let heading ← record.levelHeading
  let start ← record.levelStart grid
  if grid.blocked start then throw (.blockedStart start)
  if (grid.find .goal).isEmpty then throw .noGoal
  return {
    id := record.id
    name := record.levelName
    description := record.description.trim
    grid
    start
    heading
    fog := record.fog }

end Record

/-- The record of a level. The start is written out unless the maze tells it. -/
def record (level : Level) : Record where
  id := level.id
  name := level.name
  description := level.description
  heading := .ofString level.heading.name
  start := if level.grid.find .start = [level.start] then none else some level.start
  fog := level.fog
  grid := .ofString (level.grid.text ++ "\n")

/-! ## Sets of levels -/

/-- Two levels of a set with the same number. -/
structure Duplicate where
  /-- The number. -/
  id : Int
  /-- The name of the level that comes first. -/
  first : RawText
  /-- The name of the level that comes after it. -/
  second : RawText
  deriving DecidableEq, Repr

/-- What is said about two levels with the same number. -/
def Duplicate.message (duplicate : Duplicate) : String :=
  let id := duplicate.id
  s!"level: duplicate id {id} (" ++ duplicate.first.quote ++ " and " ++
    duplicate.second.quote ++ ")"

/-- The first two neighbours with the same number. -/
def duplicate? : List Level → Option Duplicate
  | a :: b :: rest =>
    if a.id = b.id then some ⟨b.id, a.name, b.name⟩ else duplicate? (b :: rest)
  | _ => none

/-- The levels in the order of their numbers, which must differ. -/
def arrange (levels : List Level) : Except Duplicate (List Level) :=
  let sorted := levels.mergeSort fun a b => a.id ≤ b.id
  match duplicate? sorted with
  | some duplicate => .error duplicate
  | none => .ok sorted

/-- The level with the given number. -/
def find? (levels : List Level) (id : Int) : Option Level := levels.find? (·.id = id)

end Level

end MazeRobot
