import MazeRobot.Level.Basic

/-! # Built-in levels

The levels that are always there, from a straight corridor to a maze in fog.

* `Level.builtInRecords`: the levels as they are written down.
* `Level.builtIn`: the levels, in the order of their numbers. -/

namespace MazeRobot.Level

/-- A corridor without a turn. -/
def straightLine : Record where
  id := 1
  name := "Straight Line"
  description := "Drive the robot straight to the flag."
  heading := "east"
  grid := "#######\n#S...E#\n#######\n"

/-- A corridor with a bend. -/
def simpleTurn : Record where
  id := 2
  name := "Simple Turn"
  description := "The corridor bends. Turn when you reach the corner."
  heading := "east"
  grid := "#######\n#S..###\n###.###\n###..E#\n#######\n"

/-- A winding corridor. -/
def multipleTurns : Record where
  id := 3
  name := "Multiple Turns"
  description := "Follow the winding corridor to the exit."
  heading := "east"
  grid := "#######\n#S....#\n#####.#\n#.....#\n#.#####\n#E#####\n#######\n"

/-- Long straight runs. -/
def zigzag : Record where
  id := 4
  name := "Zigzag Challenge"
  description := "Long straight runs. Use repeat to keep the program short."
  heading := "east"
  grid := "#########\n#S......#\n#######.#\n#.......#\n#.#######\n#......E#\n#########\n"

/-- A maze in fog. -/
def intoTheFog : Record where
  id := 5
  name := "Into the Fog"
  description := .ofString <|
    "You can only see where the robot has been. " ++
      "Use (closer DIR) and (distance-to-end) to find the way."
  heading := "south"
  fog := true
  grid := "#######\n#S#...#\n#.#.#.#\n#...#E#\n#######\n"

/-- The built-in levels as they are written down. -/
def builtInRecords : List Record := [straightLine, simpleTurn, multipleTurns, zigzag, intoTheFog]

/-- The built-in levels, in the order of their numbers. -/
def builtIn : List Level := builtInRecords.filterMap fun record => record.build.toOption

end MazeRobot.Level
