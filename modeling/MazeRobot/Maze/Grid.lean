import MazeRobot.Maze.Heading

/-! # Grids

A maze is a list of rows of cells. Rows may differ in length, and the outside counts as wall.

* `Cell`: what a place of the maze holds.
* `Grid.cell`, `Grid.blocked`: what stands at a position.
* `Grid.find`: the positions that hold a cell.
* `Grid.parse`, `Grid.text`: mazes as text, one character to a cell. -/

namespace MazeRobot

/-- What a place of the maze holds. -/
inductive Cell where
  /-- Nothing. -/
  | empty
  /-- A wall. -/
  | wall
  /-- The place where the robot starts. -/
  | start
  /-- A goal. -/
  | goal
  /-- Anything else, which the robot can pass, by its number. -/
  | other (code : Int)
  deriving DecidableEq, Repr

namespace Cell

/-- The cell with the given number. -/
def ofCode (n : Int) : Cell :=
  if n = 0 then empty else if n = 1 then wall else if n = 2 then start else if n = 3 then goal
  else other n

/-- The name of a cell. -/
def name : Cell → String
  | empty => "empty"
  | wall => "wall"
  | start => "start"
  | goal => "end"
  | other _ => "unknown"

/-- The character that draws a cell. -/
def char : Cell → Char
  | wall => '#'
  | start => 'S'
  | goal => 'E'
  | empty => '.'
  | other _ => '.'

/-- The cell drawn by a byte. A blank draws an empty cell too. -/
def ofByte? (b : UInt8) : Option Cell :=
  if b = 0x23 then some wall
  else if b = 0x2e || b = 0x20 then some empty
  else if b = 0x53 then some start
  else if b = 0x45 then some goal
  else none

end Cell

/-- A maze: its rows from north to south, each from west to east. -/
structure Grid where
  /-- The rows. -/
  rows : List (List Cell)
  deriving DecidableEq, Repr

namespace Grid

/-- The number of rows. -/
def height (g : Grid) : Nat := g.rows.length

/-- The length of the first row. -/
def width (g : Grid) : Nat := (g.rows.head?.map List.length).getD 0

/-- The cell at a position, if it is on the grid. -/
def cell? (g : Grid) (p : Position) : Option Cell :=
  if p.x < 0 || p.y < 0 then none
  else g.rows[p.y.toNat]?.bind (·[p.x.toNat]?)

/-- West of the first column and north of the first row `cell?` finds nothing. -/
theorem cell?_of_neg {g : Grid} {p : Position} (outside : p.x < 0 ∨ p.y < 0) :
    g.cell? p = none := by
  rw [cell?, if_pos (by simpa using outside)]

/-- `cell?` of natural numbers: the column is looked up in the row. -/
theorem cell?_natCast (g : Grid) (x y : Nat) : g.cell? ⟨x, y⟩ = g.rows[y]?.bind (·[x]?) := by
  have inside : ¬ ((x : Int) < 0 || (y : Int) < 0) = true := by simp
  rw [cell?, if_neg inside]
  rfl

/-- Whether a position is on the grid. -/
def inBounds (g : Grid) (p : Position) : Bool := (g.cell? p).isSome

/-- The cell at a position; the outside is wall. -/
def cell (g : Grid) (p : Position) : Cell := (g.cell? p).getD .wall

/-- Whether a position is a wall or off the grid. -/
def blocked (g : Grid) (p : Position) : Bool := g.cell p = .wall

/-- The positions of a row that hold a cell. -/
def findInRow (kind : Cell) (y : Nat) (row : List Cell) : List Position :=
  row.zipIdx.filterMap fun (c, x) => if c = kind then some ⟨x, y⟩ else none

/-- The positions that hold a cell, row by row. -/
def find (g : Grid) (kind : Cell) : List Position :=
  g.rows.zipIdx.flatMap fun (row, y) => findInRow kind y row

/-- The number of cells. -/
def cellCount (g : Grid) : Nat := g.rows.foldr (fun row count => row.length + count) 0

/-! ## Grids as text -/

/-- The characters of a row. -/
def rowText (row : List Cell) : List Char := row.map Cell.char

/-- The rows of a grid as text, separated by line breaks. -/
def text (g : Grid) : String :=
  String.intercalate "\n" (g.rows.map fun row => String.ofList (rowText row))

/-- Why a text is no grid. -/
inductive ParseError where
  /-- There is no row. -/
  | empty
  /-- A row is not as long as the first one. -/
  | ragged (row width expected : Nat)
  /-- A byte draws no cell. -/
  | unknownCell (byte : UInt8) (row column : Nat)
  deriving DecidableEq, Repr

/-- What is said about a text that is no grid. -/
def ParseError.message : ParseError → String
  | empty => "grid is empty"
  | ragged row width expected => s!"row {row} has width {width}, expected {expected}"
  | unknownCell byte row column =>
    "unknown cell " ++ Text.quoteChar (Char.ofNat byte.toNat) ++ s!" at row {row} column {column}"

/-- The glyphs with each carriage return before a line break left out. -/
def plainBreaks : List Glyph → List Glyph
  | .char '\r' :: .char '\n' :: rest => .char '\n' :: plainBreaks rest
  | g :: rest => g :: plainBreaks rest
  | [] => []

/-- The lines of a text, split at each line break. -/
def lines : List Glyph → List (List Glyph)
  | [] => [[]]
  | g :: rest =>
    if g = .char '\n' then [] :: lines rest
    else
      match lines rest with
      | line :: others => (g :: line) :: others
      | [] => [[g]]

/-- Whether a line holds nothing but blanks. -/
def isBlankLine (line : List Glyph) : Bool := line.all Glyph.isBlank

/-- The lines without the blank ones at both ends. -/
def inkedLines (ls : List (List Glyph)) : List (List Glyph) :=
  ((ls.dropWhile isBlankLine).reverse.dropWhile isBlankLine).reverse

/-- The cells of a row of bytes; the first byte that draws none is the error. -/
def parseRow (y x : Nat) : List UInt8 → Except ParseError (List Cell)
  | [] => .ok []
  | b :: rest =>
    match Cell.ofByte? b with
    | none => .error (.unknownCell b y x)
    | some c => do
      let cells ← parseRow y (x + 1) rest
      return c :: cells

/-- The rows of a grid, all of one width in bytes; the first faulty row is the error. -/
def parseRows (width y : Nat) : List (List UInt8) → Except ParseError (List (List Cell))
  | [] => .ok []
  | row :: rest =>
    if row.length ≠ width then .error (.ragged y row.length width)
    else do
      let cells ← parseRow y 0 row
      let others ← parseRows width (y + 1) rest
      return cells :: others

/-- The byte rows of a text: its lines, without blank lines at both ends. -/
def byteRows (text : RawText) : List (List UInt8) :=
  (inkedLines (lines (plainBreaks text.glyphs))).map (·.flatMap Glyph.bytes)

/-- The grid that a text draws. -/
def parse (text : RawText) : Except ParseError Grid :=
  match byteRows text with
  | [] => .error .empty
  | row :: rest => do
    let rows ← parseRows row.length 0 (row :: rest)
    return ⟨rows⟩

end Grid

end MazeRobot
