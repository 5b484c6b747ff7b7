import MazeRobot.Text.Quoted
import MazeRobot.Text.Utf8

/-! # Misfits

What can be wrong with a well-formed document that should hold a level: a value is of the wrong
sort, a key is not known, or something is set twice.

* `Reading`: what a node of a document is read as.
* `Misfit`: something in a document that does not fit. -/

namespace MazeRobot

/-- What a node of a document is read as. -/
inductive Reading where
  /-- A whole number. -/
  | int
  /-- A text. -/
  | string
  /-- A truth value. -/
  | bool
  /-- A position. -/
  | position
  /-- A position that may be left out. -/
  | positionIfAny
  /-- A level. -/
  | level
  deriving DecidableEq, Repr

/-- The name of what a node is read as. -/
def Reading.name : Reading → String
  | int => "int"
  | string => "string"
  | bool => "bool"
  | position => "maze.Position"
  | positionIfAny => "*maze.Position"
  | level => "maze.levelFile"

/-- Something in a document that does not fit, with its line. -/
inductive Misfit where
  /-- A node cannot be read as what it should be. The text of a collection is empty. -/
  | value (line : Nat) (tag text : String) (reading : Reading)
  /-- A key is not known. -/
  | field (line : Nat) (name : String) (reading : Reading)
  /-- A field is set by two keys. -/
  | repeated (line : Nat) (name : String) (reading : Reading)
  /-- A key stands twice in a mapping. -/
  | duplicate (line : Nat) (key : String) (firstLine : Nat)
  deriving DecidableEq, Repr

namespace Misfit

/-- The text of a scalar as it is shown: of one longer than ten bytes only the first seven. -/
def excerpt (text : String) : String :=
  if Text.byteLength text ≤ 10 then text else Text.readable ((Text.utf8 text).take 7) ++ "..."

/-- How a value is shown by its tag and its text. After the tag of a collection the text stands as
it is. -/
def exhibit (tag text : String) : String :=
  if tag = "!!seq" || tag = "!!map" then tag ++ text else tag ++ " `" ++ excerpt text ++ "`"

/-- What is said about a misfit. -/
def message : Misfit → String
  | value line tag text reading =>
    let name := reading.name
    let shown := exhibit tag text
    s!"line {line}: cannot unmarshal {shown} into {name}"
  | field line name reading =>
    let type := reading.name
    s!"line {line}: field {name} not found in type {type}"
  | repeated line name reading =>
    let type := reading.name
    s!"line {line}: field {name} already set in type {type}"
  | duplicate line key firstLine =>
    s!"line {line}: mapping key " ++ Text.quote key ++ s!" already defined at line {firstLine}"

end Misfit

end MazeRobot
