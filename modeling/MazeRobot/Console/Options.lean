import MazeRobot.Word

/-! # Options

The options that stand after a command.

* `Options`: what the options say.
* `Options.parse`: reading them. -/

namespace MazeRobot.Console

/-- What the options of a command say. -/
structure Options where
  /-- The file with the program; empty where none is given. -/
  file : String := ""
  /-- The number of the level. -/
  level : Nat := 1
  /-- The file with the level; empty where none is given. -/
  levelFile : String := ""
  /-- The folder with levels; empty where none is given. -/
  levelFolder : String := ""
  /-- The greatest number of commands of a run, zero for the usual one. -/
  maxSteps : Nat := 0
  /-- Whether to show the maze after a run. -/
  render : Bool := false
  /-- Whether to log what happens. -/
  trace : Bool := false
  /-- Whether to write a program back to its file. -/
  write : Bool := false
  deriving DecidableEq, Repr

/-- Why options cannot be read. -/
inductive OptionError where
  /-- An option lacks its value. -/
  | missingValue (option : String)
  /-- The value of an option is not a number of the right kind. -/
  | badNumber (option : String)
  /-- An option is unknown. -/
  | unknown (option : String)
  deriving DecidableEq, Repr

/-- What is said about options that cannot be read. -/
def OptionError.message : OptionError → String
  | missingValue option => "Error: " ++ option ++ " requires a value\n"
  | badNumber option => "Error: " ++ option ++ " expects a non-negative number\n"
  | unknown option => "Unknown option: " ++ option ++ "\n"

/-- The number that decimal digits give. -/
def digits? (cs : List Char) : Option Nat :=
  if cs.isEmpty || !cs.all Char.isDigit then none
  else some (cs.foldl (fun n c => 10 * n + (c.toNat - '0'.toNat)) 0)

/-- The number that a value gives, if it is not negative and fits in a signed word of 64 bits. -/
def number? (value : String) : Option Nat :=
  match value.toList with
  | '+' :: cs => (digits? cs).filter (· < wordBound)
  | '-' :: cs => (digits? cs).filter (· = 0)
  | cs => (digits? cs).filter (· < wordBound)

namespace Options

/-- Reads further arguments; a file given later takes the place of one given before. -/
def read (options : Options) : List String → Except OptionError Options
  | [] => .ok options
  | "--level" :: rest =>
    match rest with
    | [] => .error (.missingValue "--level")
    | value :: rest =>
      match number? value with
      | some level => { options with level }.read rest
      | none => .error (.badNumber "--level")
  | "--level-file" :: rest =>
    match rest with
    | [] => .error (.missingValue "--level-file")
    | levelFile :: rest => { options with levelFile }.read rest
  | "--level-dir" :: rest =>
    match rest with
    | [] => .error (.missingValue "--level-dir")
    | levelFolder :: rest => { options with levelFolder }.read rest
  | "--max-steps" :: rest =>
    match rest with
    | [] => .error (.missingValue "--max-steps")
    | value :: rest =>
      match number? value with
      | some maxSteps => { options with maxSteps }.read rest
      | none => .error (.badNumber "--max-steps")
  | "--render" :: rest => { options with render := true }.read rest
  | "--trace" :: rest => { options with trace := true }.read rest
  | "-w" :: rest => { options with write := true }.read rest
  | file :: rest =>
    if file.toList.head? = some '-' then .error (.unknown file) else { options with file }.read rest

/-- The options that arguments give. -/
def parse (arguments : List String) : Except OptionError Options := ({} : Options).read arguments

end Options

end MazeRobot.Console
