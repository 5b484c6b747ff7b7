import MazeRobot.Fault.Basic

/-! # Diagnostics

Messages about a program, graded by severity, and collections of them in the order in which they
were made.

* `Diagnostic`: a graded message.
* `Diagnostics`: a collection, with its counts and its text. -/

namespace MazeRobot

/-- How bad a message is. -/
inductive Severity where
  /-- The program cannot be run. -/
  | error
  /-- The program can be run but looks wrong. -/
  | warning
  /-- A remark. -/
  | info
  deriving DecidableEq, Repr

namespace Severity

/-- The name of a severity. -/
def name : Severity → String
  | error => "error"
  | warning => "warning"
  | info => "info"

/-- All severities, in the order of their numbers. -/
def all : List Severity := [error, warning, info]

/-- The name shown for a number, also one that numbers no severity. -/
def nameOfCode (n : Int) : String :=
  if n < 0 then "unknown" else (all[n.toNat]?).elim "unknown" name

end Severity

/-- A message with a severity. -/
structure Diagnostic extends Notice where
  /-- How bad it is. -/
  severity : Severity
  deriving DecidableEq, Repr

namespace Diagnostic

/-- A fault as an error message. -/
def ofNotice (notice : Notice) : Diagnostic := { notice with severity := .error }

/-- A warning about a place. -/
def warning (line column : Int) (message : String) (hint? : Option String := none) : Diagnostic :=
  { severity := .warning, message, line, column, hint? }

/-- A message as one or two lines of text: severity, place and message, then the hint. -/
def format (file : String) (d : Diagnostic) : String :=
  let severity := d.severity.name
  let line := d.line
  let column := d.column
  let first := s!"{severity}[{file}:{line}:{column}]: " ++ d.message
  match d.hint? with
  | some hint => first ++ s!"\n  hint: {hint}"
  | none => first

end Diagnostic

/-- A collection of messages, oldest first. -/
abbrev Diagnostics := List Diagnostic

namespace Diagnostics

/-- The messages that are errors. -/
def errors (ds : Diagnostics) : List Diagnostic := ds.filter (·.severity = .error)

/-- Whether some message is an error. -/
def hasErrors (ds : Diagnostics) : Bool := ds.any (·.severity = .error)

/-- The number of warnings. -/
def warningCount (ds : Diagnostics) : Nat := ds.countP (·.severity = .warning)

/-- The messages as text, separated by line breaks. -/
def format (file : String) (ds : Diagnostics) : String :=
  String.intercalate "\n" (ds.map (·.format file))

end Diagnostics

end MazeRobot
