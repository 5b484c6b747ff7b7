import MazeRobot.Console.Lines

/-! # Command history

The commands that someone has entered, kept in a file from one time to the next.

* `History.ofBytes`: the history that a file holds.
* `History.add`: one more command.
* `History.text`: the history as a file holds it. -/

namespace MazeRobot.Console

/-- The commands that have been entered, newest first. -/
structure History where
  /-- The commands, newest first. -/
  entries : List String
  deriving DecidableEq, Repr

namespace History

/-- The greatest number of commands that are kept. -/
def limit : Nat := 1000

/-- The history without commands. -/
def empty : History := ⟨[]⟩

/-- The history with one more command, whatever it is. -/
def push (history : History) (command : String) : History :=
  ⟨(command :: history.entries).take limit⟩

/-- The history with one more command, unless it is the same as the one before. -/
def add (history : History) (command : String) : History :=
  if history.entries.head? = some command then history else history.push command

/-- The history with the lines of a file. Reading ends at a line that is too long or no text. -/
def read (history : History) : List Line → History
  | [] => history
  | line :: rest =>
    if line.continues then history
    else
      match String.fromUTF8? ⟨line.bytes.toArray⟩ with
      | some command => (history.push command).read rest
      | none => history

/-- The history that a file holds. -/
def ofBytes (bytes : List UInt8) : History := empty.read (lines bytes)

/-- The history as a file holds it: a line for each command, oldest first. -/
def text (history : History) : String := String.join (history.entries.reverse.map (· ++ "\n"))

end History

end MazeRobot.Console
