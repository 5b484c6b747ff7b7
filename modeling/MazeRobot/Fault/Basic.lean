import MazeRobot.Fault.Cause

/-! # Faults

A cause together with the place in the source that it concerns, and the texts by which a fault is
shown to the user.

* `Notice`: a message with a place and a hint; `Notice.text` and `Notice.detail` write it out.
* `Fault`: a cause with a place. -/

namespace MazeRobot

/-- A message about a place of the source. Lines and columns count from one; a line that is not
positive is unknown. -/
structure Notice where
  /-- What is said. -/
  message : String
  /-- The line that the message concerns. -/
  line : Int
  /-- The column that the message concerns. -/
  column : Int
  /-- What could be done about it. -/
  hint? : Option String := none
  deriving DecidableEq, Repr

namespace Notice

/-- The message with its line, where that is known. -/
def text (notice : Notice) : String :=
  let line := notice.line
  if 0 < line then notice.message ++ s!" at line {line}" else notice.message

/-- The message with its line and its hint, where there is one. -/
def detail (notice : Notice) : String :=
  match notice.hint? with
  | some hint => notice.text ++ s!" ({hint})"
  | none => notice.text

end Notice

/-- A cause at a place of the source. -/
structure Fault where
  /-- What is wrong. -/
  cause : Cause
  /-- The line that is at fault, or zero where it is unknown. -/
  line : Int
  /-- The column that is at fault, or zero where it is unknown. -/
  column : Int
  deriving DecidableEq, Repr

namespace Fault

/-- The kind of a fault. -/
def kind (fault : Fault) : Kind := fault.cause.kind

/-- The message of a fault. -/
def message (fault : Fault) : String := fault.cause.message

/-- The hint of a fault, where there is one. -/
def hint? (fault : Fault) : Option String := fault.cause.hint?

/-- The fault as a message about its place. -/
def notice (fault : Fault) : Notice :=
  ⟨fault.message, fault.line, fault.column, fault.hint?⟩

/-- The message with the line. -/
def text (fault : Fault) : String := fault.notice.text

/-- The message with the line and the hint. -/
def detail (fault : Fault) : String := fault.notice.detail

end Fault

end MazeRobot
