import MazeRobot.Machine.Event
import MazeRobot.Text.Printable
import MazeRobot.Text.Quoted

/-! # Log lines

Events as lines of a log: the importance, the message and the details, each as a key and a value.

* `logLine`: the line of an event.
* `logText`: the lines of a journal. -/

namespace MazeRobot.Console

/-- Whether a character makes a value stand between quotes. -/
def needsQuotes (c : Char) : Bool :=
  if c.toNat < 0x80 then c.toNat < 0x20 || c = ' ' || c = '=' || c = '"'
  else c = Text.replacement || !Text.isPrintable c

/-- A value as it stands in a log line. -/
def logValue (value : String) : String :=
  if value.isEmpty || value.toList.any needsQuotes then Text.quote value else value

/-- The line of an event. -/
def logLine (event : Event) : String :=
  let fields :=
    ("level", event.importance.name) :: ("msg", event.message) :: event.fields
  String.intercalate " " (fields.map fun (key, value) => key ++ "=" ++ logValue value) ++ "\n"

/-- The lines of a journal, which holds the newest event first. -/
def logText (journal : List Event) : String := String.join (journal.reverse.map logLine)

end MazeRobot.Console
