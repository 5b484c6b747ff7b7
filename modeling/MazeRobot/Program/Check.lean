import MazeRobot.Program.Lint
import MazeRobot.Program.Parse

/-! # Checking a source

A source is either faulty, and then the fault is the only message about it, or it is a program, and
then the messages are its warnings.

* `Program.check`: the program, if there is one, and the messages. -/

namespace MazeRobot

/-- The program of a source, if it has one, and the messages about the source. -/
def Program.check (source : List UInt8) : Option Program × Diagnostics :=
  match parse source with
  | .ok program => (some program, program.lint)
  | .error fault => (none, [.ofNotice fault.notice])

end MazeRobot
