import MazeRobot.Console.History
import MazeRobot.Console.Log
import MazeRobot.Session.Play

/-! # Stepping by hand

A session that someone drives by short commands: one step, the rest of the program, a fresh start, a
look at the maze.

* `Request`: what can be asked for.
* `Stepper`: the session, the history of commands, and what to say.
* `Stepper.answer`: the stepper after a line of input. -/

namespace MazeRobot.Console

/-- What someone asks of a stepper. -/
inductive Request where
  /-- One step. -/
  | step
  /-- All steps up to the end. -/
  | play
  /-- A fresh start. -/
  | reset
  /-- A look at the maze. -/
  | map
  /-- The end. -/
  | quit
  /-- The list of commands. -/
  | help
  /-- Something unknown. -/
  | unknown (command : String)
  deriving DecidableEq, Repr

/-- The request that a command stands for. -/
def Request.ofCommand (command : String) : Request :=
  match command with
  | "" | "s" | "step" => .step
  | "p" | "play" => .play
  | "r" | "reset" => .reset
  | "m" | "map" => .map
  | "q" | "quit" | "exit" => .quit
  | "h" | "help" | "?" => .help
  | other => .unknown other

/-- The list of commands. -/
def stepHelp : String := "Commands:
  <enter>, s, step    issue the next command
  p, play             run to the end (Ctrl-C pauses)
  r, reset            start the level again
  m, map              show the maze
  q, quit             leave
"

/-- What is said after a step. -/
def describeStep (report : Session.StepReport) : String :=
  let line := report.result.line
  let command := report.result.instruction
  let place := report.position.display
  let heading := report.heading.name
  (if !command.isEmpty then s!"line {line}: {command} -> {place} facing {heading}\n"
    else if report.outcome = .outOfProgram then "program finished\n"
    else "") ++
  (match report.outcome with
    | .completed => "Goal reached!\n"
    | .failed => "Error: " ++ report.failure?.getD "" ++ "\n"
    | _ => "")

/-- A session that someone drives by short commands. -/
structure Stepper where
  /-- The session. -/
  session : Session
  /-- The commands entered so far. -/
  history : History
  deriving Repr

/-- What a stepper does on a line of input. -/
structure Response where
  /-- The stepper after it. -/
  stepper : Stepper
  /-- What it says. -/
  out : String
  /-- What it logs. -/
  log : String
  /-- Whether it is the end. -/
  ended : Bool
  deriving Repr

namespace Stepper

/-- The maze as the robot sees it, with a line break. -/
def maze (session : Session) : String := session.robot.picture session.level.fog ++ "\n"

/-- What is said at the start. -/
def greeting (stepper : Stepper) : String :=
  let level := stepper.session.level
  let id := level.id
  let name := level.name.shown
  s!"Level {id}: {name}\n" ++
    (if level.description.isEmpty then "" else level.description.shown ++ "\n") ++
    maze stepper.session ++ stepHelp

/-- What stands before each line of input. -/
def prompt (stepper : Stepper) : String := "[" ++ stepper.session.outcome.name ++ "] > "

/-- The session after a request, what is said, and whether it is the end. -/
def serve (session : Session) (request : Request) : Session × String × Bool :=
  match request with
  | .step =>
    let (session, report) := session.step
    (session, describeStep report ++ maze session, false)
  | .play =>
    let played := session.play none
    (played.session, String.join (played.reports.map describeStep) ++ maze played.session, false)
  | .reset =>
    let session := session.reset
    (session, maze session, false)
  | .map => (session, maze session, false)
  | .quit => (session, "", true)
  | .help => (session, stepHelp, false)
  | .unknown command =>
    (session, "unknown command " ++ Text.quote command ++ ". Type help for a list.\n", false)

/-- The command on a line of input: blanks at its ends and letter case do not count. -/
def commandOf (line : Line) : String := Text.lower (Text.trim (Text.readable line.bytes))

/-- The session with an empty journal, and what the journal held as lines of a log. -/
def takeLog (session : Session) : Session × String :=
  ({ session with machine := { session.machine with journal := [] } },
    logText session.machine.journal)

/-- The stepper after a line of input. -/
def answer (stepper : Stepper) (line : Line) : Response :=
  let command := commandOf line
  let history := if command.isEmpty then stepper.history else stepper.history.add command
  let (session, out, ended) := serve stepper.session (.ofCommand command)
  let (session, log) := takeLog session
  { stepper := ⟨session, history⟩, out, log, ended }

/-- The stepper after several lines of input, with all that it says and logs. At the end of the
input the last line is closed. -/
def answerAll (stepper : Stepper) : List Line → Stepper × String × String
  | [] => (stepper, stepper.prompt ++ "\n", "")
  | line :: rest =>
    let response := stepper.answer line
    let said := stepper.prompt ++ response.out
    if response.ended then (response.stepper, said, response.log)
    else
      let (last, out, log) := response.stepper.answerAll rest
      (last, said ++ out, response.log ++ log)

end Stepper

end MazeRobot.Console
