import MazeRobot.Console.Options
import MazeRobot.Console.Stepper
import MazeRobot.Level.BuiltIn
import MazeRobot.Level.Load
import MazeRobot.Program.Check
import MazeRobot.Program.Layout

/-! # The command line

The commands that people enter: to run a program or step through it, to check it, to lay it out, to
show its tree, to list the levels. Files are asked of a file store, so that a command means the same
on a disk and on a file tree.

* `Reply`: what a command says, and its exit code.
* `start`: a command up to its reply, or up to the point where it reads input.
* `run`: a command with all of its input. -/

namespace MazeRobot.Console

/-- What is said about the use of the commands. -/
def usage : String := "mazebot - run maze robot programs

Usage:
  mazebot run [options] <file.robot>     Run a program against a level
  mazebot step [options] <file.robot>    Step through a program interactively
  mazebot check <file.robot>             Parse and lint only
  mazebot lint <file.robot>              Run lint checks
  mazebot fmt [-w] <file.robot>          Print canonical source (or rewrite with -w)
  mazebot ast <file.robot>               Print the parsed syntax tree
  mazebot levels [--level-dir <dir>]     List available levels

Options:
  --level <id>          Built-in level to use (default 1)
  --level-file <path>   Load the level from a YAML file
  --level-dir <dir>     Load levels from a directory instead of the built-ins
  --max-steps <n>       Stop a run after n commands (default 10000)
  --render              Print the maze after the run
  --trace               Log execution details to stderr

Examples:
  mazebot run --level 3 solve.robot
  mazebot step --level-file mazes/spiral.yaml solve.robot
  mazebot fmt -w solve.robot
"

/-- What a command says, and its exit code. -/
structure Reply where
  /-- The exit code. -/
  code : Nat := 0
  /-- What is said on the standard output. -/
  out : String := ""
  /-- What is said on the standard error output. -/
  err : String := ""
  deriving DecidableEq, Repr

/-- The reply of a command that fails. -/
def Reply.failure (err : String) : Reply := { code := 1, err }

/-- What a command leads to before it reads input. -/
inductive Start where
  /-- It is done. -/
  | finished (reply : Reply)
  /-- It goes on to read input. -/
  | stepping (stepper : Stepper)

/-- The path of the file that keeps the history of commands, in the folder of the user. -/
def historyPath (home : String) : String := Path.inside home ".mazebot_history"

/-! ## Pieces of replies -/

/-- A text followed by blanks up to a width. -/
def padRight (width : Nat) (text : String) : String :=
  text ++ String.ofList (List.replicate (width - text.length) ' ')

/-- A text after blanks up to a width. -/
def padLeft (width : Nat) (text : String) : String :=
  String.ofList (List.replicate (width - text.length) ' ') ++ text

/-- The line of a level in the list of levels. -/
def levelLine (level : Level) : String :=
  let width := level.grid.width
  let height := level.grid.height
  let distance := level.robot.distanceToGoal
  padLeft 3 (toString level.id) ++ "  " ++ padRight 20 level.name.shown ++
    s!" {width}x{height}, {distance} steps to the goal" ++
    (if level.fog then " (fog of war)" else "") ++ "\n"

/-- The reply after a run. The exit code tells whether the robot reached a goal. -/
def runReply (options : Options) (session : Session) : Reply :=
  let (session, stopped) := session.run options.maxSteps false
  let summary := session.summary
  let id := session.level.id
  let name := session.level.name.shown
  let outcome := summary.outcome.name
  let steps := summary.steps
  { code := if summary.outcome = .completed then 0 else 2
    out :=
      s!"Level {id}: {name}\nResult: {outcome} after {steps} command(s)\n" ++
      (match summary.failure? with
        | some failure => "Error: " ++ failure ++ "\n"
        | none => "") ++
      (match stopped with
        | some interruption => "Stopped: " ++ interruption.message ++ "\n"
        | none => "") ++
      (if options.render then Stepper.maze session else "")
    err := logText session.machine.journal }

/-- The reply to a check of a program. -/
def checkReply (options : Options) (source : List UInt8) : Reply :=
  let found := (Program.check source).2
  if Diagnostics.hasErrors found then .failure (Diagnostics.format options.file found ++ "\n")
  else
    let warnings := found.map fun d =>
      let line := d.line
      options.file ++ s!":{line}: warning: " ++ d.message ++ "\n"
    { out := String.join warnings ++ "No errors found.\n" }

/-- The reply with the warnings about a program. -/
def lintReply (options : Options) (source : List UInt8) : Reply :=
  let found := (Program.check source).2
  if Diagnostics.hasErrors found then .failure (Diagnostics.format options.file found ++ "\n")
  else if found.isEmpty then { out := "No lint warnings.\n" }
  else
    let count := found.length
    { out := Diagnostics.format options.file found ++ s!"\n{count} warning(s) found.\n" }

/-- The reply with the tree of a program. -/
def treeReply (options : Options) (source : List UInt8) : Reply :=
  match Program.parse source with
  | .ok program => { out := program.outline }
  | .error fault => .failure (options.file ++ ": " ++ fault.text ++ "\n")

/-! ## Commands -/

section Commands

variable {m : Type → Type} [Monad m] [FileStore m]

/-- Goes on with the source of the program that the options name. -/
def withSource {α : Type} (options : Options) (refuse : Reply → α)
    (next : List UInt8 → m α) : m α := do
  if options.file.isEmpty then
    return refuse (.failure "Error: no input file specified\n")
  else
    match ← FileStore.readFile options.file with
    | .ok source => next source
    | .error fault => return refuse (.failure ("Error reading file: " ++ fault.message ++ "\n"))

/-- The levels to choose from. -/
def levelSet (options : Options) : m (Except Level.LoadError (List Level)) :=
  if options.levelFolder.isEmpty then return .ok Level.builtIn
  else Level.loadAll options.levelFolder

/-- The level that the options choose, or what is wrong with the choice. -/
def chosenLevel (options : Options) : m (Except String Level) := do
  if options.levelFile.isEmpty then
    match ← levelSet options with
    | .error error => return .error error.message
    | .ok levels =>
      match Level.find? levels options.level with
      | some level => return .ok level
      | none =>
        let id := options.level
        return .error s!"no level with id {id} (see 'mazebot levels')"
  else
    return (← Level.load options.levelFile).mapError Level.LoadError.message

/-- Goes on with a session of the program at the level that the options choose. -/
def withSession (options : Options) (next : Session → m Start) : m Start :=
  withSource options .finished fun source => do
    match ← chosenLevel options with
    | .error message => return .finished (.failure ("Error: " ++ message ++ "\n"))
    | .ok level =>
      match Session.start source (some level) {} options.trace with
      | .ok session => next session
      | .error .noLevel =>
        return .finished (.failure
          ("Error: " ++ options.file ++ ": " ++ Session.noLevelMessage ++ "\n"))
      | .error (.program fault) =>
        return .finished (.failure ("Error: " ++ options.file ++ ": " ++ fault.text ++ "\n"))

/-- A stepper with the history of earlier commands. -/
def openStepper (home : String) (session : Session) : m Stepper := do
  match ← FileStore.readFile (historyPath home) with
  | .ok bytes => return ⟨session, .ofBytes bytes⟩
  | .error _ => return ⟨session, .empty⟩

/-- Keeps the history of commands for the next time, where that can be done. -/
def closeStepper (home : String) (stepper : Stepper) : m Unit := do
  let _ ← FileStore.writeFile (historyPath home) (Text.utf8 stepper.history.text)

/-- The reply with a program in its usual layout, or after writing it back. -/
def layoutReply (options : Options) (source : List UInt8) : m Reply := do
  match Program.check source with
  | (none, found) => return .failure (Diagnostics.format options.file found ++ "\n")
  | (some program, _) =>
    let text := program.layout
    let bytes := Text.utf8 text
    if !options.write then return { out := text }
    else if bytes = source then return {}
    else
      match ← FileStore.writeFile options.file bytes with
      | .ok () => return { out := "Formatted " ++ options.file ++ "\n" }
      | .error fault => return .failure ("Error writing file: " ++ fault.message ++ "\n")

/-- The reply with the list of levels. -/
def levelsReply (options : Options) : m Reply := do
  match ← levelSet options with
  | .ok levels => return { out := String.join (levels.map levelLine) }
  | .error error => return .failure ("Error: " ++ error.message ++ "\n")

/-- A command with its options. -/
def startCommand (home command : String) (options : Options) : m Start :=
  match command with
  | "run" => withSession options fun session => return .finished (runReply options session)
  | "step" => withSession options fun session => return .stepping (← openStepper home session)
  | "check" =>
    withSource options .finished fun source => return .finished (checkReply options source)
  | "lint" =>
    withSource options .finished fun source => return .finished (lintReply options source)
  | "fmt" =>
    withSource options .finished fun source => return .finished (← layoutReply options source)
  | "ast" =>
    withSource options .finished fun source => return .finished (treeReply options source)
  | _ => return .finished (← levelsReply options)

/-- The commands that take options. -/
def commandNames : List String := ["run", "step", "check", "lint", "fmt", "ast", "levels"]

/-- A command up to its reply, or up to the point where it reads input. The folder of the user is
the working folder where it is not given. -/
def start (home : String) (arguments : List String) : m Start :=
  match arguments with
  | [] => return .finished (.failure usage)
  | command :: rest =>
    if commandNames.contains command then
      match Options.parse rest with
      | .ok options => startCommand home command options
      | .error error => return .finished (.failure error.message)
    else if ["help", "--help", "-h"].contains command then return .finished { out := usage }
    else return .finished (.failure ("Unknown command: " ++ command ++ "\n\n" ++ usage))

/-- A command with all of its input. -/
def run (home : String) (arguments : List String) (input : List UInt8) : m Reply := do
  match ← start home arguments with
  | .finished reply => return reply
  | .stepping stepper =>
    let (last, out, err) := stepper.answerAll (lines input)
    closeStepper home last
    return { out := stepper.greeting ++ out, err }

end Commands

end MazeRobot.Console
