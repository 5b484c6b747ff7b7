import MazeRobot.Level.Basic
import MazeRobot.Machine.Basic
import MazeRobot.Program.Parse

/-! # Sessions

One program at one level, which is stepped one robot command at a time or started over.

* `Session.start`: a session for a source and a level.
* `Session.step`: one step, with a report on it.
* `Session.steps_step`, `Session.steps_step_le`: how steps count commands.
* `Session.reset`: a fresh attempt.
* `Session.summary`: where it stands. -/

namespace MazeRobot

/-- One program at one level. -/
structure Session where
  /-- The program. -/
  program : Program
  /-- The level. -/
  level : Level
  /-- The current attempt. -/
  machine : Machine
  /-- Where the attempt stood after the last step. -/
  outcome : Outcome
  deriving Repr

namespace Session

/-- Why a session cannot be started. -/
inductive StartError where
  /-- There is no level to play. -/
  | noLevel
  /-- The source is no program. -/
  | program (fault : Fault)
  deriving DecidableEq, Repr

/-- What is said when a session has no level. -/
def noLevelMessage : String := "runner: no level"

/-- A fresh attempt at a level. -/
def ofProgram (program : Program) (level : Level) (limits : Limits) (tracing : Bool) : Session :=
  { program, level, machine := .load level.robot limits tracing program, outcome := .running }

/-- A session for a source and a level. A missing level is noticed before a faulty source. -/
def start (source : List UInt8) (level : Option Level) (limits : Limits) (tracing : Bool) :
    Except StartError Session :=
  match level with
  | none => .error .noLevel
  | some level =>
    match Program.parse source with
    | .ok program => .ok (ofProgram program level limits tracing)
    | .error fault => .error (.program fault)

/-- A session that `start` gives is `ofProgram` of what `Program.parse` reads from the source. -/
theorem exists_program_of_start {source : List UInt8} {level : Level} {limits : Limits}
    {tracing : Bool} {session : Session}
    (started : start source (some level) limits tracing = .ok session) :
    ∃ program, Program.parse source = .ok program ∧
      session = ofProgram program level limits tracing := by
  rw [start] at started
  cases parsed : Program.parse source with
  | error fault =>
    rw [parsed] at started
    cases started
  | ok program =>
    rw [parsed] at started
    cases started
    exact ⟨program, rfl, rfl⟩

/-- The robot of the current attempt. -/
def robot (session : Session) : Robot := session.machine.robot

/-- The number of commands in the current attempt. -/
def steps (session : Session) : Nat := session.machine.steps

/-! ## Steps -/

/-- What is reported after a step. -/
structure StepReport where
  /-- What the step did. -/
  result : Machine.StepResult
  /-- Where the attempt stands. -/
  outcome : Outcome
  /-- What went wrong, if something did. -/
  failure? : Option String
  /-- Where the robot stands. -/
  position : Position
  /-- Where the robot looks. -/
  heading : Heading
  deriving DecidableEq, Repr

/-- Where an attempt stands after a step. -/
def classify (robot : Robot) (result : Machine.StepResult) : Outcome :=
  if robot.completed then .completed
  else if robot.failure?.isSome then .failed
  else if result.hasMore then .running
  else .outOfProgram

/-- The report on a step. -/
def report (session : Session) (result : Machine.StepResult) : StepReport :=
  { result, outcome := session.outcome, failure? := session.robot.failure?,
    position := session.robot.position, heading := session.robot.heading }

/-- One step. An attempt that has ended stays as it is. -/
def step (session : Session) : Session × StepReport :=
  if session.outcome.terminal then (session, session.report .nothing)
  else
    let (machine, result) := session.machine.step
    let session := { session with machine, outcome := classify machine.robot result }
    (session, session.report result)

/-- `step` leaves an attempt whose outcome is `terminal` as it is. -/
theorem step_of_terminal {session : Session} (ended : session.outcome.terminal = true) :
    session.step = (session, session.report .nothing) := by
  rw [step, if_pos ended]

/-- What `step` makes of an attempt that goes on: the machine makes a step, and `classify` says how
the attempt stands. -/
theorem step_of_going {session : Session} (going : session.outcome.terminal = false) :
    session.step.1 = { session with
      machine := session.machine.step.1
      outcome := classify session.machine.step.1.robot session.machine.step.2 } := by
  rw [step, going, if_neg Bool.false_ne_true]

/-- The report of a `step` of an attempt that goes on. -/
theorem report_of_going {session : Session} (going : session.outcome.terminal = false) :
    session.step.2 = session.step.1.report session.machine.step.2 := by
  rw [step, going, if_neg Bool.false_ne_true]

/-- `classify` says that an attempt has ended where its machine may not go on. -/
theorem terminal_classify {robot : Robot} {result : Machine.StepResult}
    (no : result.hasMore = false) : (classify robot result).terminal = true := by
  unfold classify
  split
  · rfl
  · split
    · rfl
    · rw [no]
      rfl

/-- A `step` after which the attempt goes on has counted one command. -/
theorem steps_step {session : Session} (going : session.outcome.terminal = false)
    (on : session.step.1.outcome.terminal = false) : session.step.1.steps = session.steps + 1 := by
  rw [step_of_going going] at on ⊢
  cases more : session.machine.step.2.hasMore with
  | true => exact Machine.steps_step more
  | false =>
    rw [terminal_classify more] at on
    cases on

/-- No `step` counts more than one command. -/
theorem steps_step_le (session : Session) : session.step.1.steps ≤ session.steps + 1 := by
  cases going : session.outcome.terminal with
  | true =>
    rw [step_of_terminal going]
    exact Nat.le_succ _
  | false =>
    rw [step_of_going going]
    rcases session.machine.steps_step_cases with ⟨-, same⟩ | counted
    · exact Nat.le_succ_of_le (Nat.le_of_eq same)
    · exact Nat.le_of_eq counted

/-- A fresh attempt with the same program and level; the journal goes on. -/
def reset (session : Session) : Session :=
  let event := Event.reset session.level.name.shown session.steps session.outcome
  let machine := session.machine.note event
  let fresh := ofProgram session.program session.level machine.limits machine.tracing
  { fresh with machine := { fresh.machine with journal := machine.journal } }

/-! ## Summaries -/

/-- Where a session stands. -/
structure Summary where
  /-- The name of the level. -/
  level : String
  /-- Where the attempt stands. -/
  outcome : Outcome
  /-- The number of commands. -/
  steps : Nat
  /-- What went wrong, if something did. -/
  failure? : Option String
  /-- The positions of the robot, oldest first. -/
  path : List Position
  deriving DecidableEq, Repr

/-- Where the session stands. -/
def summary (session : Session) : Summary :=
  { level := session.level.name.shown, outcome := session.outcome, steps := session.steps,
    failure? := session.robot.failure?, path := session.robot.path }

end Session

end MazeRobot
