import MazeRobot.Machine.Event
import MazeRobot.Machine.Scope
import MazeRobot.Maze.Robot

/-! # Machines

A program on its way through a maze. What is left of the program stands on a stack of frames, so
that the machine can stop after every robot command and go on later. One visit takes the innermost
frame one node further; a step visits until a command comes up and gives it to the robot.

* `Frame`: a piece of the program that is being run.
* `Machine`: the frames, the scopes, the known functions and the robot.
* `Machine.visitFrame`, `Machine.visit?`: one node.
* `Machine.advance`: as many nodes as it takes to reach a command, within a budget.
* `Machine.step`: one robot command.
* `Machine.advance_induction`: what holds along `Machine.advance`, visit by visit.
* `Machine.steps_step_cases`, `Machine.steps_step`: how steps count commands. -/

namespace MazeRobot

/-- The limits that a machine keeps. -/
structure Limits where
  /-- The greatest number of calls that may be active at once. -/
  maxCallDepth : Nat := 256
  /-- The greatest number of visits from one robot command to the next. -/
  stepBudget : Nat := 1048576
  deriving DecidableEq, Repr

namespace Limits

/-- The limits with another call depth, unless it is not positive. -/
def withCallDepth (limits : Limits) (n : Int) : Limits :=
  if 0 < n then { limits with maxCallDepth := n.toNat } else limits

/-- The limits with another budget, unless it is not positive. -/
def withBudget (limits : Limits) (n : Int) : Limits :=
  if 0 < n then { limits with stepBudget := n.toNat } else limits

end Limits

/-- A piece of the program that is being run. -/
inductive Frame where
  /-- The rest of a sequence of statements. -/
  | block (rest : List Stmt)
  /-- The rest of a function's body, with the number of scopes to go back to. -/
  | body (rest : List Stmt) (function : String) (depth : Nat)
  /-- A statement that is up next. -/
  | stmt (stmt : Stmt)
  /-- A loop with the number of rounds still to go. -/
  | loop (remaining : Nat) (body : List Stmt) (line : Int)
  deriving Repr

namespace Frame

/-- The frame that runs a statement. A missing one is run like an empty sequence. -/
def ofStmt : Stmt → Frame
  | .missing => block []
  | s => stmt s

/-- The line of the node that a frame runs, if it runs one. -/
def line? : Frame → Option Int
  | stmt s => some s.line
  | loop _ _ line => some line
  | block _ => none
  | body _ _ _ => none

end Frame

/-- A program on its way through a maze. -/
structure Machine where
  /-- The robot. -/
  robot : Robot
  /-- What is left of the program, innermost frame first. -/
  frames : List Frame
  /-- The functions known so far, the latest definition of each name. -/
  functions : List FunctionDef
  /-- The values of the variables. -/
  scopes : Scopes
  /-- The number of active calls. -/
  callDepth : Nat
  /-- The number of robot commands so far. -/
  steps : Nat
  /-- The limits that the machine keeps. -/
  limits : Limits
  /-- Whether events are recorded. -/
  tracing : Bool
  /-- The recorded events, newest first. -/
  journal : List Event
  deriving Repr

/-- The functions with one more definition, which takes the place of any other of that name. -/
def FunctionDef.insert (f : FunctionDef) (functions : List FunctionDef) : List FunctionDef :=
  f :: functions.filter (·.name ≠ f.name)

namespace Machine

/-- A machine without a program. -/
def idle (robot : Robot) (limits : Limits) (tracing : Bool) : Machine :=
  { robot, frames := [], functions := [], scopes := .initial, callDepth := 0, steps := 0, limits,
    tracing, journal := [] }

/-- A machine at the start of a program. The functions defined at the top level are known from the
start, so calls may stand before definitions. -/
def load (robot : Robot) (limits : Limits) (tracing : Bool) (program : Program) : Machine :=
  { idle robot limits tracing with
    frames := [.block program.body]
    functions := (program.body.filterMap Stmt.definition?).foldl (fun fs f => f.insert fs) [] }

/-- The machine with an event recorded, if it traces. -/
def note (m : Machine) (event : Event) : Machine :=
  if m.tracing then { m with journal := event :: m.journal } else m

/-- The definition of a function. -/
def function? (m : Machine) (name : String) : Option FunctionDef :=
  m.functions.find? (·.name = name)

/-- Whether the machine may go on. -/
def hasMore (m : Machine) : Bool := !m.frames.isEmpty && !m.robot.done

/-- The line of the innermost node that is being run, zero where there is none. -/
def currentLine (m : Machine) : Int := (m.frames.findSome? Frame.line?).getD 0

/-! ## Values and conditions -/

/-- The value of an expression. -/
def evaluate (m : Machine) : Expr → Except Fault Int
  | .number value _ => .ok value
  | .var name line =>
    match m.scopes.get? name with
    | some value => .ok value
    | none => .error ⟨.undefinedVariable name m.scopes.visible, line, 0⟩
  | .distance _ => .ok m.robot.distanceToGoal
  | .missing => .error ⟨.missingExpression, 0, 0⟩

/-- The values of expressions; the first fault wins. -/
def evaluateAll (m : Machine) : List Expr → Except Fault (List Int)
  | [] => .ok []
  | e :: es => do
    let value ← m.evaluate e
    let values ← m.evaluateAll es
    return value :: values

/-- The answer to a condition as the robot stands, and the robot after the question. -/
def ask (robot : Robot) (condition : Condition) : Robot × Bool :=
  let turns := condition.direction.quarterTurns
  match condition.query with
  | .sensor =>
    let (robot, blocked) := robot.sense turns
    (robot, blocked != condition.negated)
  | .closer => (robot, robot.isCloser turns != condition.negated)

/-! ## Visits -/

/-- What a visit leads to. -/
inductive Visit where
  /-- The machine goes on. -/
  | moved (m : Machine)
  /-- A robot command is up. -/
  | command (kind : Command) (line : Int) (m : Machine)
  /-- The program fails. -/
  | failed (fault : Fault) (m : Machine)
  deriving Repr

/-- The machine that a visit leaves. -/
def Visit.machine : Visit → Machine
  | .moved m => m
  | .command _ _ m => m
  | .failed _ m => m

/-- Enters a function. The arguments are evaluated in the scope of the call; then their number is
checked, then the depth. -/
def enter (m : Machine) (name : String) (arguments : List Expr) (line : Int) : Visit :=
  match m.function? name with
  | none => .failed ⟨.unknownFunction name (m.functions.map (·.name)), line, 0⟩ m
  | some f =>
    match m.evaluateAll arguments with
    | .error fault => .failed fault m
    | .ok values =>
      if values.length ≠ f.parameters.length then
        .failed ⟨.arityMismatch f.name f.parameters.length values.length, line, 0⟩ m
      else if m.limits.maxCallDepth ≤ m.callDepth then
        .failed ⟨.callTooDeep m.limits.maxCallDepth f.name, line, 0⟩ m
      else
        let depth := m.callDepth + 1
        .moved ({ m with
          frames := .body f.body f.name m.scopes.depth :: m.frames
          scopes := m.scopes.push (.ofArguments f.parameters values)
          callDepth := depth }.note (.called f.name values.length depth))

/-- Runs a statement whose frame has been taken off the stack. A conditional without a condition,
which no source gives, is passed over, and so is a missing statement. -/
def run (m : Machine) : Stmt → Visit
  | .command kind line => .command kind line m
  | .loop count body line =>
    match m.evaluate count with
    | .error fault => .failed fault m
    | .ok value =>
      if value < 0 then .failed ⟨.negativeCount value, line, 0⟩ m
      else
        let m := m.note (.enteredLoop value line)
        match value.toNat with
        | 0 => .moved m
        | n + 1 => .moved { m with frames := .block body :: .loop n body line :: m.frames }
  | .branch condition body _ =>
    match condition with
    | none => .moved m
    | some condition =>
      let (robot, holds) := ask m.robot condition
      .moved { m with robot, frames := if holds then .block body :: m.frames else m.frames }
  | .assign name value _ =>
    match m.evaluate value with
    | .error fault => .failed fault m
    | .ok value => .moved { m with scopes := m.scopes.assign name value }
  | .define name parameters body line =>
    .moved { m with functions := FunctionDef.insert ⟨name, parameters, body, line⟩ m.functions }
  | .call name arguments _ line => m.enter name arguments line
  | .block body _ => .moved { m with frames := .block body :: m.frames }
  | .missing => .moved m

/-- Takes a frame, which has been taken off the stack, one node further. -/
def visitFrame (m : Machine) : Frame → Visit
  | .block [] => .moved m
  | .block (s :: rest) => .moved { m with frames := .ofStmt s :: .block rest :: m.frames }
  | .body [] function depth =>
    let calls := m.callDepth - 1
    .moved ({ m with scopes := m.scopes.popTo depth, callDepth := calls }.note
      (.returned function calls))
  | .body (s :: rest) function depth =>
    .moved { m with frames := .ofStmt s :: .body rest function depth :: m.frames }
  | .stmt s => m.run s
  | .loop 0 _ _ => .moved m
  | .loop (n + 1) body line =>
    .moved { m with frames := .block body :: .loop n body line :: m.frames }

/-- What a visit of the innermost frame leads to, where there is a frame. -/
def visit? (m : Machine) : Option Visit :=
  match m.frames with
  | [] => none
  | frame :: rest => some (visitFrame { m with frames := rest } frame)

/-! ## Steps -/

/-- What running up to the next command leads to. -/
inductive Advance where
  /-- A robot command is up. -/
  | command (kind : Command) (line : Int) (m : Machine)
  /-- The program has ended. -/
  | ended (m : Machine)
  /-- The program fails. -/
  | failed (fault : Fault) (m : Machine)
  deriving Repr

/-- The machine that running up to the next command leaves. -/
def Advance.machine : Advance → Machine
  | .command _ _ m => m
  | .ended m => m
  | .failed _ m => m

/-- Visits until a command comes up, the program ends or fails, or the budget is used up. -/
def advance (m : Machine) (budget : Nat) : Advance :=
  match m.frames with
  | [] => .ended m
  | frame :: rest =>
    match budget with
    | 0 => .failed ⟨.budgetExceeded m.limits.stepBudget, m.currentLine, 0⟩ m
    | budget + 1 =>
      match visitFrame { m with frames := rest } frame with
      | .moved m => advance m budget
      | .command kind line m => .command kind line m
      | .failed fault m => .failed fault m

/-- What one step did. -/
structure StepResult where
  /-- Whether the machine may go on. -/
  hasMore : Bool
  /-- The command given to the robot, with its line. -/
  issued : Option (Command × Int)
  deriving DecidableEq, Repr

namespace StepResult

/-- A step that did nothing. -/
def nothing : StepResult := ⟨false, none⟩

/-- The words of the command, none where there was none. -/
def instruction (result : StepResult) : String :=
  result.issued.elim "" fun (kind, _) => kind.instruction

/-- The line of the command, zero where there was none. -/
def line (result : StepResult) : Int := result.issued.elim 0 (·.2)

end StepResult

/-- The machine stopped by a fault: the robot fails and nothing is left to run. -/
def fail (m : Machine) (fault : Fault) : Machine :=
  { m with robot := m.robot.fail fault.detail, frames := [] }.note (.failed fault)

/-- Runs the program up to and including its next command. -/
def step (m : Machine) : Machine × StepResult :=
  if m.robot.done then (m, .nothing)
  else
    match m.advance m.limits.stepBudget with
    | .ended m => (m, .nothing)
    | .failed fault m => (m.fail fault, .nothing)
    | .command kind line m =>
      let robot := (m.robot.perform kind).1
      ({ m with robot, steps := m.steps + 1 }, ⟨!robot.done, some (kind, line)⟩)

/-- Steps while the machine may go on, at most the given number of times. -/
def stepTimes (m : Machine) : Nat → Machine × List StepResult
  | 0 => (m, [])
  | n + 1 =>
    if m.hasMore then
      let (m, result) := m.step
      let (m, results) := m.stepTimes n
      (m, result :: results)
    else (m, [])

/-! ## Visits ahead -/

/-- `visit?` of a machine with a frame on top. -/
theorem visit?_of_frames {m : Machine} {frame : Frame} {rest : List Frame}
    (top : m.frames = frame :: rest) :
    m.visit? = some (visitFrame { m with frames := rest } frame) := by
  rw [visit?, top]

/-- Where `visit?` is a visit there is a frame. -/
theorem frames_ne_nil_of_visit? {m : Machine} {v : Visit} (visit : m.visit? = some v) :
    m.frames ≠ [] := by
  intro none
  rw [visit?, none] at visit
  cases visit

/-- Where `visit?` is nothing there is no frame. -/
theorem frames_eq_nil_of_visit? {m : Machine} (nothing : m.visit? = none) : m.frames = [] := by
  cases frames : m.frames with
  | nil => rfl
  | cons top below =>
    rw [visit?_of_frames frames] at nothing
    cases nothing

/-- `advance` of a machine without frames has ended, whatever the budget. -/
theorem advance_of_frames_eq_nil {m : Machine} (none : m.frames = []) (left : Nat) :
    m.advance left = .ended m := by
  unfold advance
  rw [none]

/-- `advance` without budget makes no visit, but fails where one is ahead. -/
theorem advance_zero {m : Machine} {v : Visit} (visit : m.visit? = some v) :
    m.advance 0 = .failed ⟨.budgetExceeded m.limits.stepBudget, m.currentLine, 0⟩ m := by
  unfold advance
  split
  · next none => exact absurd none (frames_ne_nil_of_visit? visit)
  · rfl

/-- What running on from a visit leads to. -/
def Visit.advance (left : Nat) : Visit → Advance
  | .moved m => m.advance left
  | .command kind line m => .command kind line m
  | .failed fault m => .failed fault m

/-- `advance` with some budget makes the visit ahead and runs on from there. -/
theorem advance_succ {m : Machine} {v : Visit} (visit : m.visit? = some v) (left : Nat) :
    m.advance (left + 1) = v.advance left := by
  unfold visit? at visit
  split at visit
  · cases visit
  · next frame rest top =>
    cases visit
    rw [Machine.advance, top]
    rfl

/-- **Induction along `advance`.** A run up to the next command ends at once where no frame is left,
and fails at once where a visit is ahead and no budget is left. Otherwise it is decided by its first
visit: a command or a fault ends it, and a machine that has moved runs on with one visit less. Each
case comes with the value of `advance`. -/
theorem advance_induction {motive : Machine → Nat → Prop}
    (ended : ∀ (m : Machine) (left : Nat), m.frames = [] → m.advance left = .ended m →
      motive m left)
    (spent : ∀ (m : Machine) (v : Visit), m.visit? = some v →
      m.advance 0 = .failed ⟨.budgetExceeded m.limits.stepBudget, m.currentLine, 0⟩ m → motive m 0)
    (moved : ∀ (m : Machine) (left : Nat) (next : Machine), m.visit? = some (.moved next) →
      m.advance (left + 1) = next.advance left → motive next left → motive m (left + 1))
    (command : ∀ (m : Machine) (left : Nat) (kind : Command) (line : Int) (next : Machine),
      m.visit? = some (.command kind line next) →
        m.advance (left + 1) = .command kind line next → motive m (left + 1))
    (failed : ∀ (m : Machine) (left : Nat) (fault : Fault) (next : Machine),
      m.visit? = some (.failed fault next) → m.advance (left + 1) = .failed fault next →
        motive m (left + 1))
    (m : Machine) (left : Nat) : motive m left := by
  induction left generalizing m with
  | zero =>
    cases visit : m.visit? with
    | none =>
      have none := frames_eq_nil_of_visit? visit
      exact ended m 0 none (advance_of_frames_eq_nil none 0)
    | some v => exact spent m v visit (advance_zero visit)
  | succ left ih =>
    cases visit : m.visit? with
    | none =>
      have none := frames_eq_nil_of_visit? visit
      exact ended m (left + 1) none (advance_of_frames_eq_nil none (left + 1))
    | some v =>
      have advanced := advance_succ visit left
      cases v with
      | moved next => exact moved m left next visit advanced (ih next)
      | command kind line next => exact command m left kind line next visit advanced
      | failed fault next => exact failed m left fault next visit advanced

/-- What every visit keeps is kept by `advance`. -/
theorem advance_keeps {α : Type} (view : Machine → α)
    (kept : ∀ {m : Machine} {v : Visit}, m.visit? = some v → view v.machine = view m) (m : Machine)
    (left : Nat) : view (m.advance left).machine = view m := by
  induction m, left using advance_induction with
  | ended m left none advanced => rw [advanced, Advance.machine]
  | spent m v visit advanced => rw [advanced, Advance.machine]
  | moved m left next visit advanced ih =>
    rw [advanced, ih]
    exact kept visit
  | command m left kind line next visit advanced =>
    rw [advanced]
    exact kept visit
  | failed m left fault next visit advanced =>
    rw [advanced]
    exact kept visit

/-! ## The count of commands -/

/-- `note` records an event and counts no command. -/
@[simp] theorem steps_note (m : Machine) (event : Event) : (m.note event).steps = m.steps := by
  unfold note
  split <;> rfl

/-- `enter` goes into a function and counts no command. -/
theorem steps_enter (m : Machine) (name : String) (arguments : List Expr) (line : Int) :
    (m.enter name arguments line).machine.steps = m.steps := by
  unfold enter
  repeat' split
  all_goals simp [Visit.machine]

/-- `run` counts no command, not even the one that it brings up. -/
theorem steps_run (m : Machine) (stmt : Stmt) : (m.run stmt).machine.steps = m.steps := by
  cases stmt with
  | call name arguments implicit line => exact m.steps_enter name arguments line
  | loop count body line =>
    simp only [run]
    repeat' split
    all_goals simp [Visit.machine]
  | branch condition body line => cases condition <;> simp [run, Visit.machine]
  | assign name value line =>
    simp only [run]
    split <;> simp [Visit.machine]
  | _ => simp [run, Visit.machine]

/-- A visit counts no command: these are counted by `step`. -/
theorem steps_visit? {m : Machine} {v : Visit} (visit : m.visit? = some v) :
    v.machine.steps = m.steps := by
  unfold visit? at visit
  split at visit
  · cases visit
  · next frame rest top =>
    cases visit
    cases frame with
    | stmt stmt => exact steps_run { m with frames := rest } stmt
    | block stmts => cases stmts <;> simp [visitFrame, Visit.machine]
    | body stmts function depth => cases stmts <;> simp [visitFrame, Visit.machine]
    | loop remaining body line => cases remaining <;> simp [visitFrame, Visit.machine]

/-- `advance` runs up to the next command and counts none. -/
theorem steps_advance (m : Machine) (budget : Nat) :
    (m.advance budget).machine.steps = m.steps :=
  advance_keeps (·.steps) steps_visit? m budget

/-- A `step` counts one command, or it counts none and its result is `nothing`. -/
theorem steps_step_cases (m : Machine) :
    m.step.2 = .nothing ∧ m.step.1.steps = m.steps ∨ m.step.1.steps = m.steps + 1 := by
  have kept := m.steps_advance m.limits.stepBudget
  unfold step
  split
  · exact .inl ⟨rfl, rfl⟩
  · cases advanced : m.advance m.limits.stepBudget with
    | ended m' =>
      rw [advanced] at kept
      exact .inl ⟨rfl, kept⟩
    | failed fault m' =>
      rw [advanced] at kept
      exact .inl ⟨rfl, (steps_note _ _).trans kept⟩
    | command kind line m' =>
      rw [advanced] at kept
      exact .inr (congrArg (· + 1) kept)

/-- A `step` after which `hasMore` is true counts one command. -/
theorem steps_step {m : Machine} (more : m.step.2.hasMore = true) :
    m.step.1.steps = m.steps + 1 := by
  rcases m.steps_step_cases with ⟨nothing, -⟩ | counted
  · rw [nothing] at more
    cases more
  · exact counted

/-- The value of a variable as the program would see it. -/
def lookup? (m : Machine) (name : String) : Option Int := m.scopes.get? name

end Machine

end MazeRobot
