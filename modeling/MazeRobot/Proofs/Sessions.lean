import MazeRobot.Proofs.Horizon
import MazeRobot.Session.Play

/-! # The steps of a session

A session steps its machine and says after each step where the attempt stands. It says so truly: an
attempt is completed or failed where the robot is, and out of program where no frame is left. After
a command there is always a frame left, if only the empty rest of the program, so an attempt goes on
until a step finds nothing to do. Every attempt ends, after no more steps than the horizon and one.

* `Machine.Rooted`: stacks whose outermost frame is the rest of the program.
* `Machine.Reaches.step_cases`: what a step of a machine comes to.
* `Session.stepped`, `Session.reports`: the session after some steps, and the reports on them.
* `Session.Faithful`, `Session.Faithful.step`: sessions whose outcome tells how the machine stands.
* `Session.exists_terminal`, `Session.exists_terminal_ofProgram`: every attempt ends. -/

namespace MazeRobot

/-- An outcome is not `terminal` exactly while it is `running`. -/
theorem Outcome.terminal_eq_false_iff {outcome : Outcome} :
    outcome.terminal = false ↔ outcome = .running := by
  simp [terminal]

/-! ## The outermost frame -/

namespace Machine

/-- Whether the outermost frame is a block, as it is where the whole program stands on the stack. -/
def Rooted (frames : List Frame) : Prop :=
  ∀ frame, frames.getLast? = some frame → ∃ rest, frame = .block rest

/-- A visit that `Moves` on puts only a block in the place of the outermost block, so the stack
stays `Rooted`. -/
theorem Rooted.moves {limits : Limits} {store store' : Store} {depth depth' : Nat} {top : Frame}
    {pushed below : List Frame} (rule : Moves limits store depth top pushed store' depth')
    (rooted : Rooted (top :: below)) : Rooted (pushed ++ below) := by
  intro frame last
  cases below with
  | nil =>
    obtain ⟨rest, rfl⟩ := rooted top rfl
    rw [List.append_nil] at last
    cases rule with
    | blockNext stmt stmts =>
      cases last
      exact ⟨stmts, rfl⟩
    | blockEnd => cases last
  | cons next below =>
    rw [List.getLast?_append_of_ne_nil _ (List.cons_ne_nil _ _)] at last
    exact rooted frame last

variable {robot : Robot} {limits : Limits} {tracing : Bool} {program : Program} {m : Machine}

/-- Every machine that a run `Reaches` is `Rooted`: its outermost frame is a block. -/
theorem Reaches.rooted (reached : (load robot limits tracing program).Reaches m) :
    Rooted m.frames := by
  refine reached.preserves (P := fun frames _ _ => Rooted frames) ?_ Rooted.moves ?_
  · intro frame last
    cases last
    exact ⟨program.body, rfl⟩
  · intro kind line below store depth rooted frame last
    cases below with
    | nil => cases last
    | cons next below => exact rooted frame last

/-- A visit that brings up a `command` leaves a frame. -/
theorem Reaches.frames_ne_nil_of_command {m' : Machine} {kind : Command} {line : Int}
    (reached : (load robot limits tracing program).Reaches m)
    (visit : m.visit? = some (.command kind line m')) : m'.frames ≠ [] := by
  obtain ⟨top, below, frames, rfl, rfl⟩ := visit?_cases visit
  rintro rfl
  have rooted := reached.rooted
  rw [frames] at rooted
  obtain ⟨rest, command⟩ := rooted _ rfl
  cases command

/-- What a `step` comes to in a run: the end of the program, with the robot still running; a fault,
with the robot failed; or a command, with the run of the robot over or a frame left to go on
with. -/
theorem Reaches.step_cases (reached : (load robot limits tracing program).Reaches m)
    (running : m.robot.done = false) :
    (m.step.2.hasMore = false ∧ m.step.1.frames = [] ∧ m.step.1.robot.done = false) ∨
    (m.step.2.hasMore = false ∧ m.step.1.robot.completed = false ∧
      m.step.1.robot.failure?.isSome = true) ∨
    (m.step.2.hasMore = !m.step.1.robot.done ∧ m.step.1.frames ≠ [] ∧
      (load robot limits tracing program).Reaches m.step.1 ∧
      (m.step.1.robot.completed = true → m.step.1.robot.failure? = none)) := by
  have continues := reached.continues_advance running m.limits.stepBudget
  rw [step_eq_conclude running]
  cases advanced : m.advance m.limits.stepBudget with
  | ended m' =>
    rw [advanced] at continues
    obtain ⟨-, on, none⟩ := continues
    exact .inl ⟨rfl, none, on⟩
  | failed fault m' =>
    rw [advanced] at continues
    have same : m'.robot.done = false := by
      obtain ⟨last, -, on, ⟨-, rfl⟩ | visit⟩ := continues
      · exact on
      · exact (visit?_keeps visit).2.trans on
    have told : m'.robot.fail fault.detail = { m'.robot with failure? := some fault.detail } := by
      simp [Robot.fail, same, fault.isEmpty_detail]
    have going : m'.robot.completed = false := by simp_all [Robot.done]
    refine .inr (.inl ⟨rfl, ?_, ?_⟩)
    · simp [conclude, fail, told, going]
    · simp [conclude, fail, told]
  | command kind line m' =>
    rw [advanced] at continues
    obtain ⟨last, there, on, visit⟩ := continues
    have same : m'.robot.done = false := (visit?_keeps visit).2.trans on
    have some := there.frames_ne_nil_of_command visit
    exact .inr (.inr ⟨rfl, some, .command there on visit, Robot.failure?_perform same kind⟩)

end Machine

/-! ## Sessions -/

namespace Session

/-- The session after some steps. -/
def stepped (session : Session) : Nat → Session
  | 0 => session
  | n + 1 => session.step.1.stepped n

/-- The reports on some steps. -/
def reports (session : Session) : Nat → List StepReport
  | 0 => []
  | n + 1 => session.step.2 :: session.step.1.reports n

variable {session : Session}

/-- `stepped` by a sum takes its steps in two goes. -/
theorem stepped_add (session : Session) (m n : Nat) :
    session.stepped (m + n) = (session.stepped m).stepped n := by
  induction m generalizing session with
  | zero => rw [Nat.zero_add, stepped]
  | succ m ih => rw [Nat.succ_add, stepped, stepped, ih]

/-- `reports` on steps that are taken in two goes. -/
theorem reports_add (session : Session) (m n : Nat) :
    session.reports (m + n) = session.reports m ++ (session.stepped m).reports n := by
  induction m generalizing session with
  | zero => rw [Nat.zero_add, reports, stepped, List.nil_append]
  | succ m ih => rw [Nat.succ_add, reports, reports, stepped, ih, List.cons_append]

/-- `reports` has one report for each step. -/
@[simp] theorem length_reports (session : Session) (n : Nat) : (session.reports n).length = n := by
  induction n generalizing session with
  | zero => rfl
  | succ n ih => rw [reports, List.length_cons, ih]

/-- The report of a `step` tells where the attempt stands after it. -/
theorem outcome_report (session : Session) : session.step.2.outcome = session.step.1.outcome := by
  unfold step
  split <;> rfl

/-- `stepped` leaves an attempt that has ended as it is. -/
theorem stepped_of_terminal (ended : session.outcome.terminal = true) (n : Nat) :
    session.stepped n = session := by
  induction n with
  | zero => rfl
  | succ n ih => rw [stepped, step_of_terminal ended, ih]

/-- An attempt that has ended when `stepped` has ended in the same way after more steps. -/
theorem stepped_eq_of_terminal {m n : Nat} (ended : (session.stepped m).outcome.terminal = true)
    (le : m ≤ n) : session.stepped n = session.stepped m := by
  obtain ⟨more, rfl⟩ := Nat.exists_eq_add_of_le le
  rw [stepped_add, stepped_of_terminal ended]

/-- An attempt that goes on when `stepped` has gone on before. -/
theorem going_of_le {m n : Nat} (going : (session.stepped n).outcome.terminal = false) (le : m ≤ n) :
    (session.stepped m).outcome.terminal = false := by
  cases ended : (session.stepped m).outcome.terminal with
  | false => rfl
  | true =>
    rw [stepped_eq_of_terminal ended le, ended] at going
    cases going

/-- While an attempt goes on its commands count the steps of `stepped`. -/
theorem steps_stepped {n : Nat} (going : (session.stepped n).outcome.terminal = false) :
    (session.stepped n).steps = session.steps + n := by
  induction n generalizing session with
  | zero => rfl
  | succ n ih =>
    have start : session.outcome.terminal = false := going_of_le going (Nat.zero_le _)
    have first : session.step.1.outcome.terminal = false :=
      going_of_le (m := 1) going (Nat.le_add_left 1 n)
    rw [stepped, ih going, steps_step start first]
    omega

/-- An attempt that is `stepped` has no more commands than steps. -/
theorem steps_stepped_le (session : Session) (n : Nat) :
    (session.stepped n).steps ≤ session.steps + n := by
  induction n generalizing session with
  | zero => exact Nat.le_refl _
  | succ n ih =>
    have one := session.steps_step_le
    have rest := ih session.step.1
    rw [stepped]
    omega

/-! ## What outcomes tell -/

/-- A session whose outcome tells how its machine stands, and whose machine is one of a run as long
as the attempt goes on. -/
structure Faithful (start : Machine) (session : Session) : Prop where
  /-- An attempt is completed exactly if the robot has reached a goal. -/
  completed : session.outcome = .completed ↔ session.robot.completed = true
  /-- An attempt has failed exactly if something went wrong for the robot. -/
  failed : session.outcome = .failed ↔ session.robot.failure?.isSome = true
  /-- An attempt is out of program exactly if no frame is left and the robot still runs. -/
  outOfProgram : session.outcome = .outOfProgram ↔
    session.machine.frames = [] ∧ session.robot.done = false
  /-- An attempt that goes on is in the run. -/
  going : session.outcome = .running → start.Reaches session.machine

namespace Faithful

variable {program : Program} {level : Level} {limits : Limits} {tracing : Bool}

/-- A fresh attempt is `Faithful`: it goes on. -/
theorem ofProgram (program : Program) (level : Level) (limits : Limits) (tracing : Bool) :
    (ofProgram program level limits tracing).Faithful
      (.load level.robot limits tracing program) where
  completed := by simp [Session.ofProgram, Session.robot, Machine.load, Machine.idle, Level.robot,
    Robot.start]
  failed := by simp [Session.ofProgram, Session.robot, Machine.load, Machine.idle, Level.robot,
    Robot.start]
  outOfProgram := by simp [Session.ofProgram, Machine.load]
  going := fun _ => .start

/-- The robot of a `Faithful` attempt that goes on still runs. -/
theorem running {start : Machine} (faithful : session.Faithful start)
    (going : session.outcome = .running) : session.robot.done = false := by
  have incomplete := faithful.completed
  have fine := faithful.failed
  rw [going] at incomplete fine
  simp_all [Robot.done]

/-- **A `step` keeps outcomes `Faithful`.** -/
theorem step (faithful : session.Faithful (.load level.robot limits tracing program)) :
    session.step.1.Faithful (.load level.robot limits tracing program) := by
  cases ended : session.outcome.terminal with
  | true =>
    rw [step_of_terminal ended]
    exact faithful
  | false =>
    have going := Outcome.terminal_eq_false_iff.mp ended
    rw [step_of_going ended]
    -- Of the three ways in which a step can end, each gives other outcomes.
    rcases (faithful.going going).step_cases (faithful.running going) with
      ⟨no, none, on⟩ | ⟨no, incomplete, failed⟩ | ⟨more, some, reached, fine⟩
    · have incomplete : session.machine.step.1.robot.completed = false := by simp_all [Robot.done]
      have fine : session.machine.step.1.robot.failure? = Option.none := by simp_all [Robot.done]
      constructor <;> simp [classify, robot, incomplete, fine, no, none, on]
    · obtain ⟨message, failure⟩ := Option.isSome_iff_exists.mp failed
      constructor <;> simp [classify, robot, incomplete, failure, Robot.done]
    · cases complete : session.machine.step.1.robot.completed with
      | true =>
        have none := fine complete
        constructor <;> simp [classify, robot, complete, none, Robot.done]
      | false =>
        cases failure : session.machine.step.1.robot.failure? with
        | some message => constructor <;> simp [classify, robot, complete, failure, Robot.done]
        | none =>
          rw [Robot.done, complete, failure] at more
          constructor <;> simp [classify, robot, complete, failure, more, some, reached]

/-- Outcomes stay `Faithful` when `stepped`, however often. -/
theorem stepped (faithful : session.Faithful (.load level.robot limits tracing program)) (n : Nat) :
    (session.stepped n).Faithful (.load level.robot limits tracing program) := by
  induction n generalizing session with
  | zero => exact faithful
  | succ n ih => exact ih faithful.step

end Faithful

/-! ## Every attempt ends -/

/-- An attempt whose machine `Halts` ends after no more steps than there are commands left and one
more. -/
theorem exists_terminal {trace : Trace} {last : Machine}
    (halts : Machine.Halts session.machine trace last) :
    ∃ n ≤ trace.reduceOption.length + 1, (session.stepped n).outcome.terminal = true := by
  -- Each step that does not end the attempt leaves one command fewer.
  induction count : trace.reduceOption.length using Nat.strongRecOn
    generalizing session trace with
  | _ commands ih =>
    by_cases ended : session.outcome.terminal = true
    · exact ⟨0, Nat.zero_le _, ended⟩
    · have next := step_of_going (Bool.eq_false_iff.mpr ended)
      cases more : session.machine.step.2.hasMore with
      | false =>
        refine ⟨1, Nat.le_add_left 1 commands, ?_⟩
        rw [stepped, stepped, next]
        exact terminal_classify more
      | true =>
        obtain ⟨rest, on, fewer⟩ := halts.step more
        have there : Machine.Halts session.step.1.machine rest last := by
          rw [next]
          exact on
        obtain ⟨n, few, final⟩ := ih rest.reduceOption.length (by omega) there rfl
        exact ⟨n + 1, by omega, final⟩

/-- **Every attempt ends**, after no more steps than the `horizon` and one more. -/
theorem exists_terminal_ofProgram (program : Program) (level : Level) (limits : Limits)
    (tracing : Bool) :
    ∃ n ≤ (ofProgram program level limits tracing).horizon + 1,
      ((ofProgram program level limits tracing).stepped n).outcome.terminal = true := by
  obtain ⟨trace, last, halts, issued, -⟩ :=
    Machine.load_halts program level.robot limits tracing rfl
  have fresh : Machine.Halts (ofProgram program level limits tracing).machine trace last := halts
  obtain ⟨n, few, ended⟩ := exists_terminal fresh
  have bound := program.interpret_le_horizon level.robot limits
  rw [← issued] at bound
  exact ⟨n, Nat.le_trans few (Nat.succ_le_succ bound), ended⟩

/-- A level with the goal two steps ahead. -/
def corridor : Level := ⟨1, {}, {}, ⟨[[.start, .empty, .goal]]⟩, ⟨0, 0⟩, .east, false⟩

end Session

end MazeRobot
