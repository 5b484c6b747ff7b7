import MazeRobot.Proofs.Reachable

/-! # Robots that a program cannot tell apart

A machine knows its robot only by what the robot does and answers: whether its run is over, what it
senses, whether a step leads nearer to a goal, and how far the goal is. Two robots that answer
alike, and still do after each command, each failure and each question, keep two machines with the
same program in lockstep.

* `Robot.AnswerAlike`: a relation between robots that answer alike and stay related.
* `Machine.Matches`: machines that differ in their robots only, which are related.
* `Machine.Matches.exists_visit`, `Machine.Matches.step`: one visit and one step keep it.
* `Machine.Matches.stepped`, `Machine.Matches.reaches`: so do any number of them. -/

namespace MazeRobot

/-- A relation between robots that answer alike, whatever they are asked, and that stay related
whatever happens to both. -/
structure Robot.AnswerAlike (related : Robot → Robot → Prop) : Prop where
  /-- Both runs are over, or neither is. -/
  done : ∀ {robot robot'}, related robot robot' → robot'.done = robot.done
  /-- A command keeps them related. -/
  perform : ∀ {robot robot'}, related robot robot' → ∀ kind,
    related (robot.perform kind).1 (robot'.perform kind).1
  /-- A failure from outside keeps them related. -/
  fail : ∀ {robot robot'}, related robot robot' → ∀ message,
    related (robot.fail message) (robot'.fail message)
  /-- They sense the same, which keeps them related. -/
  sense : ∀ {robot robot'}, related robot robot' → ∀ direction : Direction,
    related (robot.sense direction.quarterTurns).1 (robot'.sense direction.quarterTurns).1 ∧
      (robot'.sense direction.quarterTurns).2 = (robot.sense direction.quarterTurns).2
  /-- The same directions lead nearer to a goal. -/
  isCloser : ∀ {robot robot'}, related robot robot' → ∀ direction : Direction,
    robot'.isCloser direction.quarterTurns = robot.isCloser direction.quarterTurns
  /-- The goal is equally far. -/
  distance : ∀ {robot robot'}, related robot robot' → robot'.distanceToGoal = robot.distanceToGoal

namespace Machine

/-- Machines that differ in their robots only, which are related. -/
structure Matches (related : Robot → Robot → Prop) (m m' : Machine) : Prop where
  /-- The robots are related. -/
  robots : related m.robot m'.robot
  /-- Everything else is the same. -/
  rest : m' = { m with robot := m'.robot }

/-- Visits that lead to machines in lockstep, to the same command or to the same fault. -/
inductive Visit.Matches (related : Robot → Robot → Prop) : Visit → Visit → Prop
  /-- Both machines go on. -/
  | moved {m m' : Machine} (same : m.Matches related m') :
      Visit.Matches related (.moved m) (.moved m')
  /-- The same command is up. -/
  | command {m m' : Machine} (kind : Command) (line : Int) (same : m.Matches related m') :
      Visit.Matches related (.command kind line m) (.command kind line m')
  /-- Both programs fail with the same fault. -/
  | failed {m m' : Machine} (fault : Fault) (same : m.Matches related m') :
      Visit.Matches related (.failed fault m) (.failed fault m')

/-- Runs up to the next command that lead to machines in lockstep. -/
inductive Advance.Matches (related : Robot → Robot → Prop) : Advance → Advance → Prop
  /-- The same command is up. -/
  | command {m m' : Machine} (kind : Command) (line : Int) (same : m.Matches related m') :
      Advance.Matches related (.command kind line m) (.command kind line m')
  /-- Both programs have ended. -/
  | ended {m m' : Machine} (same : m.Matches related m') :
      Advance.Matches related (.ended m) (.ended m')
  /-- Both programs fail with the same fault. -/
  | failed {m m' : Machine} (fault : Fault) (same : m.Matches related m') :
      Advance.Matches related (.failed fault m) (.failed fault m')

section Lockstep

variable {related : Robot → Robot → Prop} (alike : Robot.AnswerAlike related) {m : Machine}
  {robot' : Robot} (robots : related m.robot robot')

include alike robots

/-! ## Values, conditions and calls -/

/-- `evaluate` does not depend on the robot. -/
theorem evaluate_withRobot (expr : Expr) :
    evaluate { m with robot := robot' } expr = m.evaluate expr := by
  cases expr with
  | distance line => exact congrArg Except.ok (alike.distance robots)
  | _ => rfl

/-- `evaluateAll` does not depend on the robot. -/
theorem evaluateAll_withRobot (exprs : List Expr) :
    evaluateAll { m with robot := robot' } exprs = m.evaluateAll exprs := by
  induction exprs with
  | nil => rfl
  | cons expr exprs ih => rw [evaluateAll, evaluateAll, evaluate_withRobot alike robots, ih]

/-- `ask` has the same answer of related robots, and keeps them related. -/
theorem ask_withRobot (condition : Condition) :
    related (ask m.robot condition).1 (ask robot' condition).1 ∧
      (ask robot' condition).2 = (ask m.robot condition).2 := by
  obtain ⟨query, negated, direction, line⟩ := condition
  cases query with
  | sensor =>
    obtain ⟨sensed, reading⟩ := alike.sense robots direction
    exact ⟨sensed, congrArg (· != negated) reading⟩
  | closer => exact ⟨robots, congrArg (· != negated) (alike.isCloser robots direction)⟩

/-- `enter` leads into the same functions with related robots. -/
theorem enter_withRobot (name : String) (arguments : List Expr) (line : Int) :
    Visit.Matches related (m.enter name arguments line)
      (enter { m with robot := robot' } name arguments line) := by
  have here : m.Matches related { m with robot := robot' } := ⟨robots, rfl⟩
  have table : function? { m with robot := robot' } name = m.function? name := rfl
  rw [enter, enter, table, evaluateAll_withRobot alike robots]
  cases m.function? name with
  | none => exact .failed _ here
  | some f =>
    cases m.evaluateAll arguments with
    | error fault => exact .failed fault here
    | ok values =>
      dsimp only
      by_cases arity : values.length ≠ f.parameters.length
      · rw [if_pos arity, if_pos arity]
        exact .failed _ here
      · rw [if_neg arity, if_neg arity]
        by_cases deep : m.limits.maxCallDepth ≤ m.callDepth
        · rw [if_pos deep, if_pos deep]
          exact .failed _ here
        · rw [if_neg deep, if_neg deep, note_eq, note_eq]
          exact .moved ⟨robots, rfl⟩

/-! ## Visits -/

/-- `run` does the same with related robots. -/
theorem run_withRobot (stmt : Stmt) :
    Visit.Matches related (m.run stmt) (run { m with robot := robot' } stmt) := by
  have here : m.Matches related { m with robot := robot' } := ⟨robots, rfl⟩
  cases stmt with
  | block body line => exact .moved ⟨robots, rfl⟩
  | command kind line => exact .command kind line here
  | loop count body line =>
    rw [run, run, evaluate_withRobot alike robots]
    cases m.evaluate count with
    | error fault => exact .failed fault here
    | ok value =>
      dsimp only
      by_cases negative : value < 0
      · rw [if_pos negative, if_pos negative]
        exact .failed _ here
      · rw [if_neg negative, if_neg negative, note_eq, note_eq]
        cases value.toNat with
        | zero => exact .moved ⟨robots, rfl⟩
        | succ n => exact .moved ⟨robots, rfl⟩
  | branch condition body line =>
    cases condition with
    | none => exact .moved here
    | some condition =>
      obtain ⟨asked, answer⟩ := ask_withRobot alike robots condition
      simp only [run, answer]
      exact .moved ⟨asked, rfl⟩
  | assign name value line =>
    rw [run, run, evaluate_withRobot alike robots]
    cases m.evaluate value with
    | error fault => exact .failed fault here
    | ok value => exact .moved ⟨robots, rfl⟩
  | define name parameters body line => exact .moved ⟨robots, rfl⟩
  | call name arguments implicit line => exact enter_withRobot alike robots name arguments line
  | missing => exact .moved here

/-- `visitFrame` does the same with related robots. -/
theorem visitFrame_withRobot (frame : Frame) :
    Visit.Matches related (visitFrame m frame) (visitFrame { m with robot := robot' } frame) := by
  cases frame with
  | block stmts => cases stmts <;> exact .moved ⟨robots, rfl⟩
  | body stmts function back =>
    cases stmts with
    | nil =>
      rw [visitFrame, visitFrame, note_eq, note_eq]
      exact .moved ⟨robots, rfl⟩
    | cons stmt stmts => exact .moved ⟨robots, rfl⟩
  | stmt stmt => exact run_withRobot alike robots stmt
  | loop remaining body line => cases remaining <;> exact .moved ⟨robots, rfl⟩

end Lockstep

namespace Matches

variable {related : Robot → Robot → Prop} {m m' : Machine}

/-- Machines in lockstep, one of which `Matches` the other, have the same frames. -/
theorem frames_eq (same : m.Matches related m') : m'.frames = m.frames := by
  rw [same.rest]

/-- `hasMore` holds of both machines in lockstep, or of neither. -/
theorem hasMore_eq (alike : Robot.AnswerAlike related) (same : m.Matches related m') :
    m'.hasMore = m.hasMore := by
  rw [hasMore, hasMore, same.frames_eq, alike.done same.robots]

/-- **A visit keeps machines in lockstep**: what `visit?` gives `Matches`. -/
theorem exists_visit (alike : Robot.AnswerAlike related) (same : m.Matches related m') {v : Visit}
    (visit : m.visit? = some v) : ∃ v', m'.visit? = some v' ∧ Visit.Matches related v v' := by
  obtain ⟨robots, rest⟩ := same
  generalize m'.robot = robot' at robots rest
  subst rest
  cases frames : m.frames with
  | nil =>
    rw [visit?, frames] at visit
    cases visit
  | cons frame below =>
    rw [visit?_of_frames frames] at visit
    cases visit
    have both := visitFrame_withRobot (m := { m with frames := below }) alike robots frame
    exact ⟨_, visit?_of_frames rfl, both⟩

/-- `advance` keeps machines in lockstep. -/
theorem advance (alike : Robot.AnswerAlike related) (same : m.Matches related m') (budget : Nat) :
    Advance.Matches related (m.advance budget) (m'.advance budget) := by
  induction m, budget using advance_induction generalizing m' with
  | ended m left none advanced =>
    rw [advanced, advance_of_frames_eq_nil (same.frames_eq.trans none)]
    exact .ended same
  | spent m v visit advanced =>
    obtain ⟨v', visit', -⟩ := same.exists_visit alike visit
    have line : m'.currentLine = m.currentLine := by rw [currentLine, currentLine, same.frames_eq]
    have limits : m'.limits = m.limits := by rw [same.rest]
    rw [advanced, advance_zero visit', line, limits]
    exact .failed _ same
  | moved m left next visit advanced ih =>
    obtain ⟨v', visit', both⟩ := same.exists_visit alike visit
    rw [advanced, advance_succ visit']
    cases both with
    | moved on => exact ih on
  | command m left kind line next visit advanced =>
    obtain ⟨v', visit', both⟩ := same.exists_visit alike visit
    rw [advanced, advance_succ visit']
    cases both with
    | command kind line on => exact .command kind line on
  | failed m left fault next visit advanced =>
    obtain ⟨v', visit', both⟩ := same.exists_visit alike visit
    rw [advanced, advance_succ visit']
    cases both with
    | failed fault on => exact .failed fault on

/-- `obey` keeps machines in lockstep. -/
theorem obey (alike : Robot.AnswerAlike related) (same : m.Matches related m') (kind : Command) :
    (m.obey kind).Matches related (m'.obey kind) := by
  refine ⟨alike.perform same.robots kind, ?_⟩
  rw [same.rest]
  rfl

/-- `fail` keeps machines in lockstep. -/
theorem fail (alike : Robot.AnswerAlike related) (same : m.Matches related m') (fault : Fault) :
    (m.fail fault).Matches related (m'.fail fault) := by
  obtain ⟨robots, rest⟩ := same
  generalize m'.robot = robot' at robots rest
  subst rest
  rw [Machine.fail, Machine.fail, note_eq, note_eq]
  exact ⟨alike.fail robots fault.detail, rfl⟩

/-- `conclude` gives the same result in both machines. -/
theorem conclude (alike : Robot.AnswerAlike related) {a a' : Advance}
    (both : Advance.Matches related a a') :
    (Machine.conclude a).1.Matches related (Machine.conclude a').1 ∧
      (Machine.conclude a').2 = (Machine.conclude a).2 := by
  cases both with
  | command kind line same =>
    have obeyed := same.obey alike kind
    refine ⟨obeyed, ?_⟩
    simp only [Machine.conclude, alike.done obeyed.robots]
  | ended same => exact ⟨same, rfl⟩
  | failed fault same => exact ⟨same.fail alike fault, rfl⟩

/-- **`step` keeps machines in lockstep, and does the same in both.** -/
theorem step (alike : Robot.AnswerAlike related) (same : m.Matches related m') :
    m.step.1.Matches related m'.step.1 ∧ m'.step.2 = m.step.2 := by
  have both := alike.done same.robots
  cases ended : m.robot.done with
  | true =>
    rw [Machine.step, Machine.step, if_pos ended, if_pos (both.trans ended)]
    exact ⟨same, rfl⟩
  | false =>
    have limits : m'.limits = m.limits := by rw [same.rest]
    rw [step_eq_conclude ended, step_eq_conclude (both.trans ended), limits]
    exact conclude alike (same.advance alike m.limits.stepBudget)

/-- **`stepped` keeps machines in lockstep, however often.** -/
theorem stepped (alike : Robot.AnswerAlike related) (same : m.Matches related m') (n : Nat) :
    (m.stepped n).Matches related (m'.stepped n) := by
  induction n generalizing m m' with
  | zero => exact same
  | succ n ih => exact ih (same.step alike).1

/-- **Each machine that one run `Reaches` is in lockstep with one of the other**, also between the
visits of a step. -/
theorem reaches (alike : Robot.AnswerAlike related) {start start' : Machine}
    (same : start.Matches related start') (reached : start.Reaches m) :
    ∃ m', start'.Reaches m' ∧ m.Matches related m' := by
  induction reached with
  | start => exact ⟨start', .start, same⟩
  | moved _ running visit ih =>
    obtain ⟨m', reached', here⟩ := ih
    obtain ⟨v', visit', both⟩ := here.exists_visit alike visit
    cases both with
    | moved there =>
      exact ⟨_, .moved reached' ((alike.done here.robots).trans running) visit', there⟩
  | @command _ _ kind _ _ running visit ih =>
    obtain ⟨m', reached', here⟩ := ih
    obtain ⟨v', visit', both⟩ := here.exists_visit alike visit
    cases both with
    | command _ _ there =>
      exact ⟨_, .command reached' ((alike.done here.robots).trans running) visit',
        there.obey alike kind⟩

end Matches

end Machine

end MazeRobot
