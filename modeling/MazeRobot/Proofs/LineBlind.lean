import MazeRobot.Proofs.LineMarks
import MazeRobot.Proofs.RoundTrip
import MazeRobot.Proofs.Sessions

/-! # Machines do not look at lines

Lines are carried along with statements and frames, and are named when something goes wrong. Nothing
else depends on them: a machine whose lines are all erased makes the same visits, spends its budget
on the same nodes and gives the same commands. So a program and its layout, which differ in their
lines only, run alike.

* `Frame.eraseLines`, `Machine.eraseLines`: frames and machines without lines.
* `Machine.visit?_eraseLines`, `Machine.advance_eraseLines`: visits and runs up to a command without
  lines.
* `Robot.StandsLike`, `Machine.step_alike`: steps of machines that differ in their lines only.
* `Session.Alike`, `Session.Alike.step`: sessions that go on alike.
* `Session.layout_runs_alike`: a program and its layout. -/

namespace MazeRobot

/-! ## Without lines -/

/-- The definition with every line set to zero. -/
def FunctionDef.eraseLines (f : FunctionDef) : FunctionDef :=
  ⟨f.name, f.parameters, Stmt.eraseAllLines f.body, 0⟩

/-- The frame with every line set to zero. -/
def Frame.eraseLines : Frame → Frame
  | block rest => block (Stmt.eraseAllLines rest)
  | body rest function depth => body (Stmt.eraseAllLines rest) function depth
  | stmt next => stmt next.eraseLines
  | loop remaining again _ => loop remaining (Stmt.eraseAllLines again) 0

/-- `Frame.ofStmt` commutes with `eraseLines`. -/
theorem Frame.ofStmt_eraseLines (s : Stmt) : Frame.ofStmt s.eraseLines = (ofStmt s).eraseLines := by
  cases s <;> rfl

/-- A frame after `eraseLines` runs a node on line zero, if it runs one. -/
theorem Frame.line?_eraseLines (frame : Frame) : frame.eraseLines.line?.getD 0 = 0 := by
  cases frame with
  | stmt next => cases next <;> rfl
  | _ => rfl

/-- `Stmt.definition?` commutes with `eraseLines`. -/
theorem Stmt.definition?_eraseLines (stmt : Stmt) :
    stmt.eraseLines.definition? = stmt.definition?.map FunctionDef.eraseLines := by
  cases stmt <;> rfl

/-- `FunctionDef.insert` commutes with `eraseLines`. -/
theorem FunctionDef.insert_eraseLines (f : FunctionDef) (functions : List FunctionDef) :
    (f.insert functions).map eraseLines = f.eraseLines.insert (functions.map eraseLines) := by
  rw [FunctionDef.insert, FunctionDef.insert, List.map_cons, List.filter_map]
  rfl

/-- The definitions that statements after `eraseAllLines` make, one after the other. -/
theorem FunctionDef.foldl_insert_eraseLines (stmts : List Stmt) (known : List FunctionDef) :
    ((Stmt.eraseAllLines stmts).filterMap Stmt.definition?).foldl (fun fs f => f.insert fs)
        (known.map eraseLines) =
      ((stmts.filterMap Stmt.definition?).foldl (fun fs f => f.insert fs) known).map
        eraseLines := by
  induction stmts generalizing known with
  | nil => rfl
  | cons stmt stmts ih =>
    rw [Stmt.eraseAllLines, List.filterMap_cons, List.filterMap_cons, Stmt.definition?_eraseLines]
    cases stmt.definition? with
    | none => exact ih known
    | some f =>
      rw [List.foldl_cons, ← ih, FunctionDef.insert_eraseLines]
      rfl

namespace Machine

/-- The machine with every line set to zero, and without a journal. -/
def eraseLines (m : Machine) : Machine :=
  { m with
    frames := m.frames.map Frame.eraseLines
    functions := m.functions.map FunctionDef.eraseLines
    tracing := false
    journal := [] }

/-- The visit without lines. -/
def Visit.eraseLines : Visit → Visit
  | .moved m => .moved m.eraseLines
  | .command kind _ m => .command kind 0 m.eraseLines
  | .failed fault m => .failed fault.unplaced m.eraseLines

/-- What running up to the next command leads to, without lines. -/
def Advance.eraseLines : Advance → Advance
  | .command kind _ m => .command kind 0 m.eraseLines
  | .ended m => .ended m.eraseLines
  | .failed fault m => .failed fault.unplaced m.eraseLines

/-- What `note` records does not count for `eraseLines`. -/
theorem eraseLines_note (m : Machine) (event : Event) :
    (m.note event).eraseLines = m.eraseLines := by
  rw [note_eq]
  rfl

/-- `load` commutes with `eraseLines`. -/
theorem load_eraseLines (robot : Robot) (limits : Limits) (tracing : Bool) (program : Program) :
    (load robot limits tracing program).eraseLines = load robot limits false program.eraseLines := by
  have functions := FunctionDef.foldl_insert_eraseLines program.body []
  rw [List.map_nil] at functions
  simp only [eraseLines, load, idle, Program.eraseLines, functions]
  rfl

/-! ## Visits -/

/-- `evaluate` does not depend on lines. -/
theorem evaluate_eraseLines (m : Machine) (expr : Expr) :
    m.eraseLines.evaluate expr.eraseLines = unplacedBy id (m.evaluate expr) := by
  cases expr with
  | var name line =>
    have same : m.eraseLines.scopes = m.scopes := rfl
    rw [Expr.eraseLines, evaluate, evaluate, same]
    cases m.scopes.get? name <;> rfl
  | _ => rfl

/-- `evaluateAll` does not depend on lines. -/
theorem evaluateAll_eraseLines (m : Machine) (exprs : List Expr) :
    m.eraseLines.evaluateAll (exprs.map Expr.eraseLines) = unplacedBy id (m.evaluateAll exprs) := by
  induction exprs with
  | nil => rfl
  | cons expr exprs ih =>
    rw [List.map_cons, evaluateAll, evaluateAll, evaluate_eraseLines, ih]
    cases m.evaluate expr with
    | error fault => rfl
    | ok value => cases m.evaluateAll exprs <;> rfl

/-- `function?` finds a function by its name, whatever the lines. -/
theorem function?_eraseLines (m : Machine) (name : String) :
    m.eraseLines.function? name = (m.function? name).map FunctionDef.eraseLines := by
  simp only [function?, eraseLines, List.find?_map]
  rfl

/-- `enter` does not depend on lines. -/
theorem enter_eraseLines (m : Machine) (name : String) (arguments : List Expr) (line : Int) :
    m.eraseLines.enter name (arguments.map Expr.eraseLines) 0 =
      (m.enter name arguments line).eraseLines := by
  rw [enter, enter, function?_eraseLines, evaluateAll_eraseLines]
  cases m.function? name with
  | none =>
    have names : m.eraseLines.functions.map (·.name) = m.functions.map (·.name) := by
      simp [eraseLines, FunctionDef.eraseLines, Function.comp_def]
    dsimp only [Option.map_none]
    rw [names]
    rfl
  | some f =>
    cases m.evaluateAll arguments with
    | error fault => rfl
    | ok values =>
      have parameters : f.eraseLines.parameters = f.parameters := rfl
      have limits : m.eraseLines.limits = m.limits := rfl
      have depth : m.eraseLines.callDepth = m.callDepth := rfl
      dsimp only [Option.map_some, unplacedBy, id]
      rw [parameters, limits, depth]
      by_cases arity : values.length ≠ f.parameters.length
      · rw [if_pos arity, if_pos arity]
        rfl
      · rw [if_neg arity, if_neg arity]
        by_cases deep : m.limits.maxCallDepth ≤ m.callDepth
        · rw [if_pos deep, if_pos deep]
          rfl
        · rw [if_neg deep, if_neg deep, Visit.eraseLines, eraseLines_note]
          rfl

/-- `run` does not depend on lines. -/
theorem run_eraseLines (m : Machine) (stmt : Stmt) :
    m.eraseLines.run stmt.eraseLines = (m.run stmt).eraseLines := by
  cases stmt with
  | call name arguments implicit line => exact m.enter_eraseLines name arguments line
  | loop count body line =>
    rw [Stmt.eraseLines, run, run, evaluate_eraseLines]
    cases m.evaluate count with
    | error fault => rfl
    | ok value =>
      dsimp only [unplacedBy, id]
      by_cases negative : value < 0
      · rw [if_pos negative, if_pos negative]
        rfl
      · rw [if_neg negative, if_neg negative, note_eq, note_eq]
        cases value.toNat <;> rfl
  | branch condition body line =>
    cases condition with
    | none => rfl
    | some condition =>
      have same : m.eraseLines.robot = m.robot := rfl
      have asked : ask m.robot condition.eraseLines = ask m.robot condition := rfl
      rw [Stmt.eraseLines, Option.map_some, run, run, same, asked]
      cases holds : (ask m.robot condition).2 <;> simp [holds, Visit.eraseLines, eraseLines,
        Frame.eraseLines]
  | assign name value line =>
    rw [Stmt.eraseLines, run, run, evaluate_eraseLines]
    cases m.evaluate value <;> rfl
  | define name parameters body line =>
    rw [Stmt.eraseLines, run, run, Visit.eraseLines]
    simp only [eraseLines, FunctionDef.insert_eraseLines]
    rfl
  | _ => rfl

/-- `visitFrame` does not depend on lines. -/
theorem visitFrame_eraseLines (m : Machine) (frame : Frame) :
    visitFrame m.eraseLines frame.eraseLines = (visitFrame m frame).eraseLines := by
  cases frame with
  | block stmts =>
    cases stmts with
    | nil => rfl
    | cons stmt stmts =>
      simp only [Frame.eraseLines, Stmt.eraseAllLines, visitFrame, Frame.ofStmt_eraseLines]
      rfl
  | body stmts function depth =>
    cases stmts with
    | nil =>
      simp only [Frame.eraseLines, Stmt.eraseAllLines, visitFrame, Visit.eraseLines,
        eraseLines_note]
      rfl
    | cons stmt stmts =>
      simp only [Frame.eraseLines, Stmt.eraseAllLines, visitFrame, Frame.ofStmt_eraseLines]
      rfl
  | stmt stmt => exact m.run_eraseLines stmt
  | loop remaining body line => cases remaining <;> rfl

/-- **`visit?` does not depend on lines.** -/
theorem visit?_eraseLines (m : Machine) :
    m.eraseLines.visit? = m.visit?.map Visit.eraseLines := by
  cases frames : m.frames with
  | nil =>
    have none : m.eraseLines.frames = [] := by rw [eraseLines, frames]; rfl
    rw [visit?, visit?, none, frames]
    rfl
  | cons frame below =>
    have top : m.eraseLines.frames = frame.eraseLines :: below.map Frame.eraseLines := by
      rw [eraseLines, frames]
      rfl
    rw [visit?_of_frames top, visit?_of_frames frames, Option.map_some]
    exact congrArg some (visitFrame_eraseLines { m with frames := below } frame)

/-- `currentLine` after `eraseLines` is zero. -/
theorem currentLine_eraseLines (m : Machine) : m.eraseLines.currentLine = 0 := by
  show ((m.frames.map Frame.eraseLines).findSome? Frame.line?).getD 0 = 0
  induction m.frames with
  | nil => rfl
  | cons frame frames ih =>
    have here := frame.line?_eraseLines
    rw [List.map_cons, List.findSome?_cons]
    cases line : frame.eraseLines.line? with
    | none => exact ih
    | some zero =>
      rw [line] at here
      exact here

/-- A visit that is ahead by `visit?` is ahead after `eraseLines` too. -/
theorem visit?_eraseLines_of_visit? {m : Machine} {v : Visit} (visit : m.visit? = some v) :
    m.eraseLines.visit? = some v.eraseLines := by
  rw [visit?_eraseLines, visit, Option.map_some]

/-- **`advance` does not depend on lines.** The same visits use up the budget. -/
theorem advance_eraseLines (m : Machine) (left : Nat) :
    m.eraseLines.advance left = (m.advance left).eraseLines := by
  induction m, left using advance_induction with
  | ended m left none advanced =>
    have erased : m.eraseLines.frames = [] := by simp [eraseLines, none]
    rw [advanced, advance_of_frames_eq_nil erased, Advance.eraseLines]
  | spent m v visit advanced =>
    rw [advanced, advance_zero (visit?_eraseLines_of_visit? visit), currentLine_eraseLines]
    rfl
  | moved m left next visit advanced ih =>
    rw [advanced, advance_succ (visit?_eraseLines_of_visit? visit)]
    exact ih
  | command m left kind line next visit advanced =>
    rw [advanced, advance_succ (visit?_eraseLines_of_visit? visit)]
    rfl
  | failed m left fault next visit advanced =>
    rw [advanced, advance_succ (visit?_eraseLines_of_visit? visit)]
    rfl

end Machine

/-! ## Steps -/

/-- Robots that stand alike. What went wrong may differ in the line that it names. -/
structure Robot.StandsLike (robot robot' : Robot) : Prop where
  /-- Both have reached a goal, or neither has. -/
  completed : robot'.completed = robot.completed
  /-- They stand at the same place. -/
  position : robot'.position = robot.position
  /-- They look the same way. -/
  heading : robot'.heading = robot.heading
  /-- The same went wrong. -/
  failure : robot'.failure?.map Text.withoutLine = robot.failure?.map Text.withoutLine

namespace Robot.StandsLike

/-- `StandsLike` is reflexive. -/
theorem refl (robot : Robot) : robot.StandsLike robot := ⟨rfl, rfl, rfl, rfl⟩

/-- Something went wrong for both of two robots of which one `StandsLike` the other, or for
neither. -/
theorem isSome_failure {robot robot' : Robot} (alike : robot.StandsLike robot') :
    robot'.failure?.isSome = robot.failure?.isSome := by
  have same := congrArg Option.isSome alike.failure
  rwa [Option.isSome_map, Option.isSome_map] at same

/-- `fail` leaves robots alike, wherever the fault is placed. -/
theorem fail (robot : Robot) {fault fault' : Fault} (same : fault.cause = fault'.cause) :
    (robot.fail fault.detail).StandsLike (robot.fail fault'.detail) := by
  cases ended : robot.done with
  | true =>
    simp only [Robot.fail, ended, Bool.true_or, if_true]
    exact refl robot
  | false =>
    simp only [Robot.fail, ended, fault.isEmpty_detail, fault'.isEmpty_detail, Bool.or_self,
      Bool.false_eq_true, if_false]
    exact ⟨rfl, rfl, rfl, congrArg some (Fault.withoutLine_detail same.symm)⟩

end Robot.StandsLike

namespace Machine

/-- What two machines come to that differ in their lines only: the same command, or robots that
stand alike. They still differ in their lines only where they may go on. -/
structure StepAlike (stepped stepped' : Machine × StepResult) : Prop where
  /-- Both may go on, or neither may. -/
  hasMore : stepped'.2.hasMore = stepped.2.hasMore
  /-- The same command was given. -/
  instruction : stepped'.2.instruction = stepped.2.instruction
  /-- The robots stand alike. -/
  robots : stepped.1.robot.StandsLike stepped'.1.robot
  /-- Where they may go on they differ in their lines only. -/
  going : stepped.2.hasMore = true → stepped'.1.eraseLines = stepped.1.eraseLines

/-- Machines with the same `eraseLines` have the same robot. -/
theorem robot_eq_of_eraseLines {m m' : Machine} (same : m'.eraseLines = m.eraseLines) :
    m'.robot = m.robot := by
  show m'.eraseLines.robot = m.eraseLines.robot
  rw [same]

/-- `conclude` is alike for the same command, wherever it is placed. -/
theorem conclude_alike {a a' : Advance} (same : a'.eraseLines = a.eraseLines) :
    StepAlike (conclude a) (conclude a') := by
  -- Erasing lines keeps the kind of a result, so the two are of one kind.
  cases a with
  | ended m =>
    cases a' with
    | ended m' =>
      have erased : m'.eraseLines = m.eraseLines := Advance.ended.inj same
      refine ⟨rfl, rfl, ?_, fun _ => erased⟩
      rw [conclude, conclude, robot_eq_of_eraseLines erased]
      exact .refl _
    | command kind line m' => cases same
    | failed fault m' => cases same
  | command kind line m =>
    cases a' with
    | ended m' => cases same
    | command kind' line' m' =>
      obtain ⟨rfl, -, erased⟩ := Advance.command.inj same
      have obeyed : (m'.obey kind').eraseLines = (m.obey kind').eraseLines :=
        congrArg (·.obey kind') erased
      refine ⟨?_, rfl, ?_, fun _ => obeyed⟩
      · rw [conclude, conclude, robot_eq_of_eraseLines obeyed]
      · rw [conclude, conclude, robot_eq_of_eraseLines obeyed]
        exact .refl _
    | failed fault m' => cases same
  | failed fault m =>
    cases a' with
    | ended m' => cases same
    | command kind line m' => cases same
    | failed fault' m' =>
      obtain ⟨unplaced, erased⟩ := Advance.failed.inj same
      have cause : fault.cause = fault'.cause := (congrArg Fault.cause unplaced).symm
      have robots := robot_eq_of_eraseLines erased
      refine ⟨rfl, rfl, ?_, fun more => by cases more⟩
      simp only [conclude, Machine.fail, note_eq, robots]
      exact .fail m.robot cause

/-- **`step` does not depend on lines.** -/
theorem step_alike {m m' : Machine} (same : m'.eraseLines = m.eraseLines) :
    StepAlike m.step m'.step := by
  have robots := robot_eq_of_eraseLines same
  have limits : m'.limits = m.limits := by
    show m'.eraseLines.limits = m.eraseLines.limits
    rw [same]
  cases ended : m.robot.done with
  | true =>
    have ended' : m'.robot.done = true := by rw [robots, ended]
    rw [step, step, if_pos ended, if_pos ended']
    exact ⟨rfl, rfl, robots ▸ .refl _, fun _ => same⟩
  | false =>
    rw [step_eq_conclude ended, step_eq_conclude (robots ▸ ended), limits]
    apply conclude_alike
    rw [← advance_eraseLines, ← advance_eraseLines, same]

end Machine

/-! ## Sessions -/

namespace Session

/-- Reports that say the same, apart from the line of a command and the line that is named where
something went wrong. -/
structure StepReport.AgreesWith (report report' : StepReport) : Prop where
  /-- The same command was given. -/
  instruction : report'.result.instruction = report.result.instruction
  /-- Both machines may go on, or neither may. -/
  hasMore : report'.result.hasMore = report.result.hasMore
  /-- The attempts stand alike. -/
  outcome : report'.outcome = report.outcome
  /-- The robots stand at the same place. -/
  position : report'.position = report.position
  /-- The robots look the same way. -/
  heading : report'.heading = report.heading
  /-- The same went wrong. -/
  failure : report'.failure?.map Text.withoutLine = report.failure?.map Text.withoutLine

/-- Sessions whose attempts stand alike, and whose machines differ in their lines only as long as
the attempts go on. -/
structure Alike (session session' : Session) : Prop where
  /-- The attempts stand alike. -/
  outcome : session'.outcome = session.outcome
  /-- The robots stand alike. -/
  robots : session.robot.StandsLike session'.robot
  /-- The machines differ in their lines only. -/
  going : session.outcome.terminal = false →
    session'.machine.eraseLines = session.machine.eraseLines

namespace Alike

variable {session session' : Session}

/-- `report` of results that agree on the command is alike. -/
theorem report (alike : session.Alike session') {result result' : Machine.StepResult}
    (instruction : result'.instruction = result.instruction)
    (hasMore : result'.hasMore = result.hasMore) :
    (session.report result).AgreesWith (session'.report result') :=
  ⟨instruction, hasMore, alike.outcome, alike.robots.position, alike.robots.heading,
    alike.robots.failure⟩

/-- **`step` leaves both sessions `Alike`, and is reported alike.** -/
theorem step (alike : session.Alike session') :
    session.step.1.Alike session'.step.1 ∧ session.step.2.AgreesWith session'.step.2 := by
  cases ended : session.outcome.terminal with
  | true =>
    have ended' : session'.outcome.terminal = true := by rw [alike.outcome, ended]
    rw [step_of_terminal ended, step_of_terminal ended']
    exact ⟨alike, alike.report rfl rfl⟩
  | false =>
    have ended' : session'.outcome.terminal = false := by rw [alike.outcome, ended]
    have both := Machine.step_alike (alike.going ended)
    have after : session.step.1.Alike session'.step.1 := by
      rw [step_of_going ended, step_of_going ended']
      refine ⟨?_, both.robots, fun going => ?_⟩
      · simp only [classify, both.robots.completed, both.robots.isSome_failure, both.hasMore]
      · -- An attempt that goes on has a machine that may.
        cases more : session.machine.step.2.hasMore with
        | true => exact both.going more
        | false =>
          dsimp only at going
          rw [terminal_classify more] at going
          cases going
    rw [report_of_going ended, report_of_going ended']
    exact ⟨after, after.report both.instruction both.hasMore⟩

/-- `stepped` leaves sessions `Alike`, however often. -/
theorem stepped (alike : session.Alike session') (n : Nat) :
    (session.stepped n).Alike (session'.stepped n) := by
  induction n generalizing session session' with
  | zero => exact alike
  | succ n ih => exact ih alike.step.1

/-- `reports` of any number of steps are alike. -/
theorem reports (alike : session.Alike session') (n : Nat) :
    List.Forall₂ StepReport.AgreesWith (session.reports n) (session'.reports n) := by
  induction n generalizing session session' with
  | zero => exact .nil
  | succ n ih => exact .cons alike.step.2 (ih alike.step.1)

end Alike

/-- Programs with the same `eraseLines` start sessions that are `Alike`. -/
theorem alike_ofProgram {program program' : Program}
    (same : program'.eraseLines = program.eraseLines) (level : Level) (limits : Limits)
    (tracing tracing' : Bool) :
    (ofProgram program level limits tracing).Alike
      (ofProgram program' level limits tracing') := by
  refine ⟨rfl, .refl _, fun _ => ?_⟩
  show (Machine.load level.robot limits tracing' program').eraseLines =
    (Machine.load level.robot limits tracing program).eraseLines
  rw [Machine.load_eraseLines, Machine.load_eraseLines, same]

/-- **A program and its `layout` run alike.** A session for a source can also be started for the
layout of its program, at every level and with all limits. Step by step the two report the same,
apart from lines, and both attempts end with the same step. -/
theorem layout_runs_alike {source : List UInt8} {level : Level} {limits : Limits} {tracing : Bool}
    {session : Session} (started : start source (some level) limits tracing = .ok session)
    (tracing' : Bool) :
    ∃ again, start (Text.utf8 session.program.layout) (some level) limits tracing' = .ok again ∧
      (∀ n, List.Forall₂ StepReport.AgreesWith (session.reports n) (again.reports n)) ∧
      ∃ n, IsLeast {k | (session.stepped k).outcome.terminal = true} n ∧
        IsLeast {k | (again.stepped k).outcome.terminal = true} n := by
  obtain ⟨program, parsed, rfl⟩ := exists_program_of_start started
  obtain ⟨again, read, same⟩ := Program.parse_layout (Program.wellFormed_of_parse parsed)
  have alike := alike_ofProgram same level limits tracing tracing'
  refine ⟨ofProgram again level limits tracing', ?_, alike.reports, ?_⟩
  · have layout : Program.parse
        (Text.utf8 (ofProgram program level limits tracing).program.layout) = .ok again := read
    rw [start, layout]
  · -- The outcomes agree after every step, so the first one that ends an attempt is the same.
    obtain ⟨n, -, ended⟩ := exists_terminal_ofProgram program level limits tracing
    have some : ∃ k, ((ofProgram program level limits tracing).stepped k).outcome.terminal = true :=
      ⟨n, ended⟩
    refine ⟨Nat.find some, ⟨Nat.find_spec some, fun k => Nat.find_min' some⟩, ?_⟩
    simp only [(alike.stepped _).outcome]
    exact ⟨Nat.find_spec some, fun k => Nat.find_min' some⟩

/-- A source with empty lines that fails on its last one. -/
def sparseSource : List UInt8 := Text.utf8 "(forward)\n\n\n(set y x)"

/-- The program of that source. -/
def sparseProgram : Program := ⟨[.command .forward 1, .assign "y" (.var "x" 4) 4], 1⟩

/-- This program fails in its second step, on line 4. Its layout has only two lines, and a session
for it fails in its second step as well. -/
theorem layout_runs_alike_sparse :
    let session := ofProgram sparseProgram corridor {} false
    start sparseSource (some corridor) {} false = .ok session ∧
      (session.stepped 2).robot.failure? = some "Undefined variable 'x' at line 4" ∧
      ∃ again, start (Text.utf8 session.program.layout) (some corridor) {} true = .ok again ∧
        (∀ n, List.Forall₂ StepReport.AgreesWith (session.reports n) (again.reports n)) ∧
        ∃ n, IsLeast {k | (session.stepped k).outcome.terminal = true} n ∧
          IsLeast {k | (again.stepped k).outcome.terminal = true} n := by
  intro session
  have parsed : Program.parse sparseSource = .ok sparseProgram :=
    eq_ok_of_toOption (by decide +kernel)
  have started : start sparseSource (some corridor) {} false = .ok session := by
    rw [start, parsed]
  exact ⟨started, by decide +kernel, layout_runs_alike started true⟩

end Session

end MazeRobot
