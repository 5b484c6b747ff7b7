import MazeRobot.Proofs.Sessions

/-! # Machines that keep up with others

Two programs are compared visit by visit. The second machine may stand still while the first one
makes a visit, but otherwise it makes a visit of the same kind. Then it never needs more budget, so
as long as the first one can afford its steps, both give the same commands, and sessions report the
same about them, apart from the words for a fault.

* `Machine.Moves.exists_visit`, `Machine.Faults.exists_visit`: a rule for the innermost frame is
  followed.
* `Machine.Simulation`: a relation under which the second machine keeps up.
* `Machine.Simulation.advance`, `Machine.Simulation.step`: runs up to the next command, and steps.
* `Machine.InStep`, `Machine.InStep.step`: machines that make the same visits.
* `Machine.simulation_withBudget`: a greater budget.
* `Session.Follows`, `Session.Follows.reports`: what sessions report.
* `Session.Follows.reports_eq`, `Session.Follows.related_of_outOfProgram`: reports without other
  words for a fault, and the machines of attempts that ran out of program. -/

namespace MazeRobot

namespace Machine

/-! ## Rules are followed -/

section Rules

variable {m : Machine} {limits : Limits} {store store' : Store} {depth depth' : Nat} {top : Frame}
  {below pushed frames : List Frame}

/-- The visit by which a machine `Passes` one visit without a command. -/
theorem Passes.exists_visit (passes : Passes m [none] frames store depth limits) :
    ∃ next, m.visit? = some (.moved next) ∧ next.At frames store depth limits := by
  obtain ⟨last, goes, there⟩ := passes
  cases goes with
  | moved visit rest =>
    cases rest
    exact ⟨_, visit, there⟩

/-- **A machine follows the rule by which its innermost frame `Moves`.** -/
theorem Moves.exists_visit (rule : Moves limits store depth top pushed store' depth')
    (here : m.At (top :: below) store depth limits) :
    ∃ next, m.visit? = some (.moved next) ∧ next.At (pushed ++ below) store' depth' limits := by
  cases rule with
  | blockNext stmt stmts => exact (here.passes_cons .block).exists_visit
  | blockEnd => exact here.passes_block_nil.exists_visit
  | bodyNext stmt stmts function back =>
    exact (here.passes_cons (.body function back)).exists_visit
  | bodyEnd function back =>
    -- The lemma for this frame asks for a scope to drop, which the rule does not need.
    have visit := visit?_of_frames here.frames
    rw [visitFrame, note_eq] at visit
    refine ⟨_, visit, rfl, ?_, congrArg (· - 1) here.depth, here.limits⟩
    rw [← here.store]
    rfl
  | round n body line => exact here.passes_rounds_succ.exists_visit
  | roundsEnd body line => exact here.passes_rounds_zero.exists_visit
  | loopNone body line evaluated => exact (here.passes_loop evaluated (by decide)).exists_visit
  | loop body line evaluated => exact (here.passes_loop evaluated (by omega)).exists_visit
  | branchNone body line => exact here.passes_branch_none.exists_visit
  | branchTaken body line holds =>
    have passes := here.passes_branch
    rw [if_pos holds] at passes
    exact passes.exists_visit
  | branchSkipped body line fails =>
    have passes := here.passes_branch
    rw [if_neg (by simp [fails])] at passes
    exact passes.exists_visit
  | assign name line evaluated => exact (here.passes_assign evaluated).exists_visit
  | define name parameters body line => exact here.passes_define.exists_visit
  | call implicit line resolved shallow => exact (here.passes_call resolved shallow).exists_visit
  | block body line => exact here.passes_block.exists_visit
  | missing =>
    exact ⟨_, visit?_of_frames here.frames, rfl, here.store, here.depth, here.limits⟩

/-- A machine fails by the rule by which its innermost frame `Faults`. -/
theorem Faults.exists_visit {stmt : Stmt} {fault : Fault}
    (faults : Faults limits store depth stmt fault)
    (here : m.At (.stmt stmt :: below) store depth limits) :
    m.visit? = some (.failed fault { m with frames := below }) := by
  have visit : m.visit? = some (run { m with frames := below } stmt) :=
    visit?_of_frames here.frames
  cases faults with
  | count body line unknown =>
    rw [visit, run, here.evaluate_eq, unknown]
  | negative body line evaluated negative =>
    rw [visit, run, here.evaluate_eq, evaluated]
    exact congrArg some (if_pos negative)
  | value name line unknown =>
    rw [visit, run, here.evaluate_eq, unknown]
  | unresolved implicit line unresolved =>
    rw [here.visit?_call, unresolved]
  | tooDeep implicit line resolved deep =>
    rw [here.visit?_call, resolved]
    exact congrArg some (if_pos deep)

end Rules

/-! ## Keeping up -/

/-- Whether a machine keeps up with a visit of another one. It stands still or moves as well where
the other one moves, is up to the same command, and fails where the other one does. -/
def KeepsUp (related : Machine → Machine → Prop) (tells : String → String → Prop) (m' : Machine) :
    Visit → Prop
  | .moved next =>
    related next m' ∨ ∃ next', m'.visit? = some (.moved next') ∧ related next next'
  | .command kind line next =>
    ∃ next', m'.visit? = some (.command kind line next') ∧
      related (next.obey kind) (next'.obey kind)
  | .failed fault next =>
    ∃ fault' next', m'.visit? = some (.failed fault' next') ∧ next'.robot = next.robot ∧
      tells fault.detail fault'.detail

/-- A relation between machines under which the second one keeps up with the first one, and a
relation between the texts by which they tell their faults. -/
structure Simulation (related : Machine → Machine → Prop) (tells : String → String → Prop) :
    Prop where
  /-- A text tells what it tells itself. -/
  refl : ∀ text, tells text text
  /-- Both machines have the same robot. -/
  robot : ∀ {m m'}, related m m' → m'.robot = m.robot
  /-- The second machine has no smaller budget. -/
  budget : ∀ {m m'}, related m m' → m.limits.stepBudget ≤ m'.limits.stepBudget
  /-- Where nothing is left for the first machine nothing is left for the second one. -/
  ended : ∀ {m m'}, related m m' → m.frames = [] → m'.frames = []
  /-- The second machine keeps up with every visit. -/
  visit : ∀ {m m' v}, related m m' → m.robot.done = false → m.visit? = some v →
    KeepsUp related tells m' v

/-- Runs up to the next command of machines of which the second one keeps up. -/
inductive Advance.Follows (related : Machine → Machine → Prop) (tells : String → String → Prop) :
    Advance → Advance → Prop
  /-- Both programs have ended. -/
  | ended {m m' : Machine} (on : related m m') : Follows related tells (.ended m) (.ended m')
  /-- The same command is up. -/
  | command {m m' : Machine} (kind : Command) (line : Int)
      (on : related (m.obey kind) (m'.obey kind)) :
      Follows related tells (.command kind line m) (.command kind line m')
  /-- Both programs fail. -/
  | failed {m m' : Machine} {fault fault' : Fault} (robots : m'.robot = m.robot)
      (told : tells fault.detail fault'.detail) :
      Follows related tells (.failed fault m) (.failed fault' m')

namespace Simulation

variable {related : Machine → Machine → Prop} {tells : String → String → Prop} {m m' : Machine}

/-- **In a `Simulation` the second machine keeps up with `advance` to the next command**, if the
budget allows that. It needs no more visits than the first one. -/
theorem advance (simulation : Simulation related tells) (on : related m m')
    (running : m.robot.done = false) {left left' : Nat} (enough : left ≤ left')
    (affordable : ∀ fault next, m.advance left = .failed fault next →
      fault.kind ≠ .stepBudgetExceeded) :
    Advance.Follows related tells (m.advance left) (m'.advance left') := by
  -- The induction is along the visits of the first machine. The second one may have more left,
  -- since it keeps those that it does not make.
  induction m, left using advance_induction generalizing m' left' with
  | ended m left none advanced =>
    rw [advanced, advance_of_frames_eq_nil (simulation.ended on none)]
    exact .ended on
  | spent m v visit advanced => exact absurd rfl (affordable _ _ advanced)
  | moved m left next visit advanced ih =>
    have running' : next.robot.done = false := (visit?_keeps visit).2.trans running
    rw [advanced] at affordable ⊢
    rcases simulation.visit on running visit with still | ⟨next', visit', on'⟩
    · exact ih still running' (by omega) affordable
    · obtain ⟨more, rfl⟩ := Nat.exists_eq_add_of_lt (Nat.lt_of_succ_le enough)
      rw [advance_succ visit']
      exact ih on' running' (by omega) affordable
  | command m left kind line next visit advanced =>
    obtain ⟨more, rfl⟩ := Nat.exists_eq_add_of_lt (Nat.lt_of_succ_le enough)
    obtain ⟨next', visit', on'⟩ := simulation.visit on running visit
    rw [advanced, advance_succ visit']
    exact .command kind line on'
  | failed m left fault next visit advanced =>
    obtain ⟨more, rfl⟩ := Nat.exists_eq_add_of_lt (Nat.lt_of_succ_le enough)
    obtain ⟨fault', next', visit', robots, told⟩ := simulation.visit on running visit
    rw [advanced, advance_succ visit']
    exact .failed robots told

end Simulation

end Machine

/-! ## Steps -/

/-- Options that are related by equality are the same. -/
theorem eq_of_rel_eq {α : Type} {first second : Option α} (both : Option.Rel Eq first second) :
    second = first := by
  cases both with
  | none => rfl
  | some same => rw [same]

/-- Robots that differ at most in the words for what went wrong. -/
structure Robot.StandsBeside (tells : String → String → Prop) (robot robot' : Robot) : Prop where
  /-- Everything else is the same. -/
  rest : robot' = { robot with failure? := robot'.failure? }
  /-- The words tell the same, or nothing went wrong. -/
  failure : Option.Rel tells robot.failure? robot'.failure?

namespace Robot.StandsBeside

variable {tells : String → String → Prop} {robot robot' : Robot}

/-- `StandsBeside` is reflexive if the relation of the words is. -/
theorem refl (reflexive : ∀ text, tells text text) (robot : Robot) :
    robot.StandsBeside tells robot := by
  refine ⟨rfl, ?_⟩
  cases robot.failure? with
  | none => exact .none
  | some text => exact .some (reflexive text)

/-- A robot that `StandsBeside` another stands at the same place. -/
theorem position (beside : robot.StandsBeside tells robot') : robot'.position = robot.position := by
  rw [beside.rest]

/-- A robot that `StandsBeside` another looks the same way. -/
theorem heading (beside : robot.StandsBeside tells robot') : robot'.heading = robot.heading := by
  rw [beside.rest]

/-- Of two robots of which one `StandsBeside` the other both have reached a goal, or neither has. -/
theorem completed (beside : robot.StandsBeside tells robot') :
    robot'.completed = robot.completed := by
  rw [beside.rest]

/-- Something went wrong for both of two robots of which one `StandsBeside` the other, or for
neither. -/
theorem isSome_failure (beside : robot.StandsBeside tells robot') :
    robot'.failure?.isSome = robot.failure?.isSome := by
  have failure := beside.failure
  revert failure
  cases robot.failure? <;> cases robot'.failure? <;> intro failure
  · rfl
  · cases failure
  · cases failure
  · rfl

/-- A robot that `StandsBeside` another and is told the same is the same. -/
theorem eq (beside : robot.StandsBeside Eq robot') : robot' = robot :=
  calc robot' = { robot with failure? := robot'.failure? } := beside.rest
    _ = { robot with failure? := robot.failure? } := by rw [eq_of_rel_eq beside.failure]
    _ = robot := rfl

/-- `fail` with faults that are told alike leaves robots beside each other. -/
theorem fail (reflexive : ∀ text, tells text text) (robot : Robot) {fault fault' : Fault}
    (told : tells fault.detail fault'.detail) :
    (robot.fail fault.detail).StandsBeside tells (robot.fail fault'.detail) := by
  cases ended : robot.done with
  | true =>
    simp only [Robot.fail, ended, Bool.true_or, if_true]
    exact refl reflexive robot
  | false =>
    simp only [Robot.fail, ended, fault.isEmpty_detail, fault'.isEmpty_detail, Bool.or_self,
      Bool.false_eq_true, if_false]
    exact ⟨rfl, .some told⟩

end Robot.StandsBeside

namespace Machine

/-- What a step of both machines comes to, of which the second one keeps up. -/
structure StepFollows (related : Machine → Machine → Prop) (tells : String → String → Prop)
    (stepped stepped' : Machine × StepResult) : Prop where
  /-- The same command was given, or none, and both may go on, or neither may. -/
  result : stepped'.2 = stepped.2
  /-- The robots stand beside each other. -/
  robots : stepped.1.robot.StandsBeside tells stepped'.1.robot
  /-- Where the machines may go on the second one still keeps up. -/
  going : stepped.2.hasMore = true → related stepped.1 stepped'.1

/-- `conclude` of runs up to the next command of which one `Follows` the other is a step of both
machines. -/
theorem Advance.Follows.conclude {related : Machine → Machine → Prop}
    {tells : String → String → Prop} {a a' : Advance} (follows : a.Follows related tells a')
    (reflexive : ∀ text, tells text text)
    (same : ∀ {m m'}, related m m' → m'.robot = m.robot) :
    StepFollows related tells (Machine.conclude a) (Machine.conclude a') := by
  cases follows with
  | ended on => exact ⟨rfl, same on ▸ .refl reflexive _, fun _ => on⟩
  | command kind line on =>
    have robots := same on
    refine ⟨?_, robots ▸ .refl reflexive _, fun _ => on⟩
    rw [Machine.conclude, Machine.conclude, robots]
  | failed robots told =>
    refine ⟨rfl, ?_, fun more => by cases more⟩
    simp only [Machine.conclude, fail, note_eq, robots]
    exact .fail reflexive _ told

namespace Simulation

variable {related : Machine → Machine → Prop} {tells : String → String → Prop}

/-- **In a `Simulation` a `step` of the second machine keeps up with a step that the budget
allows.** -/
theorem step (simulation : Simulation related tells) {m m' : Machine} (on : related m m')
    (affordable : ∀ fault, m.fault? = some fault → fault.kind ≠ .stepBudgetExceeded) :
    StepFollows related tells m.step m'.step := by
  have robots := simulation.robot on
  cases ended : m.robot.done with
  | true =>
    have ended' : m'.robot.done = true := by rw [robots, ended]
    rw [Machine.step, Machine.step, if_pos ended, if_pos ended']
    exact ⟨rfl, robots ▸ .refl simulation.refl _, fun _ => on⟩
  | false =>
    have follows := simulation.advance on ended (simulation.budget on) fun fault next failed =>
      affordable fault (fault?_eq_some_iff.mpr ⟨ended, next, failed⟩)
    rw [step_eq_conclude ended, step_eq_conclude (robots ▸ ended)]
    exact follows.conclude simulation.refl simulation.robot

/-- In a `Simulation` the second machine keeps up with a `step` to its end where nothing fails. -/
theorem related_step (simulation : Simulation related tells) {m m' : Machine} (on : related m m')
    (fine : m.fault? = none) : related m.step.1 m'.step.1 := by
  have robots := simulation.robot on
  cases ended : m.robot.done with
  | true =>
    have ended' : m'.robot.done = true := by rw [robots, ended]
    rw [Machine.step, Machine.step, if_pos ended, if_pos ended']
    exact on
  | false =>
    have unfailed : ∀ fault next, m.advance m.limits.stepBudget ≠ .failed fault next := by
      intro fault next failed
      rw [fault?_eq_some_iff.mpr ⟨ended, next, failed⟩] at fine
      cases fine
    have follows := simulation.advance on ended (simulation.budget on) fun fault next failed =>
      absurd failed (unfailed fault next)
    rw [step_eq_conclude ended, step_eq_conclude (robots ▸ ended)]
    generalize m.advance m.limits.stepBudget = a at follows unfailed ⊢
    generalize m'.advance m'.limits.stepBudget = a' at follows ⊢
    cases follows with
    | ended on => exact on
    | command kind line on => exact on
    | failed robots told => exact absurd rfl (unfailed _ _)

end Simulation

/-! ## Machines in step -/

/-- Whether a machine makes the same visit as another one: both move, are up to the same command, or
fail with the same fault. -/
def VisitsAlike (related : Machine → Machine → Prop) (m' : Machine) : Visit → Prop
  | .moved next => ∃ next', m'.visit? = some (.moved next') ∧ related next next'
  | .command kind line next =>
    ∃ next', m'.visit? = some (.command kind line next') ∧
      related (next.obey kind) (next'.obey kind)
  | .failed fault next =>
    ∃ next', m'.visit? = some (.failed fault next') ∧ next'.robot = next.robot

/-- A relation between machines that make the same visits. They also run out of budget at the same
time and at the same line. -/
structure InStep (related : Machine → Machine → Prop) : Prop where
  /-- Both machines have the same robot. -/
  robot : ∀ {m m'}, related m m' → m'.robot = m.robot
  /-- Both machines keep the same limits. -/
  limits : ∀ {m m'}, related m m' → m'.limits = m.limits
  /-- Both machines run a node on the same line. -/
  line : ∀ {m m'}, related m m' → m'.currentLine = m.currentLine
  /-- Where nothing is left for the first machine nothing is left for the second one. -/
  ended : ∀ {m m'}, related m m' → m.frames = [] → m'.frames = []
  /-- Both machines make the same visits. -/
  visit : ∀ {m m' v}, related m m' → m.robot.done = false → m.visit? = some v →
    VisitsAlike related m' v

namespace InStep

variable {related : Machine → Machine → Prop} {m m' : Machine}

/-- Of machines that are `InStep` the second has a visit ahead where the first one has. -/
theorem exists_visit (inStep : InStep related) (on : related m m') (running : m.robot.done = false)
    {v : Visit} (visit : m.visit? = some v) : ∃ v', m'.visit? = some v' := by
  have alike := inStep.visit on running visit
  cases v with
  | moved next => exact alike.imp' _ fun _ both => both.1
  | command kind line next => exact alike.imp' _ fun _ both => both.1
  | failed fault next => exact alike.imp' _ fun _ both => both.1

/-- **Machines that are `InStep` run up to the same command**, with any budget. -/
theorem advance (inStep : InStep related) (on : related m m') (running : m.robot.done = false)
    (left : Nat) : Advance.Follows related Eq (m.advance left) (m'.advance left) := by
  induction m, left using advance_induction generalizing m' with
  | ended m left none advanced =>
    rw [advanced, advance_of_frames_eq_nil (inStep.ended on none)]
    exact .ended on
  | spent m v visit advanced =>
    obtain ⟨v', visit'⟩ := inStep.exists_visit on running visit
    rw [advanced, advance_zero visit', inStep.limits on, inStep.line on]
    exact .failed (inStep.robot on) rfl
  | moved m left next visit advanced ih =>
    obtain ⟨next', visit', on'⟩ := inStep.visit on running visit
    rw [advanced, advance_succ visit']
    exact ih on' ((visit?_keeps visit).2.trans running)
  | command m left kind line next visit advanced =>
    obtain ⟨next', visit', on'⟩ := inStep.visit on running visit
    rw [advanced, advance_succ visit']
    exact .command kind line on'
  | failed m left fault next visit advanced =>
    obtain ⟨next', visit', robots⟩ := inStep.visit on running visit
    rw [advanced, advance_succ visit']
    exact .failed robots rfl

/-- **Machines that are `InStep` take the same `step`.** -/
theorem step (inStep : InStep related) (on : related m m') :
    StepFollows related Eq m.step m'.step := by
  have robots := inStep.robot on
  cases ended : m.robot.done with
  | true =>
    have ended' : m'.robot.done = true := by rw [robots, ended]
    rw [Machine.step, Machine.step, if_pos ended, if_pos ended']
    exact ⟨rfl, robots ▸ .refl (fun _ => rfl) _, fun _ => on⟩
  | false =>
    rw [step_eq_conclude ended, step_eq_conclude (robots ▸ ended), inStep.limits on]
    exact (inStep.advance on ended m.limits.stepBudget).conclude (fun _ => rfl) inStep.robot

end InStep

/-! ## Budgets and faults -/

/-- **A machine with a greater budget keeps up**: this is a `Simulation`. -/
theorem simulation_withBudget (budget : Nat) :
    Simulation (fun m m' => m.limits.stepBudget ≤ budget ∧ m' = m.withBudget budget) Eq where
  refl _ := rfl
  robot := by
    rintro m m' ⟨-, rfl⟩
    rfl
  budget := by
    rintro m m' ⟨less, rfl⟩
    exact less
  ended := by
    rintro m m' ⟨-, rfl⟩ none
    exact none
  visit := by
    rintro m m' v ⟨less, rfl⟩ - visit
    have kept := (visit?_keeps visit).1
    have visit' := visit?_withBudget visit budget
    cases v with
    | moved next => exact .inr ⟨_, visit', kept ▸ less, rfl⟩
    | command kind line next => exact ⟨_, visit', kept ▸ less, rfl⟩
    | failed fault next => exact ⟨fault, _, visit', rfl, rfl⟩

/-- A `step` with a `fault?` leaves the words for the fault. -/
theorem failure?_step_of_fault? {m : Machine} {fault : Fault} (failed : m.fault? = some fault) :
    m.step.1.robot.failure? = some fault.detail := by
  obtain ⟨running, m', advanced⟩ := fault?_eq_some_iff.mp failed
  have first : Reaches m m := .start
  have continues := first.continues_advance running m.limits.stepBudget
  rw [advanced] at continues
  have on : m'.robot.done = false := by
    obtain ⟨last, -, on, ⟨-, rfl⟩ | visit⟩ := continues
    · exact on
    · exact (visit?_keeps visit).2.trans on
  rw [step_eq_conclude running, advanced, conclude]
  simp [fail, Robot.fail, on, fault.isEmpty_detail]

end Machine

/-! ## Sessions -/

namespace Session

/-- Reports that say the same, apart from the words for what went wrong. -/
structure StepReport.Follows (tells : String → String → Prop) (report report' : StepReport) :
    Prop where
  /-- The same command was given, with the same line, or none, and both machines may go on, or
  neither may. -/
  result : report'.result = report.result
  /-- The attempts stand alike. -/
  outcome : report'.outcome = report.outcome
  /-- The robots stand at the same place. -/
  position : report'.position = report.position
  /-- The robots look the same way. -/
  heading : report'.heading = report.heading
  /-- The words for what went wrong tell the same. -/
  failure : Option.Rel tells report.failure? report'.failure?

/-- A report that `Follows` another with the same words is the same. -/
theorem StepReport.Follows.eq {report report' : StepReport} (follows : report.Follows Eq report') :
    report' = report := by
  obtain ⟨result, outcome, failure, position, heading⟩ := report
  obtain ⟨result', outcome', failure', position', heading'⟩ := report'
  obtain ⟨rfl, rfl, rfl, rfl, words⟩ := follows
  cases eq_of_rel_eq words
  rfl

/-- An attempt that is `outOfProgram` with a step does not fail in it. -/
theorem fault?_eq_none_of_outOfProgram {session : Session}
    (going : session.outcome.terminal = false) (out : session.step.1.outcome = .outOfProgram) :
    session.machine.fault? = none := by
  cases failed : session.machine.fault? with
  | none => rfl
  | some fault =>
    have told := Machine.failure?_step_of_fault? failed
    rw [step_of_going going] at out
    simp only [classify, told, Option.isSome_some, if_true] at out
    split at out <;> cases out

/-- Sessions whose attempts stand alike, and of which the second one keeps up as long as the
attempts go on. -/
structure Follows (related : Machine → Machine → Prop) (tells : String → String → Prop)
    (session session' : Session) : Prop where
  /-- The attempts stand alike. -/
  outcome : session'.outcome = session.outcome
  /-- The robots stand beside each other. -/
  robots : session.robot.StandsBeside tells session'.robot
  /-- The second machine keeps up with the first one. -/
  going : session.outcome.terminal = false → related session.machine session'.machine

/-- Whether no step of a session ever fails for lack of budget. -/
def Affordable (session : Session) : Prop :=
  ∀ n fault, (session.stepped n).machine.fault? = some fault → fault.kind ≠ .stepBudgetExceeded

/-- What is `Affordable` stays so. -/
theorem Affordable.step {session : Session} (affordable : session.Affordable) :
    session.step.1.Affordable :=
  fun n => affordable (n + 1)

/-- A session without lack of budget up to its end is `Affordable`. -/
theorem affordable_of_terminal {session : Session} {n : Nat}
    (ended : (session.stepped n).outcome.terminal = true)
    (spared : ∀ k ≤ n, (session.stepped k).machine.fault?.map Fault.kind ≠
      some .stepBudgetExceeded) : session.Affordable := by
  intro k fault failed told
  rcases Nat.le_total k n with before | after
  · exact spared k before (by rw [failed, Option.map_some, told])
  · rw [stepped_eq_of_terminal ended after] at failed
    exact spared n (Nat.le_refl n) (by rw [failed, Option.map_some, told])

namespace Follows

variable {related : Machine → Machine → Prop} {tells : String → String → Prop}
  {session session' : Session}

/-- `report` of the same result is alike. -/
theorem report (follows : session.Follows related tells session') (result : Machine.StepResult) :
    (session.report result).Follows tells (session'.report result) :=
  ⟨rfl, follows.outcome, follows.robots.position, follows.robots.heading, follows.robots.failure⟩

/-- Where the machines step alike both sessions report alike, and the second one still `Follows`. -/
theorem step_of_stepFollows (follows : session.Follows related tells session')
    (steps : session.outcome.terminal = false →
      Machine.StepFollows related tells session.machine.step session'.machine.step) :
    session.step.1.Follows related tells session'.step.1 ∧
      session.step.2.Follows tells session'.step.2 := by
  cases ended : session.outcome.terminal with
  | true =>
    have ended' : session'.outcome.terminal = true := by rw [follows.outcome, ended]
    rw [step_of_terminal ended, step_of_terminal ended']
    exact ⟨follows, follows.report .nothing⟩
  | false =>
    have ended' : session'.outcome.terminal = false := by rw [follows.outcome, ended]
    have both := steps ended
    have after : session.step.1.Follows related tells session'.step.1 := by
      rw [step_of_going ended, step_of_going ended']
      refine ⟨?_, both.robots, fun going => ?_⟩
      · simp only [classify, both.robots.completed, both.robots.isSome_failure, both.result]
      · -- An attempt that goes on has a machine that may.
        cases more : session.machine.step.2.hasMore with
        | true => exact both.going more
        | false =>
          dsimp only at going
          rw [terminal_classify more] at going
          cases going
    rw [report_of_going ended, report_of_going ended', both.result]
    exact ⟨after, after.report _⟩

/-- **A `step` of both sessions is reported alike, and the second session still `Follows`.** -/
theorem step (follows : session.Follows related tells session')
    (simulation : Machine.Simulation related tells) (affordable : session.Affordable) :
    session.step.1.Follows related tells session'.step.1 ∧
      session.step.2.Follows tells session'.step.2 :=
  follows.step_of_stepFollows fun going => simulation.step (follows.going going) (affordable 0)

/-- **`reports` on any number of steps that the budget allows are alike.** -/
theorem reports (follows : session.Follows related tells session')
    (simulation : Machine.Simulation related tells) (affordable : session.Affordable) (n : Nat) :
    List.Forall₂ (StepReport.Follows tells) (session.reports n) (session'.reports n) := by
  induction n generalizing session session' with
  | zero => exact .nil
  | succ n ih =>
    obtain ⟨follows', report⟩ := follows.step simulation affordable
    exact .cons report (ih follows' affordable.step)

/-- The second session `Follows` when `stepped`, as far as the budget allows. -/
theorem stepped (follows : session.Follows related tells session')
    (simulation : Machine.Simulation related tells) (affordable : session.Affordable) (n : Nat) :
    (session.stepped n).Follows related tells (session'.stepped n) := by
  induction n generalizing session session' with
  | zero => exact follows
  | succ n ih => exact ih (follows.step simulation affordable).1 affordable.step

/-- **Where also the words for a fault are the same, so are all `reports`.** -/
theorem reports_eq (follows : session.Follows related Eq session')
    (simulation : Machine.Simulation related Eq) (affordable : session.Affordable) (n : Nat) :
    session'.reports n = session.reports n := by
  induction n generalizing session session' with
  | zero => rfl
  | succ n ih =>
    obtain ⟨follows', report⟩ := follows.step simulation affordable
    rw [Session.reports, Session.reports, report.eq, ih follows' affordable.step]

/-- **Sessions whose machines are `InStep` have the same `reports`**, whatever they can afford. -/
theorem reports_eq_of_inStep (follows : session.Follows related Eq session')
    (inStep : Machine.InStep related) (n : Nat) : session'.reports n = session.reports n := by
  induction n generalizing session session' with
  | zero => rfl
  | succ n ih =>
    obtain ⟨follows', report⟩ :=
      follows.step_of_stepFollows fun going => inStep.step (follows.going going)
    rw [Session.reports, Session.reports, report.eq, ih follows']

/-- **The second machine has kept up to the end** where an attempt is `outOfProgram`. -/
theorem related_of_outOfProgram (follows : session.Follows related tells session')
    (simulation : Machine.Simulation related tells) (affordable : session.Affordable)
    (going : session.outcome.terminal = false) {n : Nat}
    (out : (session.stepped n).outcome = .outOfProgram) :
    related (session.stepped n).machine (session'.stepped n).machine := by
  induction n generalizing session session' with
  | zero =>
    change session.outcome = .outOfProgram at out
    rw [out] at going
    cases going
  | succ n ih =>
    have next := (follows.step simulation affordable).1
    cases ended : session.step.1.outcome.terminal with
    | false => exact ih next affordable.step ended out
    | true =>
      -- The attempt has ended with this step, which did not fail.
      have ended' : session'.step.1.outcome.terminal = true := by rw [next.outcome, ended]
      have going' : session'.outcome.terminal = false := by rw [follows.outcome, going]
      rw [Session.stepped, stepped_of_terminal ended] at out ⊢
      rw [Session.stepped, stepped_of_terminal ended']
      have fine := fault?_eq_none_of_outOfProgram going out
      rw [step_of_going going, step_of_going going']
      exact simulation.related_step (follows.going going) fine

end Follows

end Session

end MazeRobot
