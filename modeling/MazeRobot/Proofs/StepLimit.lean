import MazeRobot.Proofs.AtomicSteps
import MazeRobot.Proofs.Schedules

/-! # What a step limit tells

A run stops at its limit without looking at what comes next. That a program has come to its end is
found out only by the step after its last command, so a run whose limit is the number of commands of
the whole attempt reports the limit of a program with nothing left to do. That is the only such
case: everywhere else a reported limit tells of a program that goes on.

* `Session.GoesOn`, `Session.Exhausted`: what one more step would find.
* `Session.Faithful.step_cases`: a step gives a command, fails, or finds the program at its end.
* `Session.run_eq_stepLimit_iff`: a run stops at its limit where its steps leave it running.
* `Session.exhausted_stepped_iff`: the one place of an attempt at which the program is exhausted.
* `Session.stepLimit_goesOn_iff`: when a reported limit tells of a program that goes on. -/

namespace MazeRobot

namespace Machine

/-- After a command `hasMore` tells the machine to go on unless the run of the robot is over. -/
theorem hasMore_of_issued {m : Machine} (given : m.step.2.issued.isSome = true) :
    m.step.2.hasMore = !m.step.1.robot.done := by
  unfold step at given ⊢
  split
  · next ended =>
    rw [if_pos ended] at given
    cases given
  · next running =>
    rw [if_neg running] at given
    cases advanced : m.advance m.limits.stepBudget with
    | command kind line next => rfl
    | ended last =>
      rw [advanced] at given
      cases given
    | failed fault next =>
      rw [advanced] at given
      cases given

/-- Every step of a machine that a run `Reaches` is `Atomic`. -/
theorem Reaches.atomic {robot : Robot} {limits : Limits} {tracing : Bool} {program : Program}
    {m : Machine} (reached : (load robot limits tracing program).Reaches m)
    (running : m.robot.done = false) : Atomic m m.step.1 m.step.2 := by
  cases advanced : m.advance m.limits.stepBudget with
  | ended last => exact atomic_of_ended running advanced
  | failed fault next => exact atomic_of_failed running advanced
  | command kind line next => exact reached.atomic_of_command running advanced

end Machine

namespace Session

/-- One more step would give a command or fail. -/
def GoesOn (session : Session) : Prop :=
  session.step.2.result.issued.isSome = true ∨ session.step.2.outcome = .failed

instance (session : Session) : Decidable session.GoesOn := inferInstanceAs (Decidable (_ ∨ _))

/-- One more step would find the program at its end and give no command. -/
def Exhausted (session : Session) : Prop :=
  session.step.2.outcome = .outOfProgram ∧ session.step.2.result.issued = none

/-! ## The next step -/

variable {session : Session}

/-- What the next `step` of a `Faithful` attempt comes to: a command, after which the program is not
at its end; a failure without a command; or the end of the program, without a command. Only a
command counts. -/
theorem Faithful.step_cases {program : Program} {level : Level} {limits : Limits} {tracing : Bool}
    (faithful : session.Faithful (.load level.robot limits tracing program))
    (going : session.outcome = .running) :
    (session.step.2.result.issued.isSome = true ∧ session.step.1.outcome ≠ .outOfProgram) ∨
    (session.step.2.result.issued = none ∧ session.step.1.steps = session.steps ∧
      (session.step.1.outcome = .failed ∨ session.step.1.outcome = .outOfProgram)) := by
  have next := faithful.step
  have on : session.outcome.terminal = false := Outcome.terminal_eq_false_iff.mpr going
  have atomic := (faithful.going going).atomic (faithful.running going)
  have machine : session.step.1.machine = session.machine.step.1 := by rw [step_of_going on]
  have result : session.step.2.result = session.machine.step.2 := by
    rw [report_of_going on]
    rfl
  rw [result]
  cases given : session.machine.step.2.issued with
  | some command =>
    refine .inl ⟨rfl, fun ended => ?_⟩
    obtain ⟨none, running⟩ := next.outOfProgram.mp ended
    rw [machine] at none
    rw [Session.robot, machine] at running
    -- The step tells that the machine may go on, which takes a frame.
    have more := Machine.hasMore_of_issued (by rw [given]; rfl)
    rw [running, atomic.honest, Machine.hasMore, none] at more
    cases more
  | none =>
    have counted := atomic.counted
    rw [given] at counted
    refine .inr ⟨rfl, ?_, ?_⟩
    · rw [Session.steps, machine]
      exact counted
    · rcases atomic.reason given with ⟨ended, -⟩ | ⟨-, -, none, failure⟩ | ⟨fault, -, failure⟩
      · have running := faithful.running going
        rw [Session.robot, ended] at running
        cases running
      · obtain ⟨-, -, -, -, completed⟩ := atomic.unmoved given
        refine .inr (next.outOfProgram.mpr ⟨machine ▸ none, ?_⟩)
        rw [Session.robot, machine, Robot.done, completed, failure]
        exact faithful.running going
      · refine .inl (next.failed.mpr ?_)
        rw [Session.robot, machine, failure]
        rfl

/-- `stepped` by one step more. -/
theorem stepped_succ (session : Session) (n : Nat) :
    session.stepped (n + 1) = (session.stepped n).step.1 :=
  session.stepped_add n 1

/-- A `Faithful` attempt that is running either `GoesOn` or is `Exhausted`. -/
theorem Faithful.goesOn_iff {program : Program} {level : Level} {limits : Limits} {tracing : Bool}
    (faithful : session.Faithful (.load level.robot limits tracing program))
    (going : session.outcome = .running) : session.GoesOn ↔ ¬ session.Exhausted := by
  rw [GoesOn, Exhausted, outcome_report]
  rcases faithful.step_cases going with ⟨given, -⟩ | ⟨none, -, failed | ended⟩
  · simp [given, Option.isSome_iff_ne_none.mp given]
  · simp [failed]
  · simp [none, ended]

/-! ## Runs that stop at their limit -/

/-- **A `run` that starts afresh stops at its limit exactly if that many steps leave the attempt
running**, and stands where these steps lead to. -/
theorem run_eq_stepLimit_iff {n : Nat} (positive : 0 < n)
    (going : session.outcome.terminal = false) (unused : session.steps = 0) :
    ((session.run n false).2 = some (.stepLimit n) ↔
        (session.stepped n).outcome.terminal = false) ∧
      ((session.run n false).2 = some (.stepLimit n) →
        (session.run n false).1 = session.stepped n) := by
  obtain ⟨k, le, -, -, ⟨-, ended, result⟩ | ⟨rfl, on, result⟩⟩ :=
    run_cases positive going unused
  · rw [result, stepped_eq_of_terminal ended le, ended]
    simp
  · rw [result, on]
    simp

/-- Only one step of an attempt ends it. -/
theorem eq_of_last_step {last n : Nat}
    (finished : (session.stepped (last + 1)).outcome.terminal = true)
    (before : ∀ j < last + 1, (session.stepped j).outcome.terminal = false)
    (going : (session.stepped n).outcome.terminal = false)
    (ended : (session.stepped (n + 1)).outcome.terminal = true) : n = last := by
  have late : last + 1 ≤ n + 1 := by
    by_contra early
    rw [before (n + 1) (Nat.lt_of_not_le early)] at ended
    cases ended
  have early : n < last + 1 := by
    by_contra past
    rw [stepped_eq_of_terminal finished (Nat.le_of_not_lt past), finished] at going
    cases going
  omega

/-- **The one place at which an attempt is `Exhausted`.** After some steps the attempt still runs,
with the program at its end, exactly if the whole attempt runs out of program after as many
commands. -/
theorem exhausted_stepped_iff (program : Program) (level : Level) (limits : Limits) (tracing : Bool)
    (n : Nat) :
    ((ofProgram program level limits tracing).stepped n).outcome = .running ∧
        ((ofProgram program level limits tracing).stepped n).Exhausted ↔
      ((ofProgram program level limits tracing).play none).session.outcome = .outOfProgram ∧
        ((ofProgram program level limits tracing).play none).session.steps = n := by
  obtain ⟨k, positive, -, played, -, finished, before⟩ := play_none program level limits tracing
  obtain ⟨last, rfl⟩ := Nat.exists_eq_succ_of_ne_zero (Nat.ne_of_gt positive)
  have faithful := (Faithful.ofProgram program level limits tracing).stepped
  generalize fresh_eq : ofProgram program level limits tracing = fresh at *
  have unused : fresh.steps = 0 := by
    rw [← fresh_eq]
    rfl
  have counted : ∀ {j : Nat}, (fresh.stepped j).outcome = .running →
      (fresh.stepped j).steps = j := by
    intro j on
    rw [steps_stepped (Outcome.terminal_eq_false_iff.mpr on), unused, Nat.zero_add]
  rw [played, stepped_succ, Exhausted, outcome_report]
  constructor
  · rintro ⟨going, ended, none⟩
    have terminal : (fresh.stepped (n + 1)).outcome.terminal = true := by
      rw [stepped_succ, ended]
      rfl
    -- The step that finds the end is the last one of the attempt.
    obtain rfl : n = last :=
      eq_of_last_step finished before (Outcome.terminal_eq_false_iff.mpr going) terminal
    rcases (faithful n).step_cases going with ⟨given, -⟩ | ⟨-, same, -⟩
    · rw [none] at given
      cases given
    · exact ⟨ended, same.trans (counted going)⟩
  · rintro ⟨ended, steps⟩
    have running : (fresh.stepped last).outcome = .running :=
      Outcome.terminal_eq_false_iff.mp (before last (Nat.lt_succ_self last))
    rcases (faithful last).step_cases running with ⟨-, other⟩ | ⟨none, same, -⟩
    · exact absurd ended other
    · obtain rfl : last = n := (counted running).symm.trans (same.symm.trans steps)
      exact ⟨running, ended, none⟩

/-- **A reported limit tells of a program that goes on, except where the whole attempt runs out of
program after exactly as many commands.** In that case the limit is always reported, and one more
step would find the program at its end without a command. -/
theorem stepLimit_goesOn_iff {source : List UInt8} {level : Level} {limits : Limits}
    {tracing : Bool} {fresh : Session}
    (started : start source (some level) limits tracing = .ok fresh) {n : Nat} (positive : 0 < n) :
    let ran := fresh.run n false
    let whole := (fresh.play none).session
    (ran.2 = some (.stepLimit n) →
      (ran.1.GoesOn ↔ ¬ (whole.outcome = .outOfProgram ∧ whole.steps = n))) ∧
    (whole.outcome = .outOfProgram ∧ whole.steps = n →
      ran.2 = some (.stepLimit n) ∧ ran.1.Exhausted) := by
  obtain ⟨program, -, rfl⟩ := exists_program_of_start started
  obtain ⟨limited, there⟩ :=
    @run_eq_stepLimit_iff (ofProgram program level limits tracing) n positive rfl rfl
  have exhausted := exhausted_stepped_iff program level limits tracing n
  constructor
  · intro reached
    have going := Outcome.terminal_eq_false_iff.mp (limited.mp reached)
    have faithful := (Faithful.ofProgram program level limits tracing).stepped n
    rw [there reached, faithful.goesOn_iff going, ← exhausted]
    simp [going]
  · intro whole
    obtain ⟨going, ended⟩ := exhausted.mpr whole
    have reached := limited.mpr (Outcome.terminal_eq_false_iff.mpr going)
    exact ⟨reached, (there reached).symm ▸ ended⟩

/-- A source that walks one step. -/
def oneStepSource : List UInt8 := Text.utf8 "(forward)"

/-- The program of that source. -/
def oneStepProgram : Program := ⟨[.command .forward 1], 1⟩

/-- `oneStepSource` is read as `oneStepProgram`, so the session starts with that. -/
theorem start_oneStepSource :
    start oneStepSource (some corridor) {} false =
      .ok (ofProgram oneStepProgram corridor {} false) := by
  have parsed : Program.parse oneStepSource = .ok oneStepProgram :=
    eq_ok_of_toOption (by decide +kernel)
  rw [start, parsed]

/-- One step into the corridor is not all the way, so the attempt runs out of program after it. A
run with the limit one reports the limit all the same. -/
theorem stepLimit_goesOn_iff_oneStep :
    let fresh := ofProgram oneStepProgram corridor {} false
    start oneStepSource (some corridor) {} false = .ok fresh ∧
      (fresh.run 1 false).2 = some (.stepLimit 1) ∧ (fresh.run 1 false).1.Exhausted ∧
      ¬ (fresh.run 1 false).1.GoesOn := by
  intro fresh
  obtain ⟨goesOn, exhausted⟩ := stepLimit_goesOn_iff start_oneStepSource Nat.one_pos
  have whole : (fresh.play none).session.outcome = .outOfProgram ∧
      (fresh.play none).session.steps = 1 := by
    decide +kernel
  obtain ⟨reached, ended⟩ := exhausted whole
  exact ⟨start_oneStepSource, reached, ended, fun on => (goesOn reached).mp on whole⟩

/-- **A reported limit does not always tell of a program that goes on.** -/
theorem stepLimit_of_exhausted :
    ¬ ∀ (source : List UInt8) (level : Level) (limits : Limits) (tracing : Bool) (fresh : Session)
      (n : Nat), start source (some level) limits tracing = .ok fresh → 0 < n →
        (fresh.run n false).2 = some (.stepLimit n) → (fresh.run n false).1.GoesOn := by
  intro always
  obtain ⟨limited, there⟩ :=
    @run_eq_stepLimit_iff (ofProgram oneStepProgram corridor {} false) 1 Nat.one_pos rfl rfl
  have reached := limited.mpr (by decide +kernel)
  have on := always _ _ _ _ _ 1 start_oneStepSource Nat.one_pos reached
  rw [there reached] at on
  exact absurd on (by decide +kernel)

end Session

end MazeRobot
