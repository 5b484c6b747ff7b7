import MazeRobot.Proofs.Sessions

/-! # Steps are atomic

A step goes through as many visits as it takes, and asks the robot as many questions, but it gives
the robot one command at most. It tells truly what it did: whether there was a command, why there
was none, and whether the machine may go on. The last of these is told by the robot, while a machine
goes by its frames; the two agree because a command always leaves a frame of the program behind.

* `Robot.Recalls`: robots that differ at most in what their sensors remember.
* `Machine.Drives`: visits in a row, with the commands that the robot gets in them.
* `Machine.Drives.ahead_advance`: running up to the next command as such visits.
* `Machine.Atomic`: what a step does and tells.
* `Machine.step_atomic`: every step of a run is atomic. -/

namespace MazeRobot

/-! ## Robots that were only asked -/

/-- Whether a robot is another one except for what its sensors remember. -/
def Robot.Recalls (robot robot' : Robot) : Prop := robot' = { robot with sensors := robot'.sensors }

namespace Robot.Recalls

variable {first second third : Robot}

/-- `Recalls` is reflexive. -/
theorem refl (robot : Robot) : robot.Recalls robot := rfl

/-- `Recalls` is transitive. -/
theorem trans (recalls : first.Recalls second) (again : second.Recalls third) :
    first.Recalls third := by
  unfold Recalls at recalls again ⊢
  rw [again, recalls]

/-- A `test` is at most remembered by the robot: it `Recalls` the rest. -/
theorem test (store : Store) (condition : Condition) :
    store.robot.Recalls (store.test condition).1.robot := by
  obtain ⟨query, negated, direction, line⟩ := condition
  cases query <;> rfl

/-- What the sensors remember does not show in where a robot stands and has been, so `Recalls` keeps
it. -/
theorem stands (recalls : first.Recalls second) :
    second.position = first.position ∧ second.heading = first.heading ∧
      second.path = first.path ∧ second.visited = first.visited ∧
      second.completed = first.completed ∧ second.failure? = first.failure? := by
  unfold Recalls at recalls
  rw [recalls]
  exact ⟨rfl, rfl, rfl, rfl, rfl, rfl⟩

end Robot.Recalls

namespace Machine

/-- The `instruction` of a result is that of the command `issued`, and no command is without
words. -/
theorem StepResult.instruction_ne_empty_iff (result : StepResult) :
    result.instruction ≠ "" ↔ result.issued.isSome = true := by
  obtain ⟨hasMore, _ | ⟨kind, line⟩⟩ := result
  · simp [instruction]
  · cases kind <;> simp [instruction, Command.instruction]

/-! ## Visits with commands -/

/-- The machines to which visits lead, with the commands that the robot gets in these visits. -/
inductive Drives (m : Machine) : List (Command × Int) → Machine → Prop
  /-- There is no visit. -/
  | stay : Drives m [] m
  /-- A visit goes on. -/
  | moved {last next : Machine} {given : List (Command × Int)} (driven : Drives m given last)
      (visit : last.visit? = some (.moved next)) : Drives m given next
  /-- A visit brings up a command, which the robot gets. -/
  | command {last next : Machine} {given : List (Command × Int)} {kind : Command} {line : Int}
      (driven : Drives m given last) (visit : last.visit? = some (.command kind line next)) :
      Drives m (given ++ [(kind, line)]) (next.obey kind)

/-- A visit that `Moves` on asks the robot at most. -/
theorem Moves.recalls {limits : Limits} {store store' : Store} {depth depth' : Nat} {top : Frame}
    {pushed : List Frame} (rule : Moves limits store depth top pushed store' depth') :
    store.robot.Recalls store'.robot := by
  cases rule with
  | branchTaken body line holds => exact .test store _
  | branchSkipped body line fails => exact .test store _
  | _ => exact .refl _

/-- A visit that is `moved` gives no command, and asks the robot at most. -/
theorem visit?_moved_keeps {m m' : Machine} (visit : m.visit? = some (.moved m')) :
    m.robot.Recalls m'.robot ∧ m'.steps = m.steps := by
  obtain ⟨top, below, frames, pushed, store, depth, rule, there⟩ := visit?_cases visit
  exact ⟨there.robot_eq ▸ rule.recalls, steps_visit? visit⟩

/-- A visit that brings up a `command` leaves everything but the frames as it is. -/
theorem visit?_command_keeps {m m' : Machine} {kind : Command} {line : Int}
    (visit : m.visit? = some (.command kind line m')) :
    ∃ below, m' = { m with frames := below } := by
  obtain ⟨top, below, -, -, rfl⟩ := visit?_cases visit
  exact ⟨below, rfl⟩

/-- A visit that has `failed` leaves everything but the frames as it is. -/
theorem visit?_failed_keeps {m m' : Machine} {fault : Fault}
    (visit : m.visit? = some (.failed fault m')) : ∃ below, m' = { m with frames := below } := by
  obtain ⟨top, below, -, stmt, -, -, rfl⟩ := visit?_cases visit
  exact ⟨below, rfl⟩

/-- `fail` does not depend on the stack. -/
theorem fail_withFrames (m : Machine) (below : List Frame) (fault : Fault) :
    ({ m with frames := below } : Machine).fail fault = m.fail fault := by
  simp only [fail, note_eq]

namespace Drives

variable {m last : Machine} {given : List (Command × Int)}

/-- `Drives` counts the commands that the robot is given. -/
theorem steps_eq (driven : Drives m given last) : last.steps = m.steps + given.length := by
  induction driven with
  | stay => rfl
  | moved _ visit ih => rw [(visit?_moved_keeps visit).2, ih]
  | command _ visit ih =>
    obtain ⟨below, rfl⟩ := visit?_command_keeps visit
    rw [List.length_append, ← Nat.add_assoc, ← ih]
    rfl

/-- `Drives` without commands asks the robot at most. -/
theorem recalls (driven : Drives m given last) (none : given = []) :
    m.robot.Recalls last.robot := by
  induction driven with
  | stay => exact .refl _
  | moved _ visit ih => exact (ih none).trans (visit?_moved_keeps visit).1
  | command _ _ _ => simp at none

end Drives

/-- What running up to the next command leads to: visits without a command, and then the end of the
program, a visit with a command or a fault. -/
def Ahead (m : Machine) : Advance → Prop
  | .ended last => Drives m [] last ∧ last.frames = []
  | .command kind line next => Drives m [(kind, line)] (next.obey kind)
  | .failed fault next => ∃ last, Drives m [] last ∧ next.fail fault = last.fail fault

/-- `advance` makes visits without a command until something comes up: what it gives is `Ahead`. -/
theorem Drives.ahead_advance {m middle : Machine} (driven : Drives m [] middle) (left : Nat) :
    Ahead m (middle.advance left) := by
  induction middle, left using advance_induction with
  | ended middle left none advanced =>
    rw [advanced]
    exact ⟨driven, none⟩
  | spent middle v visit advanced =>
    rw [advanced]
    exact ⟨middle, driven, rfl⟩
  | moved middle left next visit advanced ih =>
    rw [advanced]
    exact ih (.moved driven visit)
  | command middle left kind line next visit advanced =>
    rw [advanced]
    exact .command driven visit
  | failed middle left fault next visit advanced =>
    rw [advanced]
    -- The frame of the statement at fault is gone, but a failed machine has no frames anyway.
    obtain ⟨below, rfl⟩ := visit?_failed_keeps visit
    exact ⟨middle, driven, fail_withFrames middle below fault⟩

/-! ## What a step does and tells -/

/-- A step that leads from a machine to another one and tells a result: what it does is one command
or none, and what it tells is so. -/
structure Atomic (m after : Machine) (result : StepResult) : Prop where
  /-- The robot gets the command that is told, and no other one. A fault comes after all visits. -/
  given : ∃ last, m.Drives result.issued.toList last ∧
    (m.fault? = none ∧ after = last ∨ ∃ fault, m.fault? = some fault ∧ after = last.fail fault)
  /-- The words that are told are empty exactly if there is no command. -/
  told : result.instruction ≠ "" ↔ result.issued.isSome = true
  /-- The count of commands grows by one exactly if there is a command. -/
  counted : after.steps = if result.issued.isSome then m.steps + 1 else m.steps
  /-- Without a command the robot stands where it stood, and has been where it had been. -/
  unmoved : result.issued = none →
    after.robot.position = m.robot.position ∧ after.robot.heading = m.robot.heading ∧
      after.robot.path = m.robot.path ∧ after.robot.visited = m.robot.visited ∧
      after.robot.completed = m.robot.completed
  /-- There is no command if the run of the robot was over, so that nothing changes; if the program
  has come to its end, so that nothing more goes wrong; or if there is a fault, which is told. -/
  reason : result.issued = none →
    (m.robot.done = true ∧ after = m) ∨
    (m.robot.done = false ∧ m.fault? = none ∧ after.frames = [] ∧
      after.robot.failure? = m.robot.failure?) ∨
    ∃ fault, m.fault? = some fault ∧ after.robot.failure? = some fault.detail
  /-- The machine may go on exactly if that is told. -/
  honest : result.hasMore = after.hasMore
  /-- Once it may not go on, no step changes anything, and each tells that it did nothing. -/
  final : result.hasMore = false → ∀ n, after.stepped n = after ∧ (after.stepped n).step.2 = .nothing

/-- A machine without `hasMore` stays as it is, however many steps it takes. -/
theorem final_of_hasMore_eq_false {m : Machine} (no : m.hasMore = false) (n : Nat) :
    m.stepped n = m ∧ (m.stepped n).step.2 = .nothing := by
  have same := stepped_of_hasMore_eq_false no n
  exact ⟨same, by rw [same, (step_of_hasMore_eq_false no).1]⟩

/-- A `step` of a machine without `hasMore` is `Atomic`. -/
theorem atomic_of_hasMore_eq_false {m : Machine} (no : m.hasMore = false) :
    Atomic m m.step.1 m.step.2 := by
  obtain ⟨nothing, fine⟩ := step_of_hasMore_eq_false no
  rw [nothing]
  refine ⟨⟨m, .stay, .inl ⟨fine, rfl⟩⟩, StepResult.instruction_ne_empty_iff _, rfl,
    fun _ => ⟨rfl, rfl, rfl, rfl, rfl⟩, ?_, no.symm, fun _ => final_of_hasMore_eq_false no⟩
  intro _
  cases ended : m.robot.done with
  | true => exact .inl ⟨rfl, rfl⟩
  | false =>
    have none : m.frames = [] := by simpa [hasMore, ended] using no
    exact .inr (.inl ⟨rfl, fine, none, rfl⟩)

section Running

variable {m : Machine} (running : m.robot.done = false)

include running

/-- A `step` that finds the program `ended` is `Atomic`. -/
theorem atomic_of_ended {last : Machine} (advanced : m.advance m.limits.stepBudget = .ended last) :
    Atomic m m.step.1 m.step.2 := by
  have ahead : Ahead m (.ended last) := advanced ▸ Drives.stay.ahead_advance _
  obtain ⟨driven, none⟩ := ahead
  have fine : m.fault? = Option.none := by
    rw [fault?, running, advanced]
    rfl
  have no : last.hasMore = false := by simp [hasMore, none]
  obtain ⟨position, heading, path, visited, completed, failure⟩ := (driven.recalls rfl).stands
  rw [step_eq_conclude running, advanced, conclude]
  exact ⟨⟨last, driven, .inl ⟨fine, rfl⟩⟩, StepResult.instruction_ne_empty_iff _, driven.steps_eq,
    fun _ => ⟨position, heading, path, visited, completed⟩,
    fun _ => .inr (.inl ⟨running, fine, none, failure⟩), no.symm,
    fun _ => final_of_hasMore_eq_false no⟩

/-- A `step` that has `failed` is `Atomic`. -/
theorem atomic_of_failed {fault : Fault} {next : Machine}
    (advanced : m.advance m.limits.stepBudget = .failed fault next) :
    Atomic m m.step.1 m.step.2 := by
  have ahead : Ahead m (.failed fault next) := advanced ▸ Drives.stay.ahead_advance _
  obtain ⟨last, driven, same⟩ := ahead
  have failed : m.fault? = some fault := fault?_eq_some_iff.mpr ⟨running, next, advanced⟩
  have recalls := driven.recalls rfl
  obtain ⟨position, heading, path, visited, completed, failure⟩ := recalls.stands
  -- The run of the robot was not over, so the fault is what went wrong.
  have on : last.robot.done = false := by
    rw [Robot.done, completed, failure]
    exact running
  have told : (last.fail fault).robot =
      { last.robot with failure? := some fault.detail } := by
    simp [fail, Robot.fail, on, fault.isEmpty_detail]
  have no : (last.fail fault).hasMore = false := by simp [hasMore]
  have steps : (last.fail fault).steps = m.steps := (steps_note _ _).trans driven.steps_eq
  rw [step_eq_conclude running, advanced, conclude, same]
  refine ⟨⟨last, driven, .inr ⟨fault, failed, rfl⟩⟩, StepResult.instruction_ne_empty_iff _, steps,
    ?_, ?_, no.symm, fun _ => final_of_hasMore_eq_false no⟩
  · intro _
    rw [told]
    exact ⟨position, heading, path, visited, completed⟩
  · intro _
    exact .inr (.inr ⟨fault, failed, by rw [told]⟩)

end Running

/-- A `step` that gives a `command` is `Atomic`. In a run there is a frame left after it, so that
the machine may go on unless the run of the robot is over. -/
theorem Reaches.atomic_of_command {robot : Robot} {limits : Limits} {tracing : Bool}
    {program : Program} {m next : Machine} {kind : Command} {line : Int}
    (reached : (load robot limits tracing program).Reaches m) (running : m.robot.done = false)
    (advanced : m.advance m.limits.stepBudget = .command kind line next) :
    Atomic m m.step.1 m.step.2 := by
  have driven : Ahead m (.command kind line next) := advanced ▸ Drives.stay.ahead_advance _
  have continues := reached.continues_advance running m.limits.stepBudget
  rw [advanced] at continues
  obtain ⟨last, there, -, visit⟩ := continues
  have some := there.frames_ne_nil_of_command visit
  have fine : m.fault? = none := by
    rw [fault?, running, advanced]
    rfl
  have honest : (!(next.obey kind).robot.done) = (next.obey kind).hasMore := by
    have left : (next.obey kind).frames ≠ [] := some
    simp [hasMore, left]
  rw [step_eq_conclude running, advanced, conclude]
  refine ⟨⟨_, driven, .inl ⟨fine, rfl⟩⟩, StepResult.instruction_ne_empty_iff _, driven.steps_eq,
    ?_, ?_, honest, ?_⟩
  · intro none
    cases none
  · intro none
    cases none
  · intro no
    exact final_of_hasMore_eq_false (honest.symm.trans no)

/-- **Steps are atomic and tell truly what they did.** For every program, robot and limits, and
after any number of steps: the next step gives the robot the command that it tells and no other one,
and counts it. If it tells none, the robot stands where it stood, and either its run was over, or
the program has come to its end, or there is a fault and the text of this fault is what went wrong.
It tells whether the machine may go on, and once it may not, further steps change nothing. -/
theorem step_atomic (program : Program) (robot : Robot) (limits : Limits) (tracing : Bool)
    (n : Nat) :
    let m := (load robot limits tracing program).stepped n
    Atomic m m.step.1 m.step.2 := by
  intro m
  have first : (load robot limits tracing program).Reaches (load robot limits tracing program) :=
    .start
  rcases first.stepped n with reached | no
  · cases running : m.robot.done with
    | true => exact atomic_of_hasMore_eq_false (by simp [hasMore, running])
    | false =>
      cases advanced : m.advance m.limits.stepBudget with
      | ended last => exact atomic_of_ended running advanced
      | failed fault next => exact atomic_of_failed running advanced
      | command kind line next => exact reached.atomic_of_command running advanced
  · exact atomic_of_hasMore_eq_false no

end Machine

end MazeRobot
