import MazeRobot.Proofs.Descent
import MazeRobot.Proofs.Passes
import MazeRobot.Proofs.WellFormed

/-! # The greedy program

A short program that solves every maze: as often as there are steps to a goal, it turns to the right
until it faces a nearer position, and goes there. The turning is a function that calls itself, so
the limits of the machine matter; neither of them is ever reached.

* `greedySource`, `greedyProgram`: the source and what is read from it.
* `Machine.At.passes_faceGoal`: one call turns the robot to a nearer position.
* `Machine.halts_rounds`: the rounds of the loop lead to a goal.
* `Machine.greedy_solves`: the program solves every maze that can be solved. -/

namespace MazeRobot

/-- The source of the greedy program. -/
def greedySource : List UInt8 := Text.utf8
  ("(function face-goal () (if (not (closer front)) (turn-right) (face-goal))) " ++
    "(repeat (distance-to-end) (face-goal) (forward))")

/-- A call of the function that faces a nearer position. -/
def callFaceGoal : Stmt := .call "face-goal" [] true 1

/-- The function that turns to the right until the robot faces a nearer position. -/
def faceGoal : FunctionDef :=
  ⟨"face-goal", [],
    [.branch (some ⟨.closer, true, .front, 1⟩) [.command .turnRight 1, callFaceGoal] 1], 1⟩

/-- What the greedy program does for each step of the distance. -/
def greedyRound : List Stmt := [callFaceGoal, .command .forward 1]

/-- The greedy program. -/
def greedyProgram : Program :=
  ⟨[.define faceGoal.name faceGoal.parameters faceGoal.body faceGoal.line,
    .loop (.distance 1) greedyRound 1], 1⟩

/-- `Program.parse` reads `greedySource` as `greedyProgram`. -/
theorem parse_greedySource : Program.parse greedySource = .ok greedyProgram :=
  eq_ok_of_toOption (by decide +kernel)

namespace Machine

/-! ## Facing a nearer position -/

section FaceGoal

variable {m : Machine} {below : List Frame} {robot : Robot} {functions : List FunctionDef}
  {scopes : Scopes} {depth : Nat} {limits : Limits}

/-- `callFaceGoal` leads into the body of the function, in a scope of its own. -/
theorem At.passes_callFaceGoal (known : functions.find? (·.name = "face-goal") = some faceGoal)
    (shallow : depth < limits.maxCallDepth)
    (here : m.At (.stmt callFaceGoal :: below) ⟨robot, functions, scopes⟩ depth limits) :
    Passes m [none] (.body faceGoal.body "face-goal" scopes.depth :: below)
      ⟨robot, functions, scopes.push (.ofArguments [] [])⟩ (depth + 1) limits := by
  have resolved :
      Store.resolve ⟨robot, functions, scopes⟩ "face-goal" [] 1 = .ok (faceGoal, []) := by
    rw [Store.resolve, known]
    rfl
  exact here.passes_call resolved shallow

/-- The end of the body of `faceGoal` leads back to the scope of the call. -/
theorem At.passes_faceGoal_nil {scope : Scope}
    (here : m.At (.body [] "face-goal" scopes.depth :: below)
      ⟨robot, functions, scopes.push scope⟩ (depth + 1) limits) :
    Passes m [none] below ⟨robot, functions, scopes⟩ depth limits :=
  here.passes_body_nil (scopes.depth_push scope)

/-- The condition of `faceGoal`: its body goes on unless `isCloser` holds straight ahead. -/
theorem At.passes_unless_closer {body : List Stmt} {line : Int}
    (here : m.At (.stmt (.branch (some ⟨.closer, true, .front, 1⟩) body line) :: below)
      ⟨robot, functions, scopes⟩ depth limits) :
    Passes m [none] (if robot.isCloser 0 then below else .block body :: below)
      ⟨robot, functions, scopes⟩ depth limits := by
  have passes := here.passes_branch
  have tested : Store.test ⟨robot, functions, scopes⟩ ⟨.closer, true, .front, 1⟩ =
      (⟨robot, functions, scopes⟩, !robot.isCloser 0) := rfl
  rw [tested] at passes
  cases closer : robot.isCloser 0 with
  | true => simpa [closer] using passes
  | false => simpa [closer] using passes

/-- The visits of a call that turns the robot a number of times. -/
def faceTrace : Nat → Trace
  | 0 => [none, none, none, none]
  | turns + 1 =>
    [none, none, none, none] ++
      ([some (.turnRight, 1)] ++ ([none] ++ (faceTrace turns ++ [none, none])))

/-- The commands of a `faceTrace` are its turns. -/
theorem reduceOption_faceTrace (turns : Nat) :
    (faceTrace turns).reduceOption = List.replicate turns (.turnRight, 1) := by
  induction turns with
  | zero => rfl
  | succ turns ih =>
    simp only [faceTrace, List.reduceOption_append, ih, List.replicate_succ]
    exact congrArg (List.cons _) (List.append_nil _)

/-- One `callFaceGoal` turns the robot until it `Faces` a nearer position, and comes back. -/
theorem At.passes_faceGoal {g : Grid} {origin : Position} {total left turns : Nat} {last : Robot}
    (known : functions.find? (·.name = "face-goal") = some faceGoal)
    (approaches : robot.Approaches g origin total (left + 1)) (faces : robot.Faces turns last)
    (shallow : depth + turns < limits.maxCallDepth)
    (here : m.At (.stmt callFaceGoal :: below) ⟨robot, functions, scopes⟩ depth limits) :
    Passes m (faceTrace turns) below ⟨last, functions, scopes⟩ depth limits := by
  induction faces generalizing m below scopes depth with
  | here closer =>
    refine (here.passes_callFaceGoal known (by omega)).trans fun inside => ?_
    refine (inside.passes_cons (.body _ _)).trans fun statement => ?_
    refine Passes.trans statement.passes_unless_closer fun after => ?_
    rw [if_pos closer] at after
    exact after.passes_faceGoal_nil
  | @turn robot last turns away rest ih =>
    have turned := approaches.perform_turnRight
    have running : (robot.perform .turnRight).1.done = false := by
      rw [turned]
      exact approaches.turnRight.running
    refine (here.passes_callFaceGoal known (by omega)).trans fun inside => ?_
    refine (inside.passes_cons (.body _ _)).trans fun statement => ?_
    refine Passes.trans statement.passes_unless_closer fun asked => ?_
    rw [away, if_neg Bool.false_ne_true] at asked
    refine (asked.passes_cons .block).trans fun command => ?_
    refine (At.passes_command command running).trans fun after => ?_
    rw [turned] at after
    refine (after.passes_cons .block).trans fun again => ?_
    -- The inner call starts one level deeper and has one turn less to make.
    refine (ih approaches.turnRight (by omega) again).trans fun back => ?_
    refine (back.passes_block_nil).trans fun done => ?_
    exact done.passes_faceGoal_nil

end FaceGoal

/-! ## The budget of a round -/

/-- A `faceTrace` uses four visits before its first turn, and at most five and two for each turn
from its last turn on. -/
theorem fits_faceTrace {budget left rest turns : Nat} {trace : Trace}
    (on : trace.fits budget rest = true)
    (enough : rest + 2 * turns + 4 ≤ left) (whole : rest + 2 * turns + 5 ≤ budget) :
    (faceTrace turns ++ trace).fits budget left = true := by
  induction turns generalizing left rest trace with
  | zero =>
    obtain ⟨left, rfl⟩ : ∃ n, left = n + 4 := ⟨left - 4, by omega⟩
    exact Trace.fits_mono on (by omega)
  | succ turns ih =>
    have after : ([none, none] ++ trace : Trace).fits budget (rest + 2) = true := on
    -- The turn makes the whole budget available, so only the visits after it count for the rest.
    obtain ⟨left, rfl⟩ : ∃ n, left = n + 5 := ⟨left - 5, by omega⟩
    obtain ⟨budget, rfl⟩ : ∃ n, budget = n + 1 := ⟨budget - 1, by omega⟩
    have inner : (faceTrace turns ++ ([none, none] ++ trace)).fits (budget + 1) budget = true :=
      ih after (by omega) (by omega)
    simp only [faceTrace, List.append_assoc, List.cons_append, List.nil_append] at inner ⊢
    exact inner

/-- The visits of a round that turns the robot a number of times. -/
def roundTrace (turns : Nat) : Trace := [none] ++ (faceTrace turns ++ [none, some (.forward, 1)])

/-- A `roundTrace` leaves the whole budget to what follows it. -/
theorem fits_roundTrace {budget left turns : Nat} {trace : Trace} (few : turns ≤ 3)
    (on : trace.fits budget budget = true) (enough : 13 ≤ left) (whole : 13 ≤ budget) :
    (roundTrace turns ++ trace).fits budget left = true := by
  have after : ([none, some (.forward, 1)] ++ trace : Trace).fits budget 2 = true := on
  obtain ⟨left, rfl⟩ : ∃ n, left = n + 1 := ⟨left - 1, by omega⟩
  have inner :
      (faceTrace turns ++ ([none, some (Command.forward, 1)] ++ trace)).fits budget left = true :=
    fits_faceTrace after (by omega) (by omega)
  simp only [roundTrace, List.append_assoc, List.cons_append, List.nil_append] at inner ⊢
  exact inner

/-- A trace of a number of rounds: one step forward and at most three turns for each, and never many
visits from one command to the next. -/
structure Rounds (budget n : Nat) (trace : Trace) : Prop where
  /-- There is one step forward for each round. -/
  forwards : trace.reduceOption.countP (·.1 = .forward) = n
  /-- There are at most three turns for each round. -/
  turns : trace.reduceOption.countP (·.1 ≠ .forward) ≤ 3 * n
  /-- The budget allows the visits. -/
  fits : ∀ left, 13 ≤ left → trace.fits budget left = true

/-- The commands of a `roundTrace` are its turns and a step forward. -/
theorem reduceOption_roundTrace (turns : Nat) :
    (roundTrace turns).reduceOption = List.replicate turns (.turnRight, 1) ++ [(.forward, 1)] := by
  rw [roundTrace, List.reduceOption_append, List.reduceOption_append, reduceOption_faceTrace]
  rfl

/-- `Rounds` holds of one `roundTrace`. -/
theorem Rounds.one {budget turns : Nat} (few : turns ≤ 3) (whole : 15 ≤ budget) :
    Rounds budget 1 (roundTrace turns) where
  forwards := by
    simp [reduceOption_roundTrace, List.countP_replicate]
  turns := by
    simp [reduceOption_roundTrace, List.countP_replicate]
    omega
  fits := fun left enough => by
    have fits : (roundTrace turns ++ []).fits budget left = true :=
      fits_roundTrace few rfl enough (by omega)
    rwa [List.append_nil] at fits

/-- `Rounds` holds with one `roundTrace` more in front. -/
theorem Rounds.cons {budget n turns : Nat} {trace : Trace} (rounds : Rounds budget n trace)
    (few : turns ≤ 3) (whole : 15 ≤ budget) :
    Rounds budget (n + 1) (roundTrace turns ++ ([none, none] ++ trace)) where
  forwards := by
    rw [List.reduceOption_append, List.countP_append, (Rounds.one few whole).forwards, Nat.add_comm]
    exact congrArg (· + 1) rounds.forwards
  turns := by
    have first := (Rounds.one few whole).turns
    have others := rounds.turns
    rw [List.reduceOption_append, List.countP_append]
    have same : ([none, none] ++ trace).reduceOption = trace.reduceOption := rfl
    rw [same]
    omega
  fits := fun left enough => by
    refine fits_roundTrace few ?_ enough (by omega)
    obtain ⟨budget, rfl⟩ : ∃ n, budget = n + 2 := ⟨budget - 2, by omega⟩
    exact rounds.fits budget (by omega)

/-! ## The rounds of the loop -/

section Solving

variable {g : Grid} {origin : Position} {total : Nat} {functions : List FunctionDef}
  {scopes : Scopes} {limits : Limits}

/-- A `greedyRound` turns the robot to a nearer position and is then at its step forward. -/
theorem At.passes_greedyRound {m : Machine} {below : List Frame} {robot last : Robot}
    {left turns : Nat} (known : functions.find? (·.name = "face-goal") = some faceGoal)
    (deep : turns < limits.maxCallDepth) (approaches : robot.Approaches g origin total (left + 1))
    (faces : robot.Faces turns last)
    (here : m.At (.block greedyRound :: below) ⟨robot, functions, scopes⟩ 0 limits) :
    Passes m ([none] ++ (faceTrace turns ++ [none]))
      (.stmt (.command .forward 1) :: .block [] :: below) ⟨last, functions, scopes⟩ 0 limits := by
  refine (here.passes_cons .block).trans fun call => ?_
  refine (At.passes_faceGoal known approaches faces (by omega) call).trans fun after => ?_
  exact after.passes_cons .block

/-- As many `Rounds` as there are steps to a goal lead the robot there. -/
theorem halts_rounds (known : functions.find? (·.name = "face-goal") = some faceGoal)
    (deep : 4 ≤ limits.maxCallDepth) {budget : Nat} (whole : 15 ≤ budget) (n : Nat) {m : Machine}
    {below : List Frame} {robot : Robot} (approaches : robot.Approaches g origin total (n + 1))
    (here : m.At (.block greedyRound :: .loop n greedyRound 1 :: below) ⟨robot, functions, scopes⟩ 0
      limits) :
    ∃ trace last, Halts m trace last ∧ Rounds budget (n + 1) trace ∧
      last.robot.Approaches g origin total 0 := by
  induction n generalizing m robot with
  | zero =>
    obtain ⟨turns, turned, few, faces⟩ := approaches.exists_faces
    obtain ⟨ahead, closer⟩ := Robot.Approaches.of_faces faces approaches
    obtain ⟨middle, goes, there⟩ := here.passes_greedyRound known (by omega) approaches faces
    have final := ahead.perform_forward closer
    -- The step reaches a goal, so the machine halts within the round.
    have ended : (turned.perform .forward).1.done = true := by
      rw [Robot.done, final.completed]
      rfl
    obtain ⟨last, halted, same⟩ := At.halts_command there ended
    have halts := goes.halts halted
    simp only [List.append_assoc, List.cons_append, List.nil_append] at halts
    exact ⟨roundTrace turns, last, halts, .one few whole, same ▸ final⟩
  | succ n ih =>
    obtain ⟨turns, turned, few, faces⟩ := approaches.exists_faces
    obtain ⟨ahead, closer⟩ := Robot.Approaches.of_faces faces approaches
    have forward := ahead.perform_forward closer
    -- Two more visits take off the empty block and start the next round.
    have round : Passes m (roundTrace turns ++ [none, none])
        (.block greedyRound :: .loop n greedyRound 1 :: below)
        ⟨(turned.perform .forward).1, functions, scopes⟩ 0 limits := by
      have passes := (here.passes_greedyRound known (by omega) approaches faces).trans
        fun command => (At.passes_command command forward.running).trans
          fun after => after.passes_block_nil.trans fun loop => loop.passes_rounds_succ
      simp only [List.append_assoc, List.cons_append, List.nil_append] at passes
      simp only [roundTrace, List.append_assoc, List.cons_append, List.nil_append]
      exact passes
    obtain ⟨middle, goes, there⟩ := round
    obtain ⟨trace, last, halts, rounds, final⟩ := ih forward there
    refine ⟨roundTrace turns ++ ([none, none] ++ trace), last, ?_, rounds.cons few whole, final⟩
    rw [← List.append_assoc]
    exact goes.halts halts

variable (limits) in
/-- `greedyProgram` leads a robot to a goal within small limits. -/
theorem halts_greedyProgram (heading : Heading) (tracing : Bool)
    (found : g.distance? origin = some total)
    (positive : 1 ≤ total) (deep : 4 ≤ limits.maxCallDepth) (whole : 17 ≤ limits.stepBudget) :
    ∃ trace last, Halts (load (.start g origin heading) limits tracing greedyProgram) trace last ∧
      trace.fits limits.stepBudget limits.stepBudget = true ∧
      trace.reduceOption.countP (·.1 = .forward) = total ∧
      trace.reduceOption.countP (·.1 ≠ .forward) ≤ 3 * total ∧
      last.robot.Approaches g origin total 0 := by
  obtain ⟨n, rfl⟩ : ∃ n, total = n + 1 := ⟨total - 1, by omega⟩
  have approaches : (Robot.start g origin heading).Approaches g origin (n + 1) (n + 1) :=
    .of_start found positive
  have count : Store.value ⟨.start g origin heading, [faceGoal], .initial⟩ (.distance 1) =
      .ok (n + 1 : Nat) :=
    congrArg Except.ok (Grid.distance_eq_natCast_iff.mpr found)
  have start : (load (.start g origin heading) limits tracing greedyProgram).At
      [.block greedyProgram.body] ⟨.start g origin heading, [faceGoal], .initial⟩ 0 limits :=
    ⟨rfl, rfl, rfl, rfl⟩
  -- Two visits for the definition, which is known already, and two for the loop.
  have passes : Passes (load (.start g origin heading) limits tracing greedyProgram)
      [none, none, none, none]
      (.block greedyRound :: .loop n greedyRound 1 :: [.block []])
      ⟨.start g origin heading, [faceGoal], .initial⟩ 0 limits := by
    refine (start.passes_cons .block).trans fun definition => ?_
    refine Passes.trans definition.passes_define fun after => ?_
    refine (after.passes_cons .block).trans fun loop => ?_
    exact At.passes_loop loop count (by omega)
  obtain ⟨middle, goes, there⟩ := passes
  obtain ⟨trace, last, halts, rounds, final⟩ :=
    halts_rounds rfl deep (show 15 ≤ limits.stepBudget by omega) n approaches there
  refine ⟨_, last, goes.halts halts, ?_, rounds.forwards, rounds.turns, final⟩
  obtain ⟨budget, same⟩ : ∃ n, limits.stepBudget = n + 4 := ⟨limits.stepBudget - 4, by omega⟩
  have fits := rounds.fits budget (by omega)
  rw [same] at fits ⊢
  exact fits

end Solving

/-! ## The greedy program -/

/-- **`greedyProgram` solves every maze that can be solved.** From a start with a goal some steps
away, under the usual limits, it comes to an end at a goal with one step forward for each step of
the distance and at most three turns for each; the path is a shortest walk to a goal, and at no time
does anything go wrong. -/
theorem greedy_solves (g : Grid) (origin : Position) (heading : Heading) (tracing : Bool) (k : Nat)
    (positive : 1 ≤ k) (distance : (Robot.start g origin heading).distanceToGoal = k) :
    ∃ program, Program.parse greedySource = .ok program ∧
      let machine := load (.start g origin heading) {} tracing program
      (∀ j, (machine.stepTimes j).1.robot.failure? = none) ∧
      ∃ n, let stepped := machine.stepTimes n
        stepped.1.hasMore = false ∧ stepped.1.robot.status = .completed ∧
        (issued stepped.2).countP (·.1 = .forward) = k ∧
        (issued stepped.2).countP (·.1 ≠ .forward) ≤ 3 * k ∧
        stepped.1.robot.path.length = k + 1 ∧ g.LeadsToGoal origin stepped.1.robot.path ∧
        ∀ ps, g.LeadsToGoal origin ps → stepped.1.robot.path.length ≤ ps.length := by
  have found : g.distance? origin = some k := Grid.distance_eq_natCast_iff.mp distance
  obtain ⟨trace, last, halts, fits, forwards, turns, final⟩ :=
    halts_greedyProgram {} heading tracing found positive (by decide) (by decide)
  obtain ⟨n, stopped, same, commands⟩ :=
    halts.exists_stepTimes_of_fits (Robot.done_start g origin heading) fits
  obtain ⟨leads, length⟩ := final.leadsToGoal
  refine ⟨greedyProgram, parse_greedySource, failure?_stepTimes stopped ?_, n, stopped, ?_⟩
  · rw [same]
    exact final.failure
  · rw [same, commands]
    refine ⟨?_, forwards, turns, length, leads, fun ps other => ?_⟩
    · rw [Robot.status, final.completed]
      rfl
    · obtain ⟨p, last', goal⟩ := other.goal
      have least := (Grid.distance?_eq_some_iff.mp found).2
        ⟨p, other.toIsWalk.reaches other.start last', goal⟩
      have nonempty : 0 < ps.length := List.length_pos_iff.mpr fun none => by
        rw [none] at last'
        cases last'
      omega

/-- A ragged maze with a detour: the goal is two cells away and six steps. -/
def detour : Grid :=
  ⟨[[.empty, .wall, .goal], [.empty, .wall, .empty, .wall], [.empty, .empty, .empty]]⟩

/-- The goal of `detour` is six steps away, and `greedyProgram` gets there. -/
theorem greedy_solves_detour :
    1 ≤ 6 ∧ (Robot.start detour ⟨0, 0⟩ .north).distanceToGoal = (6 : Nat) ∧
    ∃ program, Program.parse greedySource = .ok program ∧
      let machine := load (.start detour ⟨0, 0⟩ .north) {} false program
      (∀ j, (machine.stepTimes j).1.robot.failure? = none) ∧
      ∃ n, let stepped := machine.stepTimes n
        stepped.1.hasMore = false ∧ stepped.1.robot.status = .completed ∧
        (issued stepped.2).countP (·.1 = .forward) = 6 ∧
        (issued stepped.2).countP (·.1 ≠ .forward) ≤ 18 ∧
        stepped.1.robot.path.length = 7 ∧ detour.LeadsToGoal ⟨0, 0⟩ stepped.1.robot.path ∧
        ∀ ps, detour.LeadsToGoal ⟨0, 0⟩ ps → stepped.1.robot.path.length ≤ ps.length := by
  have distance : (Robot.start detour ⟨0, 0⟩ .north).distanceToGoal = (6 : Nat) := by decide
  exact ⟨by decide, distance, greedy_solves detour ⟨0, 0⟩ .north false 6 (by decide) distance⟩

end Machine

end MazeRobot
