import MazeRobot.Maze.Robot
import MazeRobot.Proofs.Walks

/-! # What holds of a robot at every moment

Whoever drives a robot may call it in any order: give it instructions, make it fail, ask it
questions and draw it. Where the robot has been is kept four times over, as its position, its path,
the set of visited positions and their order, and two flags say whether its run is over. All of this
stays in agreement.

* `Robot.Call`, `Robot.respond`, `Robot.after`: the calls, the answers to them, and the robot after
  some calls.
* `Robot.Consistent`: how the parts of a robot agree.
* `Robot.Consistent.respond`, `Robot.Consistent.after`: one call, and any number of calls, keep it.
* `Robot.after_consistent`: they agree after all calls, and once a run is over nothing but the
  sensor readings changes. -/

namespace MazeRobot

/-! ## Numbers of headings -/

namespace Heading

/-- `code` of `ofCode` of a number from zero to three is the number. -/
theorem code_ofCode {n : Int64} (low : 0 ≤ n.toInt) (high : n.toInt < 4) : (ofCode n).code = n := by
  have cases : n.toInt = 0 ∨ n.toInt = 1 ∨ n.toInt = 2 ∨ n.toInt = 3 := by omega
  rcases cases with zero | one | two | three
  · obtain rfl : n = 0 := Int64.toInt_inj.mp zero
    rfl
  · obtain rfl : n = 1 := Int64.toInt_inj.mp one
    rfl
  · obtain rfl : n = 2 := Int64.toInt_inj.mp two
    rfl
  · obtain rfl : n = 3 := Int64.toInt_inj.mp three
    rfl

/-- The remainder of a word by four, lifted above zero and reduced once more, is from zero to
three. -/
theorem toInt_reduced (n : Int64) :
    0 ≤ ((n % 4 + 4) % 4).toInt ∧ ((n % 4 + 4) % 4).toInt < 4 := by
  have four : (4 : Int64).toInt = 4 := rfl
  have above : -4 < n.toInt.tmod 4 := Int.lt_tmod_of_pos n.toInt (by omega)
  have below : n.toInt.tmod 4 < 4 := Int.tmod_lt_of_pos n.toInt (by omega)
  -- The lifted remainder is far from the ends of a word.
  have lifted : (n % 4 + 4).toInt = n.toInt.tmod 4 + 4 := by
    rw [Int64.toInt_add, Int64.toInt_mod, four]
    exact Int.bmod_eq_of_le (by omega) (by omega)
  rw [Int64.toInt_mod, lifted, four]
  exact ⟨Int.tmod_nonneg 4 (by omega), Int.tmod_lt_of_pos _ (by omega)⟩

/-- `turn` gives the heading whose `code` is computed, and never one that is taken in its place. -/
theorem code_turn (heading : Heading) (quarterTurns : Int64) :
    (heading.turn quarterTurns).code = ((heading.code + quarterTurns) % 4 + 4) % 4 := by
  obtain ⟨low, high⟩ := toInt_reduced (heading.code + quarterTurns)
  exact code_ofCode low high

end Heading

namespace Robot

/-! ## Calls -/

/-- Something that is asked of a robot. -/
inductive Call where
  /-- To carry out an instruction. -/
  | execute (instruction : String)
  /-- To fail for a reason outside. -/
  | fail (message : String)
  /-- To sense whether the neighbour in a direction is blocked. -/
  | sense (quarterTurns : Int64)
  /-- To tell whether the neighbour in a direction is nearer to a goal. -/
  | isCloser (quarterTurns : Int64)
  /-- To tell the distance to a goal. -/
  | distance
  /-- To draw the maze. -/
  | picture (fog : Bool)
  deriving DecidableEq, Repr

/-- What a robot answers. -/
inductive Answer where
  /-- Nothing. -/
  | nothing
  /-- Yes or no. -/
  | truth (yes : Bool)
  /-- A number. -/
  | number (n : Int)
  /-- A text. -/
  | text (text : String)
  deriving DecidableEq, Repr

/-- The robot after a call, and its answer. -/
def respond (robot : Robot) : Call → Robot × Answer
  | .execute instruction =>
    ((robot.execute instruction).1, .truth (robot.execute instruction).2)
  | .fail message => (robot.fail message, .nothing)
  | .sense quarterTurns => ((robot.sense quarterTurns).1, .truth (robot.sense quarterTurns).2)
  | .isCloser quarterTurns => (robot, .truth (robot.isCloser quarterTurns))
  | .distance => (robot, .number robot.distanceToGoal)
  | .picture fog => (robot, .text (robot.picture fog))

/-- The robot after some calls in a row. -/
def after (robot : Robot) (calls : List Call) : Robot :=
  calls.foldl (fun robot call => (robot.respond call).1) robot

/-- `after` no calls the robot is as it was. -/
@[simp] theorem after_nil (robot : Robot) : robot.after [] = robot := rfl

/-- `after` one more call: the first one is answered first. -/
@[simp] theorem after_cons (robot : Robot) (call : Call) (calls : List Call) :
    robot.after (call :: calls) = (robot.respond call).1.after calls := rfl

/-! ## Agreement -/

/-- A robot whose parts agree, on a run through a maze that started at a position. -/
structure Consistent (g : Grid) (origin : Position) (robot : Robot) : Prop where
  /-- The robot is in the maze. -/
  grid : robot.grid = g
  /-- The number of the heading is from zero to three. -/
  heading : 0 ≤ robot.heading.code.toInt ∧ robot.heading.code.toInt ≤ 3
  /-- The path starts where the run did. -/
  start : robot.path.head? = some origin
  /-- The path ends where the robot is. -/
  here : robot.path.getLast? = some robot.position
  /-- Each position of the path is one step from the one before. -/
  adjacent : robot.path.IsChain Position.Adjacent
  /-- All positions of the path but the first are in the maze and no walls. -/
  free : ∀ p ∈ robot.path.tail, g.Free p
  /-- The visited positions are those of the path, each where it occurs first. -/
  visited : robot.visitedPositions = robot.path.eraseDups
  /-- The robot has been exactly at the positions of the path. -/
  hasVisited : ∀ p, robot.hasVisited p = true ↔ p ∈ robot.path
  /-- The robot has reached a goal exactly when it has moved and its path ends at one. -/
  completed : robot.completed = true ↔ 2 ≤ robot.path.length ∧ g.cell robot.position = .goal
  /-- No position between the first and the last one is a goal. -/
  between : ∀ p ∈ robot.path.tail.dropLast, g.cell p ≠ .goal
  /-- A robot that has reached a goal has not failed. -/
  outcome : robot.completed = true → robot.failure? = none
  /-- A failure is told about. -/
  told : robot.failure? ≠ some ""

namespace Consistent

variable {g : Grid} {origin : Position} {robot : Robot}

/-- A robot at its `start` is `Consistent`. -/
theorem of_start (g : Grid) (origin : Position) (heading : Heading) :
    Consistent g origin (.start g origin heading) where
  grid := rfl
  heading := by
    show 0 ≤ heading.code.toInt ∧ heading.code.toInt ≤ 3
    cases heading <;> decide
  start := rfl
  here := rfl
  adjacent := .singleton origin
  free := by
    intro p member
    cases member
  visited := rfl
  hasVisited := by
    intro p
    simp [Robot.hasVisited, Robot.start, Robot.path]
  completed := by simp [Robot.start, Robot.path]
  between := by
    intro p member
    cases member
  outcome := fun _ => rfl
  told := nofun

/-- Another heading, other sensor readings and a failure that is told about before a goal is reached
keep a robot `Consistent`: they change nothing about where it has been. -/
theorem update (consistent : Consistent g origin robot) {heading : Heading}
    {failure? : Option String} {sensors : List (Int64 × Bool)}
    (number : 0 ≤ heading.code.toInt ∧ heading.code.toInt ≤ 3)
    (outcome : robot.completed = true → failure? = none) (told : failure? ≠ some "") :
    Consistent g origin { robot with heading, failure?, sensors } where
  grid := consistent.grid
  heading := number
  start := consistent.start
  here := consistent.here
  adjacent := consistent.adjacent
  free := consistent.free
  visited := consistent.visited
  hasVisited := consistent.hasVisited
  completed := consistent.completed
  between := consistent.between
  outcome := outcome
  told := told

/-- A `Consistent` robot on its way that fails stays so. -/
theorem failed (consistent : Consistent g origin robot) (running : robot.done = false)
    {message : String} (told : message ≠ "") :
    Consistent g origin { robot with failure? := some message } := by
  have going : robot.completed = false := by
    rw [done, Bool.or_eq_false_iff] at running
    exact running.1
  refine consistent.update consistent.heading (fun completed => ?_) (by simpa using told)
  rw [going] at completed
  cases completed

/-- A `turn` by any number of quarters keeps the `code` of the heading in its range. -/
theorem turned (consistent : Consistent g origin robot) (quarterTurns : Int64) :
    Consistent g origin { robot with heading := robot.heading.turn quarterTurns } := by
  refine consistent.update ?_ consistent.outcome consistent.told
  rw [Heading.code_turn]
  obtain ⟨low, high⟩ := Heading.toInt_reduced (robot.heading.code + quarterTurns)
  exact ⟨low, by omega⟩

/-- The `path` of a `Consistent` robot is its first position and the others. -/
theorem path_eq (consistent : Consistent g origin robot) :
    robot.path = origin :: robot.path.tail := by
  cases path : robot.path with
  | nil =>
    have start := consistent.start
    rw [path] at start
    cases start
  | cons first rest =>
    have start := consistent.start
    rw [path] at start
    cases start
    rfl

/-- A `Consistent` robot that has not reached a goal has been at none since its first position. -/
theorem cell_ne_goal (consistent : Consistent g origin robot) (going : robot.completed = false)
    {p : Position} (member : p ∈ robot.path.tail) : g.cell p ≠ .goal := by
  have nonempty : robot.path.tail ≠ [] := List.ne_nil_of_mem member
  -- The last of these positions is where the robot is; the others lie between.
  have last : robot.path.tail.getLast nonempty = robot.position := by
    have here := consistent.here
    rw [consistent.path_eq, List.getLast?_cons_of_ne_nil nonempty,
      List.getLast?_eq_some_getLast nonempty] at here
    exact Option.some.inj here
  rw [← List.dropLast_append_getLast nonempty, last] at member
  rcases List.mem_append.mp member with earlier | final
  · exact consistent.between p earlier
  · obtain rfl := List.mem_singleton.mp final
    intro goal
    have long : 2 ≤ robot.path.length := by
      rw [consistent.path_eq, List.length_cons]
      exact Nat.succ_le_succ (List.length_pos_iff.mpr nonempty)
    have reached := consistent.completed.mpr ⟨long, goal⟩
    rw [going] at reached
    cases reached

/-! ## What each call keeps -/

/-- A step to a free cell makes the path longer by that cell, and nothing else, so the robot stays
`Consistent`. -/
theorem moved (consistent : Consistent g origin robot) (running : robot.done = false)
    {next : Position} (adjacent : robot.position.Adjacent next) (free : g.Free next) :
    Consistent g origin { robot with
      position := next
      trail := next :: robot.trail
      visited := if robot.visited.contains next then robot.visited else next :: robot.visited
      completed := robot.completed || robot.grid.cell next = .goal } := by
  rw [done, Bool.or_eq_false_iff] at running
  obtain ⟨going, fine⟩ := running
  have path : (next :: robot.trail).reverse = robot.path ++ [next] := List.reverse_cons
  have nonempty : robot.path ≠ [] := by
    rw [consistent.path_eq]
    exact List.cons_ne_nil _ _
  have tail : (robot.path ++ [next]).tail = robot.path.tail ++ [next] :=
    List.tail_append_of_ne_nil nonempty
  refine ⟨consistent.grid, consistent.heading, ?start, ?here, ?adjacent, ?free, ?visited,
    ?hasVisited, ?completed, ?between, ?outcome, consistent.told⟩
  case start =>
    show (next :: robot.trail).reverse.head? = some origin
    rw [path, List.head?_append, consistent.start, Option.some_or]
  case here =>
    show (next :: robot.trail).reverse.getLast? = some next
    rw [path, List.getLast?_concat]
  case adjacent =>
    show (next :: robot.trail).reverse.IsChain Position.Adjacent
    rw [path, List.isChain_append]
    refine ⟨consistent.adjacent, .singleton next, ?_⟩
    intro p last q first
    rw [consistent.here] at last
    cases last
    cases first
    exact adjacent
  case free =>
    intro p member
    change p ∈ (next :: robot.trail).reverse.tail at member
    rw [path, tail] at member
    rcases List.mem_append.mp member with earlier | final
    · exact consistent.free p earlier
    · rw [List.mem_singleton.mp final]
      exact free
  case visited =>
    show List.reverse (if robot.visited.contains next then _ else _) =
      (next :: robot.trail).reverse.eraseDups
    rw [path, List.eraseDups_append, ← consistent.visited]
    have known := consistent.hasVisited next
    rw [Robot.hasVisited] at known
    by_cases been : robot.visited.contains next = true
    · rw [if_pos been]
      simp [List.removeAll, known.mp been, visitedPositions]
    · have new : next ∉ robot.path := fun member => been (known.mpr member)
      rw [if_neg been]
      simp [List.removeAll, new, visitedPositions, List.eraseDups_cons]
  case hasVisited =>
    intro p
    show List.contains (if robot.visited.contains next then _ else _) p = true ↔
      p ∈ (next :: robot.trail).reverse
    have known := consistent.hasVisited
    simp only [Robot.hasVisited] at known
    rw [path, List.mem_append, List.mem_singleton]
    by_cases been : robot.visited.contains next = true
    · rw [if_pos been, known p]
      refine ⟨.inl, fun either => either.elim id ?_⟩
      rintro rfl
      exact (known p).mp been
    · rw [if_neg been, List.contains_cons, Bool.or_eq_true, known p, beq_iff_eq, or_comm]
  case completed =>
    show (robot.completed || decide (robot.grid.cell next = .goal)) = true ↔
      2 ≤ (next :: robot.trail).reverse.length ∧ g.cell next = .goal
    rw [path, going, Bool.false_or, decide_eq_true_iff, consistent.grid, List.length_append,
      List.length_singleton]
    have long : 2 ≤ robot.path.length + 1 := Nat.succ_le_succ (List.length_pos_iff.mpr nonempty)
    exact (and_iff_right long).symm
  case between =>
    intro p member
    change p ∈ (next :: robot.trail).reverse.tail.dropLast at member
    rw [path, tail, List.dropLast_concat] at member
    exact consistent.cell_ne_goal going member
  case outcome =>
    intro _
    show robot.failure? = none
    rwa [Option.isSome_eq_false_iff, Option.isNone_iff_eq_none] at fine

/-- `advance` keeps a robot `Consistent`, whether or not a wall is in its way. -/
theorem advance (consistent : Consistent g origin robot) (running : robot.done = false) :
    Consistent g origin robot.advance.1 := by
  simp only [Robot.advance]
  cases blocked : robot.grid.blocked (robot.position.step robot.heading) with
  | true => exact consistent.failed running (by decide)
  | false =>
    rw [consistent.grid] at blocked
    exact consistent.moved running (Position.adjacent_step _ _) (Grid.free_iff.mpr blocked)

/-- `perform` keeps a robot `Consistent`. -/
theorem perform (consistent : Consistent g origin robot) (command : Command) :
    Consistent g origin (robot.perform command).1 := by
  cases running : robot.done with
  | true =>
    rw [perform_of_done running]
    exact consistent
  | false =>
    unfold Robot.perform
    rw [running, if_neg Bool.false_ne_true]
    cases command with
    | forward => exact consistent.advance running
    | turnLeft => exact consistent.turned (-1)
    | turnRight => exact consistent.turned 1

/-- `execute` of an instruction in any words keeps a robot `Consistent`. -/
theorem execute (consistent : Consistent g origin robot) (instruction : String) :
    Consistent g origin (robot.execute instruction).1 := by
  unfold Robot.execute
  cases running : robot.done with
  | true => exact consistent
  | false =>
    cases Command.ofInstruction? instruction with
    | some command => exact consistent.perform command
    | none =>
      -- The message starts with words of its own, so it is not empty.
      have told : "Unknown command: " ++ instruction ≠ "" := by
        intro empty
        have length := congrArg String.length empty
        rw [String.length_append] at length
        have words : "Unknown command: ".length = 17 := by decide
        have none : "".length = 0 := rfl
        omega
      exact consistent.failed running told

/-- `fail` from outside keeps a robot `Consistent`. -/
theorem fail (consistent : Consistent g origin robot) (message : String) :
    Consistent g origin (robot.fail message) := by
  unfold Robot.fail
  cases running : robot.done with
  | true => exact consistent
  | false =>
    by_cases told : message.isEmpty = true
    · rw [told]
      exact consistent
    · have some : message ≠ "" := fun empty => told (String.isEmpty_iff.mpr empty)
      rw [if_neg (by simpa using told)]
      exact consistent.failed running some

/-- `respond` to a call keeps a robot `Consistent`. -/
theorem respond (consistent : Consistent g origin robot) (call : Call) :
    Consistent g origin (robot.respond call).1 := by
  cases call with
  | execute instruction => exact consistent.execute instruction
  | fail message => exact consistent.fail message
  | sense quarterTurns =>
    exact consistent.update consistent.heading consistent.outcome consistent.told
  | isCloser quarterTurns => exact consistent
  | distance => exact consistent
  | picture fog => exact consistent

/-- Any calls in a row keep a robot `Consistent`. -/
theorem after (consistent : Consistent g origin robot) (calls : List Call) :
    Consistent g origin (robot.after calls) := by
  induction calls generalizing robot with
  | nil => exact consistent
  | cons call calls ih => exact ih (consistent.respond call)

end Consistent

/-! ## When the run is over -/

/-- `execute` carries out no instruction once the run is `done`. -/
theorem execute_of_done {robot : Robot} (ended : robot.done = true) (instruction : String) :
    robot.execute instruction = (robot, false) := by
  rw [execute, if_pos ended]

/-- `respond` of a robot whose run is `done` changes nothing but the sensor readings, and those only
if the call senses. -/
theorem respond_of_done {robot : Robot} (ended : robot.done = true) (call : Call) :
    ∃ sensors, (robot.respond call).1 = { robot with sensors } ∧
      ((∀ quarterTurns, call ≠ .sense quarterTurns) → sensors = robot.sensors) := by
  cases call with
  | execute instruction =>
    refine ⟨robot.sensors, ?_, fun _ => rfl⟩
    rw [respond, execute_of_done ended]
  | fail message =>
    refine ⟨robot.sensors, ?_, fun _ => rfl⟩
    rw [respond, fail, ended, Bool.true_or, if_pos rfl]
  | sense quarterTurns => exact ⟨_, rfl, fun other => absurd rfl (other quarterTurns)⟩
  | isCloser quarterTurns => exact ⟨robot.sensors, rfl, fun _ => rfl⟩
  | distance => exact ⟨robot.sensors, rfl, fun _ => rfl⟩
  | picture fog => exact ⟨robot.sensors, rfl, fun _ => rfl⟩

/-- Calls of a robot whose run is `done` change nothing but the sensor readings, and those only if
one of them senses. -/
theorem after_of_done {robot : Robot} (ended : robot.done = true) (calls : List Call) :
    ∃ sensors, robot.after calls = { robot with sensors } ∧
      ((∀ quarterTurns, .sense quarterTurns ∉ calls) → sensors = robot.sensors) := by
  induction calls generalizing robot with
  | nil => exact ⟨robot.sensors, rfl, fun _ => rfl⟩
  | cons call calls ih =>
    obtain ⟨first, same, kept⟩ := respond_of_done ended call
    have still : { robot with sensors := first }.done = true := ended
    obtain ⟨sensors, rest, keptOn⟩ := ih still
    refine ⟨sensors, ?_, fun senseless => ?_⟩
    · rw [after_cons, same, rest]
    · rw [keptOn fun turns later => senseless turns (List.mem_cons_of_mem _ later)]
      refine kept fun turns sensing => senseless turns ?_
      rw [sensing]
      exact List.mem_cons_self

/-- **A robot stays `Consistent` whatever it is asked, and a run that is over stays as it is.**
After any calls in a row, position, path, visited positions and flags agree. Once the run is over,
more calls change nothing but the sensor readings, these only when one of them senses, and no
instruction is carried out. -/
theorem after_consistent (g : Grid) (origin : Position) (heading : Heading) (calls : List Call) :
    let robot := (Robot.start g origin heading).after calls
    Consistent g origin robot ∧
      (robot.done = true → ∀ later,
        (∃ sensors, robot.after later = { robot with sensors } ∧
          ((∀ quarterTurns, .sense quarterTurns ∉ later) → sensors = robot.sensors)) ∧
        ∀ instruction, ((robot.after later).respond (.execute instruction)).2 = .truth false) := by
  intro robot
  refine ⟨(Consistent.of_start g origin heading).after calls, fun ended later => ?_⟩
  obtain ⟨sensors, same, kept⟩ := after_of_done ended later
  refine ⟨⟨sensors, same, kept⟩, fun instruction => ?_⟩
  have still : (robot.after later).done = true := by
    rw [same]
    exact ended
  rw [respond, execute_of_done still]

/-- A robot that starts at a goal, leaves it and comes back, and is then asked for more. -/
theorem after_consistent_backAtGoal :
    let robot := (Robot.start ⟨[[.goal, .empty]]⟩ ⟨0, 0⟩ .east).after
      [.execute "forward", .execute " Left", .sense 5, .execute "left", .execute "MOVE"]
    let later := [.sense (-1), .fail "too late", .execute "sideways"]
    robot.done = true ∧ robot.path = [⟨0, 0⟩, ⟨1, 0⟩, ⟨0, 0⟩] ∧
      Consistent ⟨[[.goal, .empty]]⟩ ⟨0, 0⟩ robot ∧
      (∃ sensors, robot.after later = { robot with sensors }) ∧
      ((robot.after later).respond (.execute "forward")).2 = .truth false := by
  intro robot later
  have ended : robot.done = true := by decide +kernel
  have path : robot.path = [⟨0, 0⟩, ⟨1, 0⟩, ⟨0, 0⟩] := by decide +kernel
  obtain ⟨consistent, settled⟩ := after_consistent ⟨[[.goal, .empty]]⟩ ⟨0, 0⟩ .east
    [.execute "forward", .execute " Left", .sense 5, .execute "left", .execute "MOVE"]
  obtain ⟨⟨sensors, same, -⟩, refused⟩ := settled ended later
  exact ⟨ended, path, consistent, ⟨sensors, same⟩, refused "forward"⟩

end Robot

end MazeRobot
