import MazeRobot.Proofs.Passes

/-! # The machine runs programs as the interpreter does

A machine keeps what is left of a program on a stack of frames; the interpreter keeps it in its own
recursion. The two agree: with a frame on top of any other frames, the machine issues the commands
of the interpreter for that frame, and comes back to the other frames with the store of the
interpreter.

* `Machine.Simulates`: a machine that does what a run says before it comes back to some frames.
* `Machine.simulates_interpret`, `Machine.simulates_interpretAll`, `Machine.simulates_call`: the
  machine against each function of the interpreter.
* `Machine.stepTimes_refines_interpret`: the steps of a machine are the run of its program, as long
  as the budget lasts. -/

namespace MazeRobot

namespace Machine

/-- A machine that issues the commands of a run. A run that comes to its end leads back to the
frames below; one that ends the program halts the machine with the same robot. -/
def Simulates (m : Machine) (below : List Frame) (depth : Nat) (limits : Limits) (run : Run) :
    Prop :=
  ∃ trace : Trace, trace.reduceOption = run.issued ∧
    match run.ending with
    | .finished store => Passes m trace below store depth limits
    | .stopped robot => ∃ last, Halts m trace last ∧ last.robot = robot

namespace Simulates

variable {m middle : Machine} {below : List Frame} {depth : Nat} {limits : Limits} {store : Store}
  {run : Run}

/-- A machine at the frames below `Simulates` a run that does nothing. -/
theorem finish (here : m.At below store depth limits) :
    Simulates m below depth limits (.finish store) :=
  ⟨[], rfl, m, .stay m, here⟩

/-- A visit with a fault `Simulates` a run that fails. -/
theorem fault {f : Fault} (visit : m.visit? = some (.failed f middle))
    (same : middle.robot = store.robot) : Simulates m below depth limits (.fault store f) := by
  refine ⟨[none], rfl, middle.fail f, .failed visit, ?_⟩
  simp [Machine.fail, same]

/-- A visit without a command `Simulates` a run that does nothing but change the store. -/
theorem passed (passes : Passes m [none] below store depth limits) :
    Simulates m below depth limits (.finish store) :=
  ⟨[none], rfl, passes⟩

/-- A machine `Simulates` a run after another with visits after the visits of the first one. -/
theorem andThen {between : List Frame} {inner : Nat} {next : Store → Run}
    (first : Simulates m between inner limits run)
    (second : ∀ {middle : Machine} {store : Store}, run.ending = .finished store →
      middle.At between store inner limits → Simulates middle below depth limits (next store)) :
    Simulates m below depth limits (run.andThen next) := by
  obtain ⟨trace, issued, rest⟩ := first
  unfold Run.andThen
  cases ended : run.ending with
  | finished store =>
    rw [ended] at rest
    obtain ⟨middle, goes, there⟩ := rest
    obtain ⟨later, issuedLater, on⟩ := second ended there
    refine ⟨trace ++ later, by rw [List.reduceOption_append, issued, issuedLater], ?_⟩
    dsimp only
    cases final : (next store).ending with
    | finished after =>
      rw [final] at on
      obtain ⟨last, goesOn, here⟩ := on
      exact ⟨last, goes.trans goesOn, here⟩
    | stopped robot =>
      rw [final] at on
      obtain ⟨last, halts, same⟩ := on
      exact ⟨last, goes.halts halts, same⟩
  | stopped robot =>
    -- A run that ends the program leaves nothing to the next one.
    rw [ended] at rest
    refine ⟨trace, issued, ?_⟩
    rw [ended]
    exact rest

/-- A machine that `Simulates` a run may make a visit without a command before. -/
theorem moved {between : List Frame} {inner : Nat}
    (passes : Passes m [none] between store inner limits)
    (on : ∀ {middle : Machine}, middle.At between store inner limits →
      Simulates middle below depth limits run) : Simulates m below depth limits run := by
  rw [← Run.finish_andThen store fun _ => run]
  refine (passed passes).andThen fun finished there => ?_
  cases finished
  exact on there

end Simulates

/-! ## Frames -/

section Frames

variable {m : Machine} {below : List Frame} {store : Store} {depth : Nat} {limits : Limits}

/-- A machine `Simulates` a block if it simulates its statements, up to the empty block. -/
theorem simulates_block {run : Run} (stmts : Simulates m (.block [] :: below) depth limits run) :
    Simulates m below depth limits run := by
  rw [← run.andThen_finish]
  exact stmts.andThen fun _ there => .passed there.passes_block_nil

/-- A loop runs its body as often as rounds are left, as in `Run.rounds`. -/
theorem simulates_rounds {piece : Store → Run} {body : List Stmt} {line : Int}
    (bodies : ∀ {m : Machine} {below : List Frame} {store : Store},
      m.At (.block body :: below) store depth limits → Simulates m below depth limits (piece store))
    (n : Nat) (here : m.At (.loop n body line :: below) store depth limits) :
    Simulates m below depth limits (Run.rounds piece n store) := by
  induction n generalizing m store with
  | zero => exact .passed here.passes_rounds_zero
  | succ n ih =>
    refine .moved here.passes_rounds_succ fun round => ?_
    exact (bodies round).andThen fun _ there => ih there

end Frames

/-! ## Statements -/

/-- Whether a machine with the given number of active calls does what calls mean. -/
def SimulatesCalls (calling : Calling) (depth : Nat) (limits : Limits) : Prop :=
  ∀ {m : Machine} {below : List Frame} {store : Store} (name : String) (arguments : List Expr)
    (implicit : Bool) (line : Int),
    m.At (.stmt (.call name arguments implicit line) :: below) store depth limits →
      Simulates m below depth limits (calling name arguments line store)

section Statements

variable {calling : Calling} {depth : Nat} {limits : Limits} {m : Machine} {below : List Frame}
  {store : Store}

/-- A command goes to the robot; it ends the program if it ends the run of the robot, as in
`Stmt.interpret`. -/
theorem simulates_command {kind : Command} {line : Int}
    (here : m.At (.stmt (.command kind line) :: below) store depth limits) :
    Simulates m below depth limits (Stmt.interpret calling (.command kind line) store) := by
  rw [Stmt.interpret]
  refine ⟨[some (kind, line)], rfl, ?_⟩
  cases ended : (store.robot.perform kind).1.done with
  | true => exact here.halts_command ended
  | false => exact here.passes_command ended

/-- An assignment binds its name in the innermost scope, as in `Stmt.interpret`. -/
theorem simulates_assign {name : String} {value : Expr} {line : Int}
    (here : m.At (.stmt (.assign name value line) :: below) store depth limits) :
    Simulates m below depth limits (Stmt.interpret calling (.assign name value line) store) := by
  rw [Stmt.interpret]
  cases evaluated : store.value value with
  | error fault =>
    have visit : m.visit? = some (run { m with frames := below } (.assign name value line)) :=
      visit?_of_frames here.frames
    rw [run, here.evaluate_eq value, evaluated] at visit
    exact .fault visit here.robot_eq
  | ok value => exact .passed (here.passes_assign evaluated)

/-- A loop evaluates its count once and runs its body that many times, as in `Stmt.interpret`. -/
theorem simulates_loop {count : Expr} {body : List Stmt} {line : Int}
    (bodies : ∀ {m : Machine} {below : List Frame} {store : Store},
      m.At (.block body :: below) store depth limits →
        Simulates m below depth limits (Stmt.interpretAll calling body store))
    (here : m.At (.stmt (.loop count body line) :: below) store depth limits) :
    Simulates m below depth limits (Stmt.interpret calling (.loop count body line) store) := by
  have visit : m.visit? = some (run { m with frames := below } (.loop count body line)) :=
    visit?_of_frames here.frames
  rw [run, here.evaluate_eq count] at visit
  rw [Stmt.interpret]
  cases evaluated : store.value count with
  | error fault =>
    rw [evaluated] at visit
    exact .fault visit here.robot_eq
  | ok value =>
    rw [evaluated] at visit
    dsimp only at visit ⊢
    by_cases negative : value < 0
    · rw [if_pos negative] at visit ⊢
      exact .fault visit here.robot_eq
    · have passes := here.passes_loop evaluated negative
      rw [if_neg negative]
      -- The first round starts in the visit that evaluates the count.
      cases rounds : value.toNat with
      | zero =>
        rw [rounds] at passes
        exact .passed passes
      | succ n =>
        rw [rounds] at passes
        refine .moved passes fun round => ?_
        exact (bodies round).andThen fun _ there => simulates_rounds bodies n there

/-- A conditional asks the robot as it stands, as in `Stmt.interpret`. -/
theorem simulates_branch {condition : Option Condition} {body : List Stmt} {line : Int}
    (bodies : ∀ {m : Machine} {below : List Frame} {store : Store},
      m.At (.block body :: below) store depth limits →
        Simulates m below depth limits (Stmt.interpretAll calling body store))
    (here : m.At (.stmt (.branch condition body line) :: below) store depth limits) :
    Simulates m below depth limits
      (Stmt.interpret calling (.branch condition body line) store) := by
  cases condition with
  | none => exact .passed here.passes_branch_none
  | some condition =>
    have passes := here.passes_branch
    rw [Stmt.interpret]
    cases holds : (store.test condition).2 with
    | true =>
      simp only [holds, if_true] at passes ⊢
      exact .moved passes bodies
    | false =>
      simp only [holds, Bool.false_eq_true, if_false] at passes ⊢
      exact .passed passes

mutual

/-- A statement on top of other frames does what `interpret` says, if calls do. -/
theorem simulates_interpret (calls : SimulatesCalls calling depth limits) (stmt : Stmt)
    {m : Machine} {below : List Frame} {store : Store}
    (here : m.At (.ofStmt stmt :: below) store depth limits) :
    Simulates m below depth limits (stmt.interpret calling store) := by
  cases stmt with
  | block body line =>
    exact .moved here.passes_block fun there =>
      simulates_block (simulates_interpretAll calls .block body there)
  | command kind line => exact simulates_command here
  | loop count body line =>
    exact simulates_loop (fun there =>
      simulates_block (simulates_interpretAll calls .block body there)) here
  | branch condition body line =>
    exact simulates_branch (fun there =>
      simulates_block (simulates_interpretAll calls .block body there)) here
  | assign name value line => exact simulates_assign here
  | define name parameters body line => exact .passed here.passes_define
  | call name arguments implicit line => exact calls name arguments implicit line here
  | missing => exact .passed here.passes_block_nil

/-- A sequence on top of other frames does what `interpretAll` says, if calls do. Its frame is then
empty and still on top. -/
theorem simulates_interpretAll (calls : SimulatesCalls calling depth limits)
    {frame : List Stmt → Frame} (sequence : Sequence frame) (stmts : List Stmt) {m : Machine}
    {below : List Frame} {store : Store} (here : m.At (frame stmts :: below) store depth limits) :
    Simulates m (frame [] :: below) depth limits (Stmt.interpretAll calling stmts store) := by
  cases stmts with
  | nil => exact .finish here
  | cons stmt stmts =>
    refine .moved (here.passes_cons sequence) fun top => ?_
    exact (simulates_interpret calls stmt top).andThen fun _ there =>
      simulates_interpretAll calls sequence stmts there

end

/-! ## Calls -/

/-- A body on top of other frames, in a scope of its own, does what `interpretAll` says. -/
theorem simulates_apply (calls : SimulatesCalls calling (depth + 1) limits)
    (keeps : calling.KeepsScopes) {f : FunctionDef} {values : List Int}
    (here : m.At (.body f.body f.name store.scopes.depth :: below)
      { store with scopes := store.scopes.push (.ofArguments f.parameters values) }
      (depth + 1) limits) :
    Simulates m below depth limits (f.apply calling values store) := by
  have body := simulates_interpretAll calls (.body f.name store.scopes.depth) f.body here
  -- The body leaves its own scope on top, which is the one that is dropped.
  refine body.andThen fun finished there => .passed (there.passes_body_nil ?_)
  exact f.body_leaves keeps values store _ finished

end Statements

/-- Calls do what `Store.call` says, where the active calls and those that may still nest make up
the limit. -/
theorem simulates_call (limits : Limits) (remaining : Nat) {depth : Nat}
    (total : depth + remaining = limits.maxCallDepth) :
    SimulatesCalls (Store.call limits.maxCallDepth remaining) depth limits := by
  induction remaining generalizing depth with
  | zero =>
    intro m below store name arguments implicit line here
    have visit := here.visit?_call
    rw [Store.call]
    cases resolved : store.resolve name arguments line with
    | error fault =>
      rw [resolved] at visit
      exact .fault visit here.robot_eq
    | ok found =>
      rw [resolved] at visit
      dsimp only at visit ⊢
      -- All calls that may be active are, so this one is too deep.
      rw [if_pos (by omega)] at visit
      exact .fault visit here.robot_eq
  | succ remaining ih =>
    intro m below store name arguments implicit line here
    rw [Store.call]
    cases resolved : store.resolve name arguments line with
    | error fault =>
      have visit := here.visit?_call
      rw [resolved] at visit
      exact .fault visit here.robot_eq
    | ok found =>
      obtain ⟨f, values⟩ := found
      have deeper : depth + 1 + remaining = limits.maxCallDepth := by omega
      refine .moved (here.passes_call resolved (by omega)) fun inside => ?_
      exact simulates_apply (ih deeper) (Store.call_keepsScopes _ _) inside

/-! ## Programs -/

/-- A machine that `load` puts at the start of a program `Halts` as `interpret` says. -/
theorem load_halts (program : Program) (robot : Robot) (limits : Limits) (tracing : Bool)
    (running : robot.done = false) :
    ∃ trace last, Halts (load robot limits tracing program) trace last ∧
      trace.reduceOption = (program.interpret limits.maxCallDepth robot).issued ∧
      last.robot = (program.interpret limits.maxCallDepth robot).robot := by
  have start : (load robot limits tracing program).At [.block program.body]
      (program.initialStore robot) 0 limits := ⟨rfl, rfl, rfl, rfl⟩
  have calls : SimulatesCalls (Store.call limits.maxCallDepth limits.maxCallDepth) 0 limits :=
    simulates_call limits limits.maxCallDepth (Nat.zero_add _)
  obtain ⟨trace, issued, rest⟩ :=
    simulates_block (simulates_interpretAll calls .block program.body start)
  rw [Program.interpret, running, if_neg Bool.false_ne_true, Run.robot]
  cases ended : (Stmt.interpretAll (Store.call limits.maxCallDepth limits.maxCallDepth) program.body
      (program.initialStore robot)).ending with
  | finished store =>
    rw [ended] at rest
    obtain ⟨last, goes, there⟩ := rest
    refine ⟨trace, last, ?_, issued, there.robot_eq⟩
    simpa using goes.halts (.ended there.frames)
  | stopped robot =>
    rw [ended] at rest
    obtain ⟨last, halts, same⟩ := rest
    exact ⟨trace, last, halts, issued, same⟩

/-- **The machine refines the interpreter.** Stepping a machine with `stepTimes` until it may not go
on issues the commands of `interpret` and leaves the same robot, unless the budget of a step is used
up. In that case the commands so far are the first ones of the interpreter and the robot has failed
for that reason; for every program, robot and call depth there are budgets so large that this never
happens. -/
theorem stepTimes_refines_interpret (program : Program) (robot : Robot) (maxCallDepth : Nat)
    (tracing : Bool) :
    ∃ enough, ∀ stepBudget, ∃ n,
      let stepped := (load robot ⟨maxCallDepth, stepBudget⟩ tracing program).stepTimes n
      stepped.1.hasMore = false ∧
        ((issued stepped.2 = (program.interpret maxCallDepth robot).issued ∧
            stepped.1.robot = (program.interpret maxCallDepth robot).robot) ∨
          (stepBudget < enough ∧ stepped.1.Exhausted stepBudget ∧
            issued stepped.2 <+: (program.interpret maxCallDepth robot).issued)) := by
  cases running : robot.done with
  | true =>
    refine ⟨0, fun stepBudget => ⟨0, ?_, .inl ?_⟩⟩
    · simp [stepTimes, load, idle, hasMore, running]
    · simp [stepTimes, load, idle, issued, Program.interpret, Run.robot, running]
  | false =>
    -- The trace is found for one budget; the visits do not depend on it.
    obtain ⟨trace, last, halts, commands, same⟩ :=
      load_halts program robot ⟨maxCallDepth, 0⟩ tracing running
    refine ⟨trace.length, fun stepBudget => ?_⟩
    obtain ⟨n, stopped, outcome⟩ := (halts.withBudget stepBudget).exists_stepTimes running
    refine ⟨n, stopped, ?_⟩
    change ComesTo stepBudget (trace.fits stepBudget stepBudget) _ _ _ at outcome
    rw [← commands, ← same]
    by_cases fits : trace.fits stepBudget stepBudget = true
    · rw [ComesTo, if_pos fits] at outcome
      have final : _ = (last.withBudget stepBudget).robot := congrArg Machine.robot outcome.1
      exact .inl ⟨outcome.2, final⟩
    · rw [ComesTo, if_neg fits] at outcome
      have short : stepBudget < trace.length := by
        by_contra long
        exact fits (Trace.fits_of_length_le (Nat.le_of_not_lt long) (Nat.le_refl _))
      exact .inr ⟨short, outcome⟩

/-! ## Loops that do nothing -/

/-- Each round of an empty loop takes two visits, so `advance` of a loop with many rounds left uses
up a small budget. -/
theorem advance_emptyLoop {m : Machine} {n : Nat} {line : Int} {below : List Frame}
    (top : m.frames = .loop n [] line :: below) {left : Nat} (short : left ≤ 2 * n) :
    ∃ place m', m.advance left = .failed ⟨.budgetExceeded m.limits.stepBudget, place, 0⟩ m' ∧
      m'.robot = m.robot := by
  induction n generalizing m left with
  | zero =>
    obtain rfl : left = 0 := by omega
    exact ⟨_, m, advance_zero (visit?_of_frames top), rfl⟩
  | succ n ih =>
    have first := visit?_of_frames top
    match left with
    | 0 => exact ⟨_, m, advance_zero first, rfl⟩
    | 1 =>
      rw [advance_succ first]
      exact ⟨_, _, advance_zero (visit?_of_frames rfl), rfl⟩
    | left + 2 =>
      rw [advance_succ first]
      exact ih (m := { m with frames := .loop n [] line :: below }) rfl (by omega)

/-- The program that does nothing a number of times. -/
def emptyLoop (rounds : Nat) : Program := ⟨[.loop (.number rounds 1) [] 1], 1⟩

/-- `interpret` of an `emptyLoop` leaves the robot as it is. -/
theorem interpret_emptyLoop (rounds limit : Nat) {robot : Robot} (running : robot.done = false) :
    ((emptyLoop rounds).interpret limit robot).robot = robot := by
  have nonnegative : ¬ ((rounds : Int) < 0) := by omega
  have body : Stmt.interpretAll (Store.call limit limit) [] = Run.finish := by
    funext store
    rw [Stmt.interpretAll]
  rw [Program.interpret, running, if_neg Bool.false_ne_true, emptyLoop, Stmt.interpretAll,
    Stmt.interpret, Store.value]
  simp only [if_neg nonnegative, body, Run.rounds_finish, Run.finish_andThen]
  rfl

/-- The first `step` of an `emptyLoop` with many rounds uses up the budget. -/
theorem step_emptyLoop (rounds maxCallDepth left : Nat) {robot : Robot} (tracing : Bool)
    (running : robot.done = false) (short : left ≤ 2 * rounds) :
    (load robot ⟨maxCallDepth, left + 3⟩ tracing (emptyLoop (rounds + 1))).step.1.Exhausted
      (left + 3) := by
  let start := load robot ⟨maxCallDepth, left + 3⟩ tracing (emptyLoop (rounds + 1))
  let entered := { start with frames := [.block []] }.note (.enteredLoop (rounds + 1 : Nat) 1)
  have nonnegative : ¬ (((rounds + 1 : Nat) : Int) < 0) := by omega
  -- Three visits lead to the loop: to its statement, to its first round, and past that.
  have first : start.visit? = some (.moved { start with
      frames := [.stmt (.loop (.number (rounds + 1 : Nat) 1) [] 1), .block []] }) := rfl
  have second : visit? { start with
      frames := [.stmt (.loop (.number (rounds + 1 : Nat) 1) [] 1), .block []] } =
        some (.moved { entered with frames := [.block [], .loop rounds [] 1, .block []] }) := by
    rw [visit?_of_frames rfl, visitFrame, run, evaluate]
    dsimp only
    rw [if_neg nonnegative, Int.toNat_natCast]
    simp only [entered, note_eq]
  obtain ⟨place, m', failed, same⟩ := advance_emptyLoop
    (m := { entered with frames := [.loop rounds [] 1, .block []] }) rfl short
  have limits : entered.limits.stepBudget = left + 3 := by simp [entered, start, load, idle]
  have robots : m'.robot = robot := by rw [same]; simp [entered, start, load, idle]
  have step : start.step = conclude (.failed ⟨.budgetExceeded (left + 3), place, 0⟩ m') := by
    rw [step_eq_conclude running]
    change conclude (start.advance (left + 3)) = _
    rw [advance_succ first, Visit.advance, advance_succ second, Visit.advance,
      advance_succ (visit?_of_frames rfl), visitFrame, Visit.advance, failed, limits]
  rw [step]
  exact exhausted_fail (robots ▸ running) (left + 3) place

/-- **An `emptyLoop` that takes long is not run as `interpret` runs it.** It has more rounds than
the usual budget has visits, so no number of steps leaves the robot of the interpreter, which has
not failed. -/
theorem emptyLoop_not_refined :
    ¬ ∃ n, let robot := Robot.start ⟨[[.empty]]⟩ ⟨0, 0⟩ .north
      let stepped := (load robot {} false (emptyLoop 1048576)).stepTimes n
      stepped.1.hasMore = false ∧
        issued stepped.2 = ((emptyLoop 1048576).interpret 256 robot).issued ∧
        stepped.1.robot = ((emptyLoop 1048576).interpret 256 robot).robot := by
  rintro ⟨n, stopped, -, same⟩
  have running := Robot.done_start ⟨[[.empty]]⟩ ⟨0, 0⟩ .north
  have exhausted : ((load (Robot.start ⟨[[.empty]]⟩ ⟨0, 0⟩ .north) {} false
      (emptyLoop 1048576)).step.1).Exhausted 1048576 :=
    step_emptyLoop 1048575 256 1048573 false running (by omega)
  rw [interpret_emptyLoop _ _ running] at same
  cases n with
  | zero => cases stopped
  | succ n =>
    obtain ⟨-, place, failure⟩ := exhausted.stepTimes_succ rfl n
    rw [same] at failure
    cases failure

end Machine

end MazeRobot
