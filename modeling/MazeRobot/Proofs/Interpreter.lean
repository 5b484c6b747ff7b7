import MazeRobot.Machine.Basic

/-! # A recursive interpreter

What a program means, said without frames: a statement runs to its end before the next one starts,
a loop runs its body over and over, and a call runs the body of its function inside the call. A run
gives the commands in the order in which the robot gets them, and says how it ended.

* `Store`: what a running program reads and changes.
* `Run`: the commands of a piece of a program and its ending; `Run.andThen` puts two in a row.
* `Stmt.interpret`, `Stmt.interpretAll`: the run of a statement and of a sequence, for a given
  meaning of calls.
* `Store.call`: the meaning of calls that may nest up to a limit.
* `Program.interpret`: the run of a program. -/

namespace MazeRobot

/-- What a running program reads and changes. -/
structure Store where
  /-- The robot. -/
  robot : Robot
  /-- The functions known so far. -/
  functions : List FunctionDef
  /-- The values of the variables. -/
  scopes : Scopes

/-- The scopes without the innermost one of a call. -/
def Scopes.pop (scopes : Scopes) : Scopes := { scopes with locals := scopes.locals.tail }

/-- `Scopes.popTo` the number of scopes before a call drops the scope of the call. -/
theorem Scopes.popTo_eq_pop {scopes : Scopes} {depth : Nat} (deeper : scopes.depth = depth + 1) :
    scopes.popTo depth = scopes.pop := by
  have one : scopes.locals.length - (depth - 1) = 1 ∨ scopes.locals = [] := by
    rw [Scopes.depth] at deeper
    rcases Nat.eq_zero_or_pos scopes.locals.length with none | some
    · exact .inr (List.length_eq_zero_iff.mp none)
    · exact .inl (by omega)
  rcases one with one | none
  · rw [Scopes.popTo, one, Scopes.pop, List.drop_one]
  · rw [Scopes.popTo, Scopes.pop, none, List.drop_nil, List.tail_nil]

/-- `Scopes.assign` keeps the number of scopes. -/
@[simp] theorem Scopes.depth_assign (scopes : Scopes) (name : String) (value : Int) :
    (scopes.assign name value).depth = scopes.depth := by
  unfold Scopes.assign
  split
  · rfl
  · next outer => simp [Scopes.depth, outer]

/-- `Scopes.pop` takes one off the number of scopes. -/
theorem Scopes.depth_pop {scopes : Scopes} {depth : Nat} (deeper : scopes.depth = depth + 2) :
    scopes.pop.depth = depth + 1 := by
  simp only [Scopes.depth, Scopes.pop, List.length_tail] at deeper ⊢
  omega

namespace Store

/-- The value of an expression. -/
def value (store : Store) : Expr → Except Fault Int
  | .number value _ => .ok value
  | .var name line =>
    match store.scopes.get? name with
    | some value => .ok value
    | none => .error ⟨.undefinedVariable name store.scopes.visible, line, 0⟩
  | .distance _ => .ok store.robot.distanceToGoal
  | .missing => .error ⟨.missingExpression, 0, 0⟩

/-- The values of expressions, from left to right; the first fault wins. -/
def values (store : Store) : List Expr → Except Fault (List Int)
  | [] => .ok []
  | expr :: exprs =>
    match store.value expr with
    | .error fault => .error fault
    | .ok value =>
      match store.values exprs with
      | .error fault => .error fault
      | .ok values => .ok (value :: values)

/-- `value` does not depend on what is known. -/
theorem value_withFunctions (store : Store) (functions : List FunctionDef) (expr : Expr) :
    ({ store with functions } : Store).value expr = store.value expr := by
  cases expr <;> rfl

/-- `values` does not depend on what is known. -/
theorem values_withFunctions (store : Store) (functions : List FunctionDef) (exprs : List Expr) :
    ({ store with functions } : Store).values exprs = store.values exprs := by
  induction exprs with
  | nil => rfl
  | cons expr exprs ih => rw [values, values, value_withFunctions, ih]

/-- The answer to a condition as the robot stands. A sensor remembers what it saw. -/
def test (store : Store) (condition : Condition) : Store × Bool :=
  let turns := condition.direction.quarterTurns
  let (robot, answer) := match condition.query with
    | .sensor => store.robot.sense turns
    | .closer => (store.robot, store.robot.isCloser turns)
  ({ store with robot }, if condition.negated then !answer else answer)

end Store

/-! ## Runs -/

/-- How a piece of a program ends. -/
inductive Ending where
  /-- It came to its end, and the program goes on with this store. -/
  | finished (store : Store)
  /-- The program is over, with the robot as it stands. -/
  | stopped (robot : Robot)

/-- What running a piece of a program does. -/
structure Run where
  /-- The commands, with their lines, in the order in which the robot got them. -/
  issued : List (Command × Int)
  /-- How the piece ended. -/
  ending : Ending

namespace Run

/-- Nothing happens. -/
def finish (store : Store) : Run := ⟨[], .finished store⟩

/-- The program fails. -/
def fault (store : Store) (fault : Fault) : Run := ⟨[], .stopped (store.robot.fail fault.detail)⟩

/-- One piece after another; the second one runs unless the first one ends the program. -/
def andThen (run : Run) (next : Store → Run) : Run :=
  match run.ending with
  | .finished store => ⟨run.issued ++ (next store).issued, (next store).ending⟩
  | .stopped _ => run

/-- A piece that runs a number of times in a row. -/
def rounds (piece : Store → Run) : Nat → Store → Run
  | 0, store => finish store
  | n + 1, store => (piece store).andThen (rounds piece n)

/-- The robot at the end. -/
def robot (run : Run) : Robot :=
  match run.ending with
  | .finished store => store.robot
  | .stopped robot => robot

/-- `finish` comes before the next piece without a trace. -/
@[simp] theorem finish_andThen (store : Store) (next : Store → Run) :
    (finish store).andThen next = next store := rfl

/-- `finish` may come after any piece. -/
theorem andThen_finish (run : Run) : run.andThen finish = run := by
  obtain ⟨issued, ending⟩ := run
  cases ending <;> simp [andThen, finish]

/-- `rounds` of a piece that does nothing does nothing. -/
theorem rounds_finish (n : Nat) (store : Store) : rounds finish n store = finish store := by
  induction n with
  | zero => rfl
  | succ n ih => rw [rounds, finish_andThen, ih]

end Run

/-! ## The interpreter -/

/-- The meaning of calls: what calling a name with arguments, on a line of the source, does. -/
abbrev Calling := String → List Expr → Int → Store → Run

namespace Stmt

mutual

/-- The run of a statement. A conditional without a condition, which no source gives, is passed over
as by `Machine.run`, and so is a missing statement. -/
def interpret (calling : Calling) : Stmt → Store → Run
  | block body _, store => interpretAll calling body store
  | command kind line, store =>
    let robot := (store.robot.perform kind).1
    ⟨[(kind, line)], if robot.done then .stopped robot else .finished { store with robot }⟩
  | loop count body line, store =>
    match store.value count with
    | .error fault => .fault store fault
    | .ok value =>
      if value < 0 then .fault store ⟨.negativeCount value, line, 0⟩
      else Run.rounds (interpretAll calling body) value.toNat store
  | branch none _ _, store => .finish store
  | branch (some condition) body _, store =>
    let (store, holds) := store.test condition
    if holds then interpretAll calling body store else .finish store
  | assign name value _, store =>
    match store.value value with
    | .error fault => .fault store fault
    | .ok value => .finish { store with scopes := store.scopes.assign name value }
  | define name parameters body line, store =>
    .finish { store with
      functions := FunctionDef.insert ⟨name, parameters, body, line⟩ store.functions }
  | call name arguments _ line, store => calling name arguments line store
  | missing, store => .finish store

/-- The run of a sequence of statements. -/
def interpretAll (calling : Calling) : List Stmt → Store → Run
  | [], store => .finish store
  | stmt :: stmts, store => (interpret calling stmt store).andThen (interpretAll calling stmts)

end

end Stmt

/-- The body of a function, run in a new scope that binds the parameters; the scope is dropped when
the body comes to its end. -/
def FunctionDef.apply (calling : Calling) (f : FunctionDef) (values : List Int) (store : Store) :
    Run :=
  let inner := { store with scopes := store.scopes.push (.ofArguments f.parameters values) }
  (Stmt.interpretAll calling f.body inner).andThen fun store =>
    .finish { store with scopes := store.scopes.pop }

/-- The function that a call enters and the values of its arguments. The name is looked up first,
then the arguments are evaluated in the scope of the call, and then they are counted. -/
def Store.resolve (store : Store) (name : String) (arguments : List Expr) (line : Int) :
    Except Fault (FunctionDef × List Int) :=
  match store.functions.find? (·.name = name) with
  | none => .error ⟨.unknownFunction name (store.functions.map (·.name)), line, 0⟩
  | some f =>
    match store.values arguments with
    | .error fault => .error fault
    | .ok values =>
      if values.length = f.parameters.length then .ok (f, values)
      else .error ⟨.arityMismatch f.name f.parameters.length values.length, line, 0⟩

/-- A call where calls may nest `remaining` deeper, out of a limit. The depth is checked last. -/
def Store.call (limit : Nat) : Nat → Calling
  | 0, name, arguments, line, store =>
    match store.resolve name arguments line with
    | .error fault => .fault store fault
    | .ok (f, _) => .fault store ⟨.callTooDeep limit f.name, line, 0⟩
  | remaining + 1, name, arguments, line, store =>
    match store.resolve name arguments line with
    | .error fault => .fault store fault
    | .ok (f, values) => f.apply (Store.call limit remaining) values store

/-! ## Runs keep the number of scopes -/

/-- Whether a run that comes to its end leaves the given number of scopes. -/
def Run.Leaves (run : Run) (depth : Nat) : Prop :=
  ∀ store, run.ending = .finished store → store.scopes.depth = depth

namespace Run

/-- `finish` leaves the scopes of its store. -/
theorem leaves_finish (store : Store) : (finish store).Leaves store.scopes.depth := by
  rintro _ ⟨⟩
  rfl

/-- `fault` does not come to its end, so it `Leaves` any number of scopes. -/
theorem leaves_fault (store : Store) (f : Fault) (depth : Nat) : (fault store f).Leaves depth := by
  rintro _ ⟨⟩

/-- `andThen` leaves the scopes of the second piece. -/
theorem leaves_andThen {run : Run} {next : Store → Run} {depth later : Nat}
    (first : run.Leaves depth)
    (second : ∀ store, store.scopes.depth = depth → (next store).Leaves later) :
    (run.andThen next).Leaves later := by
  intro store ended
  unfold andThen at ended
  split at ended
  · next middle finished => exact second middle (first middle finished) store ended
  · next robot stopped => rw [stopped] at ended; cases ended

/-- `rounds` of a piece that keeps the number of scopes keep it. -/
theorem leaves_rounds {piece : Store → Run} {depth : Nat}
    (keeps : ∀ store, store.scopes.depth = depth → (piece store).Leaves depth) (n : Nat)
    {store : Store} (start : store.scopes.depth = depth) : (rounds piece n store).Leaves depth := by
  induction n generalizing store with
  | zero => exact start ▸ leaves_finish store
  | succ n ih => exact leaves_andThen (keeps store start) fun store middle => ih middle

end Run

/-- Whether calls leave as many scopes as they find. -/
def Calling.KeepsScopes (calling : Calling) : Prop :=
  ∀ name arguments line store, (calling name arguments line store).Leaves store.scopes.depth

namespace Stmt

mutual

/-- `interpret` of a statement `Leaves` as many scopes as it finds, if calls do. -/
theorem interpret_leaves {calling : Calling} (keeps : calling.KeepsScopes) (stmt : Stmt)
    (store : Store) : (interpret calling stmt store).Leaves store.scopes.depth := by
  cases stmt with
  | block body line => exact interpretAll_leaves keeps body store
  | command kind line =>
    intro after ended
    simp only [interpret] at ended
    split at ended <;> cases ended
    rfl
  | loop count body line =>
    simp only [interpret]
    split
    · exact Run.leaves_fault _ _ _
    · split
      · exact Run.leaves_fault _ _ _
      · refine Run.leaves_rounds (fun inner same => ?_) _ rfl
        exact same ▸ interpretAll_leaves keeps body inner
  | branch condition body line =>
    cases condition with
    | none => exact Run.leaves_finish store
    | some condition =>
      simp only [interpret]
      split
      · exact interpretAll_leaves keeps body (store.test condition).1
      · exact Run.leaves_finish (store.test condition).1
  | assign name value line =>
    simp only [interpret]
    split
    · exact Run.leaves_fault _ _ _
    · next value _ =>
      exact Scopes.depth_assign store.scopes name value ▸ Run.leaves_finish
        { store with scopes := store.scopes.assign name value }
  | define name parameters body line => exact Run.leaves_finish { store with functions := _ }
  | call name arguments implicit line => exact keeps name arguments line store
  | missing => exact Run.leaves_finish store

/-- `interpretAll` of a sequence `Leaves` as many scopes as it finds, if calls do. -/
theorem interpretAll_leaves {calling : Calling} (keeps : calling.KeepsScopes) (stmts : List Stmt)
    (store : Store) : (interpretAll calling stmts store).Leaves store.scopes.depth := by
  cases stmts with
  | nil => exact Run.leaves_finish store
  | cons stmt stmts =>
    refine Run.leaves_andThen (interpret_leaves keeps stmt store) fun middle same => ?_
    exact same ▸ interpretAll_leaves keeps stmts middle

end

end Stmt

/-- The body of a function `Leaves` one scope more than the call finds, its own. -/
theorem FunctionDef.body_leaves {calling : Calling} (keeps : calling.KeepsScopes) (f : FunctionDef)
    (values : List Int) (store : Store) :
    (Stmt.interpretAll calling f.body
      { store with scopes := store.scopes.push (.ofArguments f.parameters values) }).Leaves
        (store.scopes.depth + 1) :=
  Stmt.interpretAll_leaves keeps f.body _

/-- `Store.call` leaves as many scopes as it finds. -/
theorem Store.call_keepsScopes (limit remaining : Nat) :
    Calling.KeepsScopes (Store.call limit remaining) := by
  induction remaining with
  | zero =>
    intro name arguments line store
    rw [Store.call]
    split <;> exact Run.leaves_fault _ _ _
  | succ remaining ih =>
    intro name arguments line store
    rw [Store.call]
    split
    · exact Run.leaves_fault _ _ _
    · next f values _ =>
      refine Run.leaves_andThen (f.body_leaves ih values store) fun inner deeper => ?_
      -- The scope of the call is the one that the body leaves on top.
      have back : inner.scopes.pop.depth = store.scopes.depth := Scopes.depth_pop deeper
      exact back ▸ Run.leaves_finish { inner with scopes := inner.scopes.pop }

/-! ## Programs -/

/-- The functions that a program defines at its top level, the latest definition of each name. -/
def Program.topLevelFunctions (program : Program) : List FunctionDef :=
  (program.body.filterMap Stmt.definition?).foldl (fun functions f => f.insert functions) []

/-- The store at the start of a program. -/
def Program.initialStore (program : Program) (robot : Robot) : Store :=
  ⟨robot, program.topLevelFunctions, .initial⟩

/-- The run of a program whose calls may nest up to a limit. A robot whose run is over moves no
more. -/
def Program.interpret (program : Program) (limit : Nat) (robot : Robot) : Run :=
  if robot.done then ⟨[], .stopped robot⟩
  else Stmt.interpretAll (Store.call limit limit) program.body (program.initialStore robot)

end MazeRobot
