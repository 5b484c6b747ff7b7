import MazeRobot.Proofs.Visits

/-! # What one visit does

Where a machine stands is told by its frames, its store, the number of its active calls and its
limits. From each kind of frame one visit leads to another such place, and leaves alone what is
below on the stack. The interpreter's values, answers and calls say where.

* `Machine.At`: where a machine stands in its program.
* `Machine.Passes`: the visits of a trace lead from a machine to a place.
* `Machine.At.passes_cons`, `Machine.At.passes_loop`, `Machine.At.passes_call` and the like: one
  visit for each kind of frame. -/

namespace MazeRobot

namespace Machine

/-- A machine with the given frames, store, number of active calls and limits. -/
structure At (m : Machine) (frames : List Frame) (store : Store) (depth : Nat) (limits : Limits) :
    Prop where
  /-- The frames. -/
  frames : m.frames = frames
  /-- The store. -/
  store : m.store = store
  /-- The number of active calls. -/
  depth : m.callDepth = depth
  /-- The limits. -/
  limits : m.limits = limits

/-- The visits of a trace lead a machine to the given frames, store, number of active calls and
limits. -/
def Passes (m : Machine) (trace : Trace) (frames : List Frame) (store : Store) (depth : Nat)
    (limits : Limits) : Prop :=
  ∃ last, Goes m trace last ∧ last.At frames store depth limits

/-! ## Values, conditions and calls -/

/-- `evaluate` of a machine is `value` of its store. -/
theorem evaluate_eq_value (m : Machine) (expr : Expr) : m.evaluate expr = m.store.value expr := by
  cases expr <;> rfl

/-- `evaluateAll` of a machine is `values` of its store. -/
theorem evaluateAll_eq_values (m : Machine) (exprs : List Expr) :
    m.evaluateAll exprs = m.store.values exprs := by
  induction exprs with
  | nil => rfl
  | cons expr exprs ih =>
    rw [evaluateAll, Store.values, evaluate_eq_value, ih]
    cases m.store.value expr with
    | error fault => rfl
    | ok value => cases m.store.values exprs <;> rfl

/-- `ask` of a robot is `test` of the store. -/
theorem ask_eq_test (m : Machine) (condition : Condition) :
    ask m.robot condition =
      ((m.store.test condition).1.robot, (m.store.test condition).2) := by
  obtain ⟨query, negated, direction, line⟩ := condition
  cases query <;> cases negated <;> simp [ask, Store.test, store]

/-- The machine inside a function that it has entered. -/
def entered (m : Machine) (f : FunctionDef) (values : List Int) : Machine :=
  { m with
    frames := .body f.body f.name m.scopes.depth :: m.frames
    scopes := m.scopes.push (.ofArguments f.parameters values)
    callDepth := m.callDepth + 1 }.note (.called f.name values.length (m.callDepth + 1))

/-- `enter` of a machine, told by `resolve` of its store. -/
theorem enter_eq_resolve (m : Machine) (name : String) (arguments : List Expr) (line : Int) :
    m.enter name arguments line =
      match m.store.resolve name arguments line with
      | .error fault => .failed fault m
      | .ok (f, values) =>
        if m.limits.maxCallDepth ≤ m.callDepth then
          .failed ⟨.callTooDeep m.limits.maxCallDepth f.name, line, 0⟩ m
        else .moved (m.entered f values) := by
  have table : m.function? name = m.store.functions.find? (·.name = name) := rfl
  rw [enter, Store.resolve, table, evaluateAll_eq_values]
  cases m.store.functions.find? (·.name = name) with
  | none => rfl
  | some f =>
    cases m.store.values arguments with
    | error fault => rfl
    | ok values =>
      by_cases arity : values.length = f.parameters.length
      · dsimp only
        rw [if_neg (not_not_intro arity), if_pos arity]
        rfl
      · dsimp only
        rw [if_pos arity, if_neg arity]

section Frames

variable {m : Machine} {frames below : List Frame} {store : Store} {depth : Nat} {limits : Limits}

/-- `evaluate` of an expression in the statement on top of the stack. -/
theorem At.evaluate_eq (here : m.At frames store depth limits) (expr : Expr) :
    evaluate { m with frames := below } expr = store.value expr := by
  rw [evaluate_eq_value]
  exact congrArg (·.value expr) here.store

/-- The robot of a machine that is `At` a store is that of the store. -/
theorem At.robot_eq (here : m.At frames store depth limits) : m.robot = store.robot :=
  congrArg Store.robot here.store

/-- The robot of a machine after `obey` of a command. -/
theorem At.robot_obey (here : m.At frames store depth limits) (kind : Command) :
    (obey { m with frames := below } kind).robot = (store.robot.perform kind).1 := by
  rw [← here.robot_eq]
  rfl

/-! ## Visits in a row -/

/-- `Passes` may be followed by more visits. -/
theorem Passes.trans {first second : Trace} {frames' : List Frame} {store' : Store} {depth' : Nat}
    (passes : Passes m first frames store depth limits)
    (on : ∀ {middle : Machine}, middle.At frames store depth limits →
      Passes middle second frames' store' depth' limits) :
    Passes m (first ++ second) frames' store' depth' limits := by
  obtain ⟨middle, goes, there⟩ := passes
  obtain ⟨last, goesOn, here⟩ := on there
  exact ⟨last, goes.trans goesOn, here⟩

/-- `Passes` by one visit without a command. -/
theorem Passes.moved {middle : Machine} (visit : m.visit? = some (.moved middle))
    (there : middle.At frames store depth limits) : Passes m [none] frames store depth limits :=
  ⟨middle, .moved visit (.stay middle), there⟩

/-! ## Frames -/

/-- A frame that runs a sequence of statements: a block, or the body of a function. -/
inductive Sequence : (List Stmt → Frame) → Prop
  /-- A block. -/
  | block : Sequence .block
  /-- The body of a function. -/
  | body (function : String) (back : Nat) : Sequence (.body · function back)

/-- The next statement of a `Sequence` goes on top of the rest of it. -/
theorem At.passes_cons {frame : List Stmt → Frame} (sequence : Sequence frame) {stmt : Stmt}
    {stmts : List Stmt} (here : m.At (frame (stmt :: stmts) :: below) store depth limits) :
    Passes m [none] (.ofStmt stmt :: frame stmts :: below) store depth limits := by
  have visit : m.visit? =
      some (.moved { m with frames := .ofStmt stmt :: frame stmts :: below }) := by
    rw [visit?_of_frames here.frames]
    cases sequence <;> rfl
  exact .moved visit ⟨rfl, here.store, here.depth, here.limits⟩

/-- `Passes` of an empty block: it is taken off the stack. -/
theorem At.passes_block_nil (here : m.At (.block [] :: below) store depth limits) :
    Passes m [none] below store depth limits :=
  .moved (visit?_of_frames here.frames) ⟨rfl, here.store, here.depth, here.limits⟩

/-- `Passes` of the end of a function's body: it drops the scope and counts the call off. -/
theorem At.passes_body_nil {function : String} {back : Nat}
    (here : m.At (.body [] function back :: below) store (depth + 1) limits)
    (deeper : store.scopes.depth = back + 1) :
    Passes m [none] below { store with scopes := store.scopes.pop } depth limits := by
  have visit := visit?_of_frames here.frames
  rw [visitFrame, note_eq] at visit
  refine .moved visit ⟨rfl, ?_, ?_, here.limits⟩
  · rw [← Scopes.popTo_eq_pop deeper, ← here.store]
    rfl
  · show m.callDepth - 1 = depth
    rw [here.depth, Nat.add_sub_cancel]

/-- `Passes` of a loop without rounds left: it is taken off the stack. -/
theorem At.passes_rounds_zero {body : List Stmt} {line : Int}
    (here : m.At (.loop 0 body line :: below) store depth limits) :
    Passes m [none] below store depth limits :=
  .moved (visit?_of_frames here.frames) ⟨rfl, here.store, here.depth, here.limits⟩

/-- `Passes` of a loop with rounds left: it starts one. -/
theorem At.passes_rounds_succ {n : Nat} {body : List Stmt} {line : Int}
    (here : m.At (.loop (n + 1) body line :: below) store depth limits) :
    Passes m [none] (.block body :: .loop n body line :: below) store depth limits :=
  .moved (visit?_of_frames here.frames) ⟨rfl, here.store, here.depth, here.limits⟩

/-! ## Statements -/

/-- `Passes` of a nested block: it becomes a frame of its own. -/
theorem At.passes_block {body : List Stmt} {line : Int}
    (here : m.At (.stmt (.block body line) :: below) store depth limits) :
    Passes m [none] (.block body :: below) store depth limits :=
  .moved (visit?_of_frames here.frames) ⟨rfl, here.store, here.depth, here.limits⟩

/-- `Passes` of an assignment with a value: it binds its name in the innermost scope. -/
theorem At.passes_assign {name : String} {expr : Expr} {value : Int} {line : Int}
    (here : m.At (.stmt (.assign name expr line) :: below) store depth limits)
    (evaluated : store.value expr = .ok value) :
    Passes m [none] below { store with scopes := store.scopes.assign name value } depth limits := by
  have visit : m.visit? = some (run { m with frames := below } (.assign name expr line)) :=
    visit?_of_frames here.frames
  rw [run, here.evaluate_eq expr, evaluated] at visit
  refine .moved visit ⟨rfl, ?_, here.depth, here.limits⟩
  rw [← here.store]
  rfl

/-- `Passes` of a definition: it is added to the known functions. -/
theorem At.passes_define {name : String} {parameters : List String} {body : List Stmt} {line : Int}
    (here : m.At (.stmt (.define name parameters body line) :: below) store depth limits) :
    Passes m [none] below
      { store with functions := FunctionDef.insert ⟨name, parameters, body, line⟩ store.functions }
      depth limits := by
  refine .moved (visit?_of_frames here.frames) ⟨rfl, ?_, here.depth, here.limits⟩
  rw [← here.store]
  rfl

/-- `Passes` of a loop whose count is not negative: it starts its first round, if there is one, in
the visit that evaluates the count. -/
theorem At.passes_loop {count : Expr} {value : Int} {body : List Stmt} {line : Int}
    (here : m.At (.stmt (.loop count body line) :: below) store depth limits)
    (evaluated : store.value count = .ok value) (nonnegative : ¬ value < 0) :
    Passes m [none]
      (match value.toNat with
        | 0 => below
        | n + 1 => .block body :: .loop n body line :: below) store depth limits := by
  have visit : m.visit? = some (run { m with frames := below } (.loop count body line)) :=
    visit?_of_frames here.frames
  rw [run, here.evaluate_eq count, evaluated] at visit
  dsimp only at visit
  rw [if_neg nonnegative, note_eq] at visit
  cases rounds : value.toNat with
  | zero =>
    rw [rounds] at visit
    exact .moved visit ⟨rfl, here.store, here.depth, here.limits⟩
  | succ n =>
    rw [rounds] at visit
    exact .moved visit ⟨rfl, here.store, here.depth, here.limits⟩

/-- `Passes` of a conditional without a condition: it does nothing. -/
theorem At.passes_branch_none {body : List Stmt} {line : Int}
    (here : m.At (.stmt (.branch none body line) :: below) store depth limits) :
    Passes m [none] below store depth limits :=
  .moved (visit?_of_frames here.frames) ⟨rfl, here.store, here.depth, here.limits⟩

/-- `Passes` of a conditional: it asks the robot as it stands, and starts its body if the condition
holds. -/
theorem At.passes_branch {condition : Condition} {body : List Stmt} {line : Int}
    (here : m.At (.stmt (.branch (some condition) body line) :: below) store depth limits) :
    Passes m [none] (if (store.test condition).2 then .block body :: below else below)
      (store.test condition).1 depth limits := by
  have asked : ask m.robot condition =
      ((store.test condition).1.robot, (store.test condition).2) :=
    here.store ▸ ask_eq_test m condition
  -- A test changes the robot of the store at most.
  have tested : { store with robot := (store.test condition).1.robot } =
      (store.test condition).1 := rfl
  have visit :
      m.visit? = some (run { m with frames := below } (.branch (some condition) body line)) :=
    visit?_of_frames here.frames
  simp only [run, asked] at visit
  refine .moved visit ⟨rfl, ?_, here.depth, here.limits⟩
  rw [← tested, ← here.store]
  rfl

/-- `Passes` of a command that does not end the run of the robot: it goes to the robot. -/
theorem At.passes_command {kind : Command} {line : Int}
    (here : m.At (.stmt (.command kind line) :: below) store depth limits)
    (running : (store.robot.perform kind).1.done = false) :
    Passes m [some (kind, line)] below { store with robot := (store.robot.perform kind).1 } depth
      limits := by
  have visit : m.visit? = some (.command kind line { m with frames := below }) :=
    visit?_of_frames here.frames
  have after : (obey { m with frames := below } kind).robot = _ := here.robot_obey kind
  refine ⟨_, .command visit (after ▸ running) (.stay _), rfl, ?_, here.depth, here.limits⟩
  rw [← here.store]
  rfl

/-- `Halts` after a command that ends the run of the robot: it is the last thing a machine does. -/
theorem At.halts_command {kind : Command} {line : Int}
    (here : m.At (.stmt (.command kind line) :: below) store depth limits)
    (ended : (store.robot.perform kind).1.done = true) :
    ∃ last, Halts m [some (kind, line)] last ∧ last.robot = (store.robot.perform kind).1 := by
  have visit : m.visit? = some (.command kind line { m with frames := below }) :=
    visit?_of_frames here.frames
  have after : (obey { m with frames := below } kind).robot = _ := here.robot_obey kind
  exact ⟨_, .stopped visit (after ▸ ended), after⟩

/-- `visit?` of a call: it fails, or the machine is inside the function. -/
theorem At.visit?_call {name : String} {arguments : List Expr} {implicit : Bool} {line : Int}
    (here : m.At (.stmt (.call name arguments implicit line) :: below) store depth limits) :
    m.visit? = some (
      match store.resolve name arguments line with
      | .error fault => .failed fault { m with frames := below }
      | .ok (f, values) =>
        if limits.maxCallDepth ≤ depth then
          .failed ⟨.callTooDeep limits.maxCallDepth f.name, line, 0⟩ { m with frames := below }
        else .moved (entered { m with frames := below } f values)) := by
  have visit : m.visit? = some (enter { m with frames := below } name arguments line) :=
    visit?_of_frames here.frames
  rw [visit, enter_eq_resolve, ← here.store, ← here.depth, ← here.limits]
  rfl

/-- `Passes` of a call within the limit: it leads into the body of the function, in a scope of its
own. -/
theorem At.passes_call {name : String} {arguments : List Expr} {implicit : Bool} {line : Int}
    {f : FunctionDef} {values : List Int}
    (here : m.At (.stmt (.call name arguments implicit line) :: below) store depth limits)
    (resolved : store.resolve name arguments line = .ok (f, values))
    (shallow : depth < limits.maxCallDepth) :
    Passes m [none] (.body f.body f.name store.scopes.depth :: below)
      { store with scopes := store.scopes.push (.ofArguments f.parameters values) } (depth + 1)
      limits := by
  have visit := here.visit?_call
  rw [resolved] at visit
  dsimp only at visit
  rw [if_neg (Nat.not_le.mpr shallow), entered, note_eq] at visit
  refine .moved visit ⟨?_, ?_, congrArg (· + 1) here.depth, here.limits⟩
  · rw [← here.store]
    rfl
  · rw [← here.store]
    rfl

end Frames

end Machine

end MazeRobot
