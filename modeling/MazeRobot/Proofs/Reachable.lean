import MazeRobot.Proofs.Passes

/-! # The machines of a run

A run of a program goes from machine to machine, visit by visit. What one visit can do is said once,
as rules for the innermost frame; whatever every rule keeps holds of all machines of a run, also of
those between the visits of one step.

* `Machine.Moves`, `Machine.Faults`: the rules of visits that go on and of visits that fail.
* `Machine.visit?_cases`: every visit follows a rule.
* `Machine.Reaches`: the machines of a run; `Machine.Reaches.preserves`: what the rules keep holds
  of all of them.
* `Machine.stepped`, `Machine.fault?`: the machine after some steps, and the fault with which the
  next step fails.
* `Machine.exists_visit_of_fault?`: a step fails in the visit of a machine of the run, or because
  its budget is used up.
* `Machine.Reaches.exists_reaches_stepped`: what is left after some steps, also if one failed. -/

namespace MazeRobot

/-! ## Faults of values and calls -/

namespace Store

variable {store : Store} {fault : Fault}

/-- `value` fails for an unknown variable or a missing expression. -/
theorem kind_of_value_eq_error {expr : Expr} (unknown : store.value expr = .error fault) :
    fault.kind = .undefinedVariable ∨ fault.kind = .unknownExpression := by
  cases expr with
  | number value line => cases unknown
  | var name line =>
    rw [value] at unknown
    cases found : store.scopes.get? name with
    | some value =>
      rw [found] at unknown
      cases unknown
    | none =>
      rw [found] at unknown
      cases unknown
      exact .inl rfl
  | distance line => cases unknown
  | missing =>
    cases unknown
    exact .inr rfl

/-- `values` fails with the fault of the first expression without a value. -/
theorem kind_of_values_eq_error {exprs : List Expr} (unknown : store.values exprs = .error fault) :
    fault.kind = .undefinedVariable ∨ fault.kind = .unknownExpression := by
  induction exprs with
  | nil => cases unknown
  | cons expr exprs ih =>
    rw [values] at unknown
    cases first : store.value expr with
    | error other =>
      rw [first] at unknown
      cases unknown
      exact kind_of_value_eq_error first
    | ok value =>
      rw [first] at unknown
      cases rest : store.values exprs with
      | error other =>
        rw [rest] at unknown
        cases unknown
        exact ih rest
      | ok values =>
        rw [rest] at unknown
        cases unknown

/-- `values` gives as many values as there are expressions. -/
theorem length_of_values_eq_ok {exprs : List Expr} {values : List Int}
    (evaluated : store.values exprs = .ok values) : values.length = exprs.length := by
  induction exprs generalizing values with
  | nil =>
    cases evaluated
    rfl
  | cons expr exprs ih =>
    rw [Store.values] at evaluated
    cases first : store.value expr with
    | error other =>
      rw [first] at evaluated
      cases evaluated
    | ok value =>
      rw [first] at evaluated
      cases rest : store.values exprs with
      | error other =>
        rw [rest] at evaluated
        cases evaluated
      | ok others =>
        rw [rest] at evaluated
        cases evaluated
        rw [List.length_cons, List.length_cons, ih rest]

/-- Why `resolve` does not lead to a function with values for its parameters: the name is unknown,
an argument has no value, or there are too many or too few arguments. -/
theorem resolve_eq_error_cases {name : String} {arguments : List Expr} {line : Int}
    (unresolved : store.resolve name arguments line = .error fault) :
    (store.functions.find? (·.name = name) = none ∧ fault.kind = .unknownFunction) ∨
      fault.kind = .undefinedVariable ∨ fault.kind = .unknownExpression ∨
      ∃ f, store.functions.find? (·.name = name) = some f ∧
        arguments.length ≠ f.parameters.length ∧ fault.kind = .arityMismatch := by
  rw [resolve] at unresolved
  cases found : store.functions.find? (·.name = name) with
  | none =>
    rw [found] at unresolved
    cases unresolved
    exact .inl ⟨rfl, rfl⟩
  | some f =>
    rw [found] at unresolved
    cases evaluated : store.values arguments with
    | error other =>
      rw [evaluated] at unresolved
      cases unresolved
      exact .inr ((kind_of_values_eq_error evaluated).elim .inl fun missing => .inr (.inl missing))
    | ok values =>
      rw [evaluated] at unresolved
      dsimp only at unresolved
      by_cases arity : values.length = f.parameters.length
      · rw [if_pos arity] at unresolved
        cases unresolved
      · rw [if_neg arity] at unresolved
        cases unresolved
        rw [length_of_values_eq_ok evaluated] at arity
        exact .inr (.inr (.inr ⟨f, rfl, arity, rfl⟩))

end Store

namespace Machine

/-! ## What a visit can do -/

/-- The rules of visits that go on: the frames that take the place of the innermost one, the store
and the number of active calls afterwards. -/
inductive Moves (limits : Limits) (store : Store) (depth : Nat) :
    Frame → List Frame → Store → Nat → Prop
  /-- The next statement of a block goes on top of the rest of it. -/
  | blockNext (stmt : Stmt) (stmts : List Stmt) :
      Moves limits store depth (.block (stmt :: stmts)) [.ofStmt stmt, .block stmts] store depth
  /-- A block ends. -/
  | blockEnd : Moves limits store depth (.block []) [] store depth
  /-- The next statement of a body goes on top of the rest of it. -/
  | bodyNext (stmt : Stmt) (stmts : List Stmt) (function : String) (back : Nat) :
      Moves limits store depth (.body (stmt :: stmts) function back)
        [.ofStmt stmt, .body stmts function back] store depth
  /-- A call returns. -/
  | bodyEnd (function : String) (back : Nat) :
      Moves limits store depth (.body [] function back) []
        { store with scopes := store.scopes.popTo back } (depth - 1)
  /-- A loop starts another round. -/
  | round (n : Nat) (body : List Stmt) (line : Int) :
      Moves limits store depth (.loop (n + 1) body line) [.block body, .loop n body line] store
        depth
  /-- A loop ends. -/
  | roundsEnd (body : List Stmt) (line : Int) :
      Moves limits store depth (.loop 0 body line) [] store depth
  /-- A loop has no rounds. -/
  | loopNone {count : Expr} (body : List Stmt) (line : Int) (evaluated : store.value count = .ok 0) :
      Moves limits store depth (.stmt (.loop count body line)) [] store depth
  /-- A loop starts its first round. -/
  | loop {count : Expr} {n : Nat} (body : List Stmt) (line : Int)
      (evaluated : store.value count = .ok (n + 1 : Nat)) :
      Moves limits store depth (.stmt (.loop count body line)) [.block body, .loop n body line]
        store depth
  /-- A conditional without a condition does nothing. -/
  | branchNone (body : List Stmt) (line : Int) :
      Moves limits store depth (.stmt (.branch none body line)) [] store depth
  /-- The condition of a conditional holds. -/
  | branchTaken {condition : Condition} (body : List Stmt) (line : Int)
      (holds : (store.test condition).2 = true) :
      Moves limits store depth (.stmt (.branch (some condition) body line)) [.block body]
        (store.test condition).1 depth
  /-- The condition of a conditional does not hold. -/
  | branchSkipped {condition : Condition} (body : List Stmt) (line : Int)
      (fails : (store.test condition).2 = false) :
      Moves limits store depth (.stmt (.branch (some condition) body line)) []
        (store.test condition).1 depth
  /-- A name is bound in the innermost scope. -/
  | assign {expr : Expr} {value : Int} (name : String) (line : Int)
      (evaluated : store.value expr = .ok value) :
      Moves limits store depth (.stmt (.assign name expr line)) []
        { store with scopes := store.scopes.assign name value } depth
  /-- A definition is added to the known functions. -/
  | define (name : String) (parameters : List String) (body : List Stmt) (line : Int) :
      Moves limits store depth (.stmt (.define name parameters body line)) []
        { store with
          functions := FunctionDef.insert ⟨name, parameters, body, line⟩ store.functions } depth
  /-- A function is entered. -/
  | call {name : String} {arguments : List Expr} {f : FunctionDef} {values : List Int}
      (implicit : Bool) (line : Int)
      (resolved : store.resolve name arguments line = .ok (f, values))
      (shallow : depth < limits.maxCallDepth) :
      Moves limits store depth (.stmt (.call name arguments implicit line))
        [.body f.body f.name store.scopes.depth]
        { store with scopes := store.scopes.push (.ofArguments f.parameters values) } (depth + 1)
  /-- A nested block becomes a frame of its own. -/
  | block (body : List Stmt) (line : Int) :
      Moves limits store depth (.stmt (.block body line)) [.block body] store depth
  /-- A missing statement does nothing. -/
  | missing : Moves limits store depth (.stmt .missing) [] store depth

/-- The rules of visits that fail: the statement on top and the fault. -/
inductive Faults (limits : Limits) (store : Store) (depth : Nat) : Stmt → Fault → Prop
  /-- The count of a loop has no value. -/
  | count {count : Expr} {fault : Fault} (body : List Stmt) (line : Int)
      (unknown : store.value count = .error fault) :
      Faults limits store depth (.loop count body line) fault
  /-- The count of a loop is negative. -/
  | negative {count : Expr} {value : Int} (body : List Stmt) (line : Int)
      (evaluated : store.value count = .ok value) (negative : value < 0) :
      Faults limits store depth (.loop count body line) ⟨.negativeCount value, line, 0⟩
  /-- The value to be assigned is unknown. -/
  | value {expr : Expr} {fault : Fault} (name : String) (line : Int)
      (unknown : store.value expr = .error fault) :
      Faults limits store depth (.assign name expr line) fault
  /-- A call does not lead to a function with values for its parameters. -/
  | unresolved {name : String} {arguments : List Expr} {fault : Fault} (implicit : Bool)
      (line : Int) (unresolved : store.resolve name arguments line = .error fault) :
      Faults limits store depth (.call name arguments implicit line) fault
  /-- A call nests too deeply. -/
  | tooDeep {name : String} {arguments : List Expr} {f : FunctionDef} {values : List Int}
      (implicit : Bool) (line : Int)
      (resolved : store.resolve name arguments line = .ok (f, values))
      (deep : limits.maxCallDepth ≤ depth) :
      Faults limits store depth (.call name arguments implicit line)
        ⟨.callTooDeep limits.maxCallDepth f.name, line, 0⟩

/-- No visit `Faults` for lack of budget. -/
theorem Faults.kind_ne_stepBudgetExceeded {limits : Limits} {store : Store} {depth : Nat}
    {stmt : Stmt} {fault : Fault} (faults : Faults limits store depth stmt fault) :
    fault.kind ≠ .stepBudgetExceeded := by
  cases faults with
  | count body line unknown =>
    rcases Store.kind_of_value_eq_error unknown with kind | kind <;> rw [kind] <;> decide
  | negative body line evaluated negative => exact fun kind => nomatch kind
  | value name line unknown =>
    rcases Store.kind_of_value_eq_error unknown with kind | kind <;> rw [kind] <;> decide
  | unresolved implicit line unresolved =>
    rcases Store.resolve_eq_error_cases unresolved with ⟨-, kind⟩ | kind | kind | ⟨f, -, -, kind⟩ <;>
      rw [kind] <;> decide
  | tooDeep implicit line resolved deep => exact fun kind => nomatch kind

/-- Whether the visit of a frame, which has been taken off the stack of a machine, follows a
rule. -/
def FollowsRule (m : Machine) (top : Frame) : Visit → Prop
  | .moved m' => ∃ pushed store depth,
      Moves m.limits m.store m.callDepth top pushed store depth ∧
        m'.At (pushed ++ m.frames) store depth m.limits
  | .command kind line m' => top = .stmt (.command kind line) ∧ m' = m
  | .failed fault m' => ∃ stmt,
      top = .stmt stmt ∧ Faults m.limits m.store m.callDepth stmt fault ∧ m' = m

/-- `enter` follows a rule. -/
theorem followsRule_enter (m : Machine) (name : String) (arguments : List Expr) (implicit : Bool)
    (line : Int) :
    FollowsRule m (.stmt (.call name arguments implicit line)) (m.enter name arguments line) := by
  rw [enter_eq_resolve]
  cases resolved : m.store.resolve name arguments line with
  | error fault => exact ⟨_, rfl, .unresolved implicit line resolved, rfl⟩
  | ok found =>
    obtain ⟨f, values⟩ := found
    dsimp only
    by_cases deep : m.limits.maxCallDepth ≤ m.callDepth
    · rw [if_pos deep]
      exact ⟨_, rfl, .tooDeep implicit line resolved deep, rfl⟩
    · rw [if_neg deep, entered, note_eq]
      exact ⟨_, _, _, .call implicit line resolved (Nat.lt_of_not_le deep), rfl, rfl, rfl, rfl⟩

/-- `run` of a loop follows a rule. -/
theorem followsRule_loop (m : Machine) (count : Expr) (body : List Stmt) (line : Int) :
    FollowsRule m (.stmt (.loop count body line)) (m.run (.loop count body line)) := by
  rw [run, evaluate_eq_value]
  cases evaluated : m.store.value count with
  | error fault => exact ⟨_, rfl, .count body line evaluated, rfl⟩
  | ok value =>
    dsimp only
    by_cases negative : value < 0
    · rw [if_pos negative]
      exact ⟨_, rfl, .negative body line evaluated negative, rfl⟩
    · rw [if_neg negative, note_eq]
      -- A count that is not negative is a natural number.
      obtain ⟨n, rfl⟩ := Int.eq_ofNat_of_zero_le (Int.not_lt.mp negative)
      cases n with
      | zero => exact ⟨_, _, _, .loopNone body line evaluated, rfl, rfl, rfl, rfl⟩
      | succ n => exact ⟨_, _, _, .loop body line evaluated, rfl, rfl, rfl, rfl⟩

/-- `run` of a conditional follows a rule. -/
theorem followsRule_branch (m : Machine) (condition : Option Condition) (body : List Stmt)
    (line : Int) :
    FollowsRule m (.stmt (.branch condition body line)) (m.run (.branch condition body line)) := by
  cases condition with
  | none => exact ⟨_, _, _, .branchNone body line, rfl, rfl, rfl, rfl⟩
  | some condition =>
    simp only [run, ask_eq_test]
    cases holds : (m.store.test condition).2 with
    | true => exact ⟨_, _, _, .branchTaken body line holds, rfl, rfl, rfl, rfl⟩
    | false => exact ⟨_, _, _, .branchSkipped body line holds, rfl, rfl, rfl, rfl⟩

/-- `run` of a statement follows a rule. -/
theorem followsRule_run (m : Machine) (stmt : Stmt) : FollowsRule m (.stmt stmt) (m.run stmt) := by
  cases stmt with
  | block body line => exact ⟨_, _, _, .block body line, rfl, rfl, rfl, rfl⟩
  | command kind line => exact ⟨rfl, rfl⟩
  | loop count body line => exact followsRule_loop m count body line
  | branch condition body line => exact followsRule_branch m condition body line
  | assign name value line =>
    rw [run, evaluate_eq_value]
    cases evaluated : m.store.value value with
    | error fault => exact ⟨_, rfl, .value name line evaluated, rfl⟩
    | ok value => exact ⟨_, _, _, .assign name line evaluated, rfl, rfl, rfl, rfl⟩
  | define name parameters body line =>
    exact ⟨_, _, _, .define name parameters body line, rfl, rfl, rfl, rfl⟩
  | call name arguments implicit line =>
    exact followsRule_enter m name arguments implicit line
  | missing => exact ⟨_, _, _, .missing, rfl, rfl, rfl, rfl⟩

/-- `visitFrame` follows a rule. -/
theorem followsRule_visitFrame (m : Machine) (top : Frame) :
    FollowsRule m top (visitFrame m top) := by
  cases top with
  | block stmts =>
    cases stmts with
    | nil => exact ⟨_, _, _, .blockEnd, rfl, rfl, rfl, rfl⟩
    | cons stmt stmts => exact ⟨_, _, _, .blockNext stmt stmts, rfl, rfl, rfl, rfl⟩
  | body stmts function back =>
    cases stmts with
    | nil =>
      rw [visitFrame, note_eq]
      exact ⟨_, _, _, .bodyEnd function back, rfl, rfl, rfl, rfl⟩
    | cons stmt stmts =>
      exact ⟨_, _, _, .bodyNext stmt stmts function back, rfl, rfl, rfl, rfl⟩
  | stmt stmt => exact followsRule_run m stmt
  | loop remaining body line =>
    cases remaining with
    | zero => exact ⟨_, _, _, .roundsEnd body line, rfl, rfl, rfl, rfl⟩
    | succ n => exact ⟨_, _, _, .round n body line, rfl, rfl, rfl, rfl⟩

/-- **Every visit `FollowsRule`.** -/
theorem visit?_cases {m : Machine} {v : Visit} (visit : m.visit? = some v) :
    ∃ top below, m.frames = top :: below ∧ FollowsRule { m with frames := below } top v := by
  unfold visit? at visit
  cases frames : m.frames with
  | nil =>
    rw [frames] at visit
    cases visit
  | cons top below =>
    rw [frames] at visit
    cases visit
    exact ⟨top, below, rfl, followsRule_visitFrame { m with frames := below } top⟩

/-! ## The machines of a run -/

/-- The machines that a run comes to, visit by visit, as long as no visit fails. -/
inductive Reaches (start : Machine) : Machine → Prop
  /-- The run starts. -/
  | start : Reaches start start
  /-- A visit goes on. -/
  | moved {m m' : Machine} (reached : Reaches start m) (running : m.robot.done = false)
      (visit : m.visit? = some (.moved m')) : Reaches start m'
  /-- A visit brings up a command, which the robot gets. -/
  | command {m m' : Machine} {kind : Command} {line : Int} (reached : Reaches start m)
      (running : m.robot.done = false) (visit : m.visit? = some (.command kind line m')) :
      Reaches start (m'.obey kind)

namespace Reaches

variable {start m : Machine}

/-- The limits stay the same in all machines that a run `Reaches`. -/
theorem limits_eq (reached : Reaches start m) : m.limits = start.limits := by
  induction reached with
  | start => rfl
  | moved _ _ visit ih => exact (visit?_keeps visit).1.trans ih
  | command _ _ visit ih => exact (visit?_keeps visit).1.trans ih

/-- **What the rules keep holds of all machines that a run `Reaches`.** -/
theorem preserves {P : List Frame → Store → Nat → Prop}
    (initial : P start.frames start.store start.callDepth)
    (moves : ∀ {top below pushed store depth store' depth'},
      Moves start.limits store depth top pushed store' depth' → P (top :: below) store depth →
        P (pushed ++ below) store' depth')
    (command : ∀ {kind line below store depth}, P (.stmt (.command kind line) :: below) store depth →
      P below { store with robot := (store.robot.perform kind).1 } depth)
    (reached : Reaches start m) : P m.frames m.store m.callDepth := by
  induction reached with
  | start => exact initial
  | @moved m m' reached _ visit ih =>
    obtain ⟨top, below, frames, pushed, store, depth, rule, there⟩ := visit?_cases visit
    rw [frames] at ih
    rw [there.frames, there.store, there.depth]
    exact moves (reached.limits_eq ▸ rule) ih
  | @command m m' kind line _ _ visit ih =>
    obtain ⟨top, below, frames, rfl, rfl⟩ := visit?_cases visit
    rw [frames] at ih
    exact command ih

end Reaches

/-! ## Steps -/

/-- The machine after some steps, whether or not it may go on. -/
def stepped (m : Machine) : Nat → Machine
  | 0 => m
  | n + 1 => m.step.1.stepped n

/-- The fault with which the next step fails, if it does. -/
def fault? (m : Machine) : Option Fault :=
  if m.robot.done then none
  else
    match m.advance m.limits.stepBudget with
    | .failed fault _ => some fault
    | _ => none

/-- A machine without `hasMore` stays as it is, without a fault. -/
theorem step_of_hasMore_eq_false {m : Machine} (no : m.hasMore = false) :
    m.step = (m, .nothing) ∧ m.fault? = none := by
  cases ended : m.robot.done with
  | true => exact ⟨by rw [step, if_pos ended], by rw [fault?, if_pos ended]⟩
  | false =>
    have none : m.frames = [] := by simpa [hasMore, ended] using no
    have nowhere := advance_of_frames_eq_nil none m.limits.stepBudget
    exact ⟨by rw [step_eq_conclude ended, nowhere, conclude], by rw [fault?, ended, nowhere]; rfl⟩

/-- `fault?` is the fault of `advance` up to the next command. -/
theorem fault?_eq_some_iff {m : Machine} {fault : Fault} :
    m.fault? = some fault ↔
      m.robot.done = false ∧ ∃ m', m.advance m.limits.stepBudget = .failed fault m' := by
  unfold fault?
  cases m.robot.done with
  | true => simp
  | false => cases m.advance m.limits.stepBudget <;> simp

/-- What running up to the next command leads to in a run: a machine of the run with nothing left,
the command that comes up in a visit of one, or the fault of such a visit. A fault may also tell
that the budget is used up. -/
def Continues (start : Machine) : Advance → Prop
  | .ended m => Reaches start m ∧ m.robot.done = false ∧ m.frames = []
  | .command kind line m =>
    ∃ last, Reaches start last ∧ last.robot.done = false ∧
      last.visit? = some (.command kind line m)
  | .failed fault m =>
    ∃ last, Reaches start last ∧ last.robot.done = false ∧
      (fault.kind = .stepBudgetExceeded ∧ m = last ∨ last.visit? = some (.failed fault m))

/-- `advance` stays in the run: it `Continues` it. -/
theorem Reaches.continues_advance {start m : Machine} (reached : Reaches start m)
    (running : m.robot.done = false) (left : Nat) : Continues start (m.advance left) := by
  induction m, left using advance_induction with
  | ended m left none advanced =>
    rw [advanced]
    exact ⟨reached, running, none⟩
  | spent m v visit advanced =>
    rw [advanced]
    exact ⟨m, reached, running, .inl ⟨rfl, rfl⟩⟩
  | moved m left next visit advanced ih =>
    rw [advanced]
    exact ih (.moved reached running visit) ((visit?_keeps visit).2.trans running)
  | command m left kind line next visit advanced =>
    rw [advanced]
    exact ⟨m, reached, running, visit⟩
  | failed m left fault next visit advanced =>
    rw [advanced]
    exact ⟨m, reached, running, .inr visit⟩

/-- A `step` without a `fault?` stays in the run. -/
theorem Reaches.step {start m : Machine} (reached : Reaches start m) (fine : m.fault? = none) :
    Reaches start m.step.1 := by
  cases running : m.robot.done with
  | true =>
    rw [Machine.step, if_pos running]
    exact reached
  | false =>
    have continues := reached.continues_advance running m.limits.stepBudget
    rw [step_eq_conclude running]
    cases advanced : m.advance m.limits.stepBudget with
    | ended m' =>
      rw [advanced] at continues
      exact continues.1
    | command kind line m' =>
      rw [advanced] at continues
      obtain ⟨last, there, on, visit⟩ := continues
      exact .command there on visit
    | failed fault m' =>
      have failed : m.fault? = some fault := fault?_eq_some_iff.mpr ⟨running, m', advanced⟩
      rw [fine] at failed
      cases failed

/-- A `step` with a `fault?` leaves a machine without `hasMore`. -/
theorem hasMore_step_of_fault? {m : Machine} {fault : Fault} (failed : m.fault? = some fault) :
    m.step.1.hasMore = false := by
  obtain ⟨running, m', advanced⟩ := fault?_eq_some_iff.mp failed
  rw [step_eq_conclude running, advanced, conclude, hasMore, frames_fail]
  rfl

/-- `stepped` leaves a machine without `hasMore` as it is. -/
theorem stepped_of_hasMore_eq_false {m : Machine} (no : m.hasMore = false) (n : Nat) :
    m.stepped n = m := by
  induction n with
  | zero => rfl
  | succ n ih => rw [stepped, (step_of_hasMore_eq_false no).1, ih]

/-- `stepped` stays in the run, or has come to a machine without `hasMore`. -/
theorem Reaches.stepped {start m : Machine} (reached : Reaches start m) (n : Nat) :
    Reaches start (m.stepped n) ∨ (m.stepped n).hasMore = false := by
  induction n generalizing m with
  | zero => exact .inl reached
  | succ n ih =>
    cases failed : m.fault? with
    | none => exact ih (reached.step failed)
    | some fault =>
      have no := hasMore_step_of_fault? failed
      refine .inr ?_
      rw [Machine.stepped, stepped_of_hasMore_eq_false no]
      exact no

/-- `stepped` stays in the run as long as there is no `fault?`. -/
theorem Reaches.stepped_of_fault? {start m : Machine} (reached : Reaches start m) {n : Nat}
    (fine : ∀ k < n, (m.stepped k).fault? = none) : Reaches start (m.stepped n) := by
  induction n generalizing m with
  | zero => exact reached
  | succ n ih =>
    refine ih (reached.step (fine 0 (Nat.succ_pos n))) fun k less => ?_
    exact fine (k + 1) (Nat.succ_lt_succ less)

/-- **A `fault?` arises in the visit of a machine of the run**, or because the budget is used up. -/
theorem exists_visit_of_fault? {start : Machine} {n : Nat} {fault : Fault}
    (failed : (start.stepped n).fault? = some fault) :
    fault.kind = .stepBudgetExceeded ∨
      ∃ m m', Reaches start m ∧ m.visit? = some (.failed fault m') := by
  have first : Reaches start start := .start
  rcases first.stepped n with reached | no
  · obtain ⟨running, m', advanced⟩ := fault?_eq_some_iff.mp failed
    have continues := reached.continues_advance running (start.stepped n).limits.stepBudget
    rw [advanced] at continues
    obtain ⟨last, there, -, ⟨kind, -⟩ | visit⟩ := continues
    · exact .inl kind
    · exact .inr ⟨last, m', there, visit⟩
  · rw [(step_of_hasMore_eq_false no).2] at failed
    cases failed

/-- `advance` fails with the store of a machine of the run. -/
theorem Reaches.exists_store_of_failed {start m m' : Machine} {fault : Fault} {left : Nat}
    (reached : Reaches start m) (running : m.robot.done = false)
    (failed : m.advance left = .failed fault m') :
    ∃ last, Reaches start last ∧ m'.store = last.store := by
  have continues := reached.continues_advance running left
  rw [failed] at continues
  obtain ⟨last, there, -, ⟨-, rfl⟩ | visit⟩ := continues
  · exact ⟨_, there, rfl⟩
  · obtain ⟨top, below, -, stmt, -, -, rfl⟩ := visit?_cases visit
    exact ⟨last, there, rfl⟩

/-- `step` leaves the scopes and the functions of a machine of the run, and its robot, which may
have failed. -/
theorem Reaches.exists_reaches_step {start m : Machine} (reached : Reaches start m) :
    ∃ last, Reaches start last ∧ m.step.1.scopes = last.scopes ∧
      m.step.1.functions = last.functions ∧
      (m.step.1.robot = last.robot ∨ ∃ message, m.step.1.robot = last.robot.fail message) := by
  cases failed : m.fault? with
  | none => exact ⟨_, reached.step failed, rfl, rfl, .inl rfl⟩
  | some fault =>
    obtain ⟨running, m', advanced⟩ := fault?_eq_some_iff.mp failed
    obtain ⟨last, there, same⟩ := reached.exists_store_of_failed running advanced
    have robot : m'.robot = last.robot := congrArg Store.robot same
    rw [step_eq_conclude running, advanced, conclude, fail, note_eq]
    refine ⟨last, there, congrArg Store.scopes same, congrArg Store.functions same, .inr ?_⟩
    exact ⟨fault.detail, congrArg (·.fail fault.detail) robot⟩

/-- `stepped` leaves the scopes and the functions of a machine of the run, and its robot, which may
have failed. -/
theorem Reaches.exists_reaches_stepped {start m : Machine} (reached : Reaches start m) (n : Nat) :
    ∃ last, Reaches start last ∧ (m.stepped n).scopes = last.scopes ∧
      (m.stepped n).functions = last.functions ∧
      ((m.stepped n).robot = last.robot ∨
        ∃ message, (m.stepped n).robot = last.robot.fail message) := by
  induction n generalizing m with
  | zero => exact ⟨m, reached, rfl, rfl, .inl rfl⟩
  | succ n ih =>
    rw [Machine.stepped]
    cases failed : m.fault? with
    | none => exact ih (reached.step failed)
    | some fault =>
      -- A step with a fault is the last one that changes anything.
      rw [stepped_of_hasMore_eq_false (hasMore_step_of_fault? failed)]
      exact reached.exists_reaches_step

end Machine

end MazeRobot
