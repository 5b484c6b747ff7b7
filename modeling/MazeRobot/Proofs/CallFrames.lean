import Mathlib.Data.List.Induction
import MazeRobot.Proofs.Parts
import MazeRobot.Proofs.Scoping

/-! # A call leaves its callers alone

A function may loop, call others or itself, define functions and set names that its callers use.
None of this reaches the scopes and the frames of its callers: they lie below on the two stacks, and
what goes on above puts back what it took. So when the body of the call is taken off the stack,
everything below is as it was. Until then the function sees its own scope and the global one, and
the global one is as it was at the call.

* `Machine.ScopeEffect`: the four things that a visit can do to the scopes.
* `Machine.During`: the machines of a run while a call is active, with the names that the function
  itself has set.
* `Machine.Suspended`: how frames and scopes lie above those of the callers.
* `Machine.During.suspended`: they do so as long as the call is active.
* `Machine.call_invisible`: what a call leaves alone, and what it sees. -/

namespace MazeRobot

/-! ## Scopes from bindings -/

namespace Scope

/-- The scope that binds names to values, the later ones in place of the earlier ones. -/
def ofBindings (bindings : List (String × Int)) : Scope :=
  bindings.foldl (fun scope binding => scope.define binding.1 binding.2) empty

/-- `ofArguments` binds the parameters to the arguments: it is `ofBindings` of the pairs. -/
theorem ofArguments_eq (parameters : List String) (arguments : List Int) :
    ofArguments parameters arguments = ofBindings (parameters.zip arguments) := rfl

/-- `ofBindings` of one more binding is one more `define`. -/
theorem ofBindings_concat (bindings : List (String × Int)) (name : String) (value : Int) :
    ofBindings (bindings ++ [(name, value)]) = (ofBindings bindings).define name value := by
  rw [ofBindings, List.foldl_append]
  rfl

/-- `get?` finds in `ofBindings` the latest binding of a name. -/
theorem get?_ofBindings (bindings : List (String × Int)) (name : String) :
    (ofBindings bindings).get? name = bindings.reverse.lookup name := by
  induction bindings using List.reverseRecOn with
  | nil => rfl
  | append_singleton bindings binding ih =>
    obtain ⟨key, value⟩ := binding
    rw [ofBindings_concat, List.reverse_concat, List.lookup_cons]
    by_cases same : name = key
    · subst same
      simp
    · have differs : (name == key) = false := by simpa using same
      rw [get?_define_of_ne _ _ same, differs, ih]

end Scope

/-- `resolve` finds a value for each parameter. -/
theorem Store.length_of_resolve {store : Store} {name : String} {arguments : List Expr} {line : Int}
    {f : FunctionDef} {values : List Int}
    (resolved : store.resolve name arguments line = .ok (f, values)) :
    values.length = f.parameters.length := by
  obtain ⟨found, evaluated⟩ := resolve_eq_ok_cases resolved
  by_contra differ
  rw [resolve, found, evaluated] at resolved
  dsimp only at resolved
  rw [if_neg differ] at resolved
  cases resolved

namespace Machine

/-! ## What a visit does to the scopes -/

/-- The name that a frame sets and its value, where there are as many scopes as given. -/
def sets (store : Store) (depth : Nat) : Frame → List (String × Int)
  | .stmt (.assign name expr _) =>
    if store.scopes.depth = depth then (store.value expr).toOption.toList.map (name, ·) else []
  | _ => []

/-- `sets` of a call is empty: it binds no name of the caller. -/
@[simp] theorem sets_call (store : Store) (depth : Nat) (name : String) (arguments : List Expr)
    (implicit : Bool) (line : Int) :
    sets store depth (.stmt (.call name arguments implicit line)) = [] := rfl

/-- `sets` of the frame of a call is empty. -/
@[simp] theorem sets_body (store : Store) (depth : Nat) (rest : List Stmt) (function : String)
    (back : Nat) : sets store depth (.body rest function back) = [] := rfl

/-- What a visit does to the scopes: nothing, a name is set, a call adds one, or the end of a call
goes back. -/
inductive ScopeEffect (store : Store) : Frame → List Frame → Scopes → Prop
  /-- The scopes stay the same, and so do the calls among the frames. -/
  | none {top : Frame} {pushed : List Frame} (calls : backs pushed = backs [top])
      (unset : ∀ depth, sets store depth top = []) : ScopeEffect store top pushed store.scopes
  /-- A name is set in the innermost scope. -/
  | assign {name : String} {expr : Expr} {line : Int} {value : Int}
      (evaluated : store.value expr = .ok value) :
      ScopeEffect store (.stmt (.assign name expr line)) [] (store.scopes.assign name value)
  /-- A call adds a scope, and a frame that goes back to those before it. -/
  | call {name : String} {arguments : List Expr} {implicit : Bool} {line : Int} (f : FunctionDef)
      (scope : Scope) :
      ScopeEffect store (.stmt (.call name arguments implicit line))
        [.body f.body f.name store.scopes.depth] (store.scopes.push scope)
  /-- The end of a call goes back. -/
  | leave (function : String) (back : Nat) :
      ScopeEffect store (.body [] function back) [] (store.scopes.popTo back)

/-- A visit that `Moves` on has the `ScopeEffect` of its frame. -/
theorem Moves.scopeEffect {limits : Limits} {store store' : Store} {depth depth' : Nat} {top : Frame}
    {pushed : List Frame} (rule : Moves limits store depth top pushed store' depth') :
    ScopeEffect store top pushed store'.scopes := by
  cases rule with
  | blockNext stmt stmts =>
    exact .none (backs_cons_of_none (Frame.back?_ofStmt stmt) _) fun _ => rfl
  | bodyNext stmt stmts function back =>
    exact .none (backs_cons_of_none (Frame.back?_ofStmt stmt) _) fun _ => rfl
  | bodyEnd function back => exact .leave function back
  | assign name line evaluated => exact .assign evaluated
  | @call name arguments f values implicit line resolved shallow => exact .call f _
  | _ => exact .none rfl fun _ => rfl

/-! ## The machines of a call -/

/-- The machines of a run from the start of a call on, as long as there are more frames than the
given number of frames below the call, so that its body is still there. With them come the names
that the function itself has set and their values, oldest first: those that were set where the scope
of the call was the innermost one, which is so where there are as many scopes as given. -/
inductive During (below depth : Nat) (inside : Machine) : Machine → List (String × Int) → Prop
  /-- The function is entered. -/
  | entered : During below depth inside inside []
  /-- A visit goes on, and the body is still there. -/
  | moved {m m' : Machine} {top : Frame} {rest : List Frame} {set : List (String × Int)}
      (during : During below depth inside m set) (running : m.robot.done = false)
      (frames : m.frames = top :: rest) (visit : m.visit? = some (.moved m'))
      (still : below < m'.frames.length) :
      During below depth inside m' (set ++ sets m.store depth top)
  /-- A visit brings up a command, which the robot gets, and the body is still there. -/
  | command {m m' : Machine} {kind : Command} {line : Int} {set : List (String × Int)}
      (during : During below depth inside m set) (running : m.robot.done = false)
      (visit : m.visit? = some (.command kind line m')) (still : below < m'.frames.length) :
      During below depth inside (m'.obey kind) set

/-- The machines with which a call is over: a visit has taken its body off the stack. -/
def Returned (below depth : Nat) (inside m' : Machine) : Prop :=
  ∃ m set, During below depth inside m set ∧ m.robot.done = false ∧
    m.visit? = some (.moved m') ∧ m'.frames.length ≤ below

/-- The machines `During` a call are machines of the run. -/
theorem During.reaches {start inside m : Machine} {below depth : Nat} {set : List (String × Int)}
    (during : During below depth inside m set) (reached : Reaches start inside) :
    Reaches start m := by
  induction during with
  | entered => exact reached
  | moved _ running _ visit _ ih => exact .moved ih running visit
  | command _ running visit _ ih => exact .command ih running visit

/-! ## Frames and scopes above those of the callers -/

/-- Frames and scopes that lie above those of the callers: the body of the call above the frames,
and the scope of the call above the scopes, with as many scopes above as there are calls. -/
inductive Suspended (below : List Frame) (callers : Scopes) (function : String)
    (bindings : List (String × Int)) : List Frame → Scopes → Prop
  /-- What lies above is free, but there are as many calls as scopes. -/
  | above (frames : List Frame) (rest : List Stmt) (scopes : List Scope)
      (calls : (backs frames).length = scopes.length) :
      Suspended below callers function bindings
        (frames ++ .body rest function callers.depth :: below)
        ⟨callers.globals, scopes ++ .ofBindings bindings :: callers.locals⟩

namespace Suspended

variable {below : List Frame} {callers : Scopes} {function : String}
  {bindings : List (String × Int)}

/-- A stack on which the callers are `Suspended` has more frames than those below the call. -/
theorem length_lt {frames : List Frame} {scopes : Scopes}
    (suspended : Suspended below callers function bindings frames scopes) :
    below.length < frames.length := by
  cases suspended with
  | above frames rest scopes calls =>
    rw [List.length_append, List.length_cons]
    omega

/-- `assign` binds in the innermost scope; that is the scope of the call exactly if there is one
scope more than those of the callers. -/
theorem assign (frames : List Frame) (rest : List Stmt) {scopes : List Scope}
    (calls : (backs frames).length = scopes.length) (name : String) (value : Int) :
    let now : Scopes := ⟨callers.globals, scopes ++ .ofBindings bindings :: callers.locals⟩
    Suspended below callers function
      (bindings ++ if now.depth = callers.depth + 1 then [(name, value)] else [])
      (frames ++ .body rest function callers.depth :: below) (now.assign name value) := by
  intro now
  cases scopes with
  | nil =>
    have own : now.depth = callers.depth + 1 := rfl
    have after : now.assign name value = ⟨callers.globals,
        [] ++ .ofBindings (bindings ++ [(name, value)]) :: callers.locals⟩ := by
      rw [Scope.ofBindings_concat]
      rfl
    rw [if_pos own, after]
    exact .above frames rest [] calls
  | cons scope scopes =>
    have deeper : now.depth ≠ callers.depth + 1 := by
      simp only [now, Scopes.depth, List.length_append, List.length_cons]
      omega
    rw [if_neg deeper, List.append_nil]
    exact .above frames rest (scope.define name value :: scopes) calls

/-- The `ScopeEffect` of a frame above the body of the call leaves the scopes of the callers
alone. -/
theorem effect {limits : Limits} {top : Frame} {frames pushed : List Frame} {rest : List Stmt}
    {scopes : List Scope} {store : Store} {scopes' : Scopes} {depth : Nat}
    (effect : ScopeEffect store top pushed scopes')
    (nested : Nested limits (top :: (frames ++ .body rest function callers.depth :: below)) store
      depth)
    (now : store.scopes = ⟨callers.globals, scopes ++ .ofBindings bindings :: callers.locals⟩)
    (calls : (backs (top :: frames)).length = scopes.length) :
    Suspended below callers function (bindings ++ sets store (callers.depth + 1) top)
      (pushed ++ (frames ++ .body rest function callers.depth :: below)) scopes' := by
  cases effect with
  | none same unset =>
    rw [unset, List.append_nil, now, ← List.append_assoc]
    refine .above (pushed ++ frames) rest scopes ?_
    rw [backs_append, same, ← backs_append]
    exact calls
  | assign evaluated =>
    rw [sets, evaluated, now]
    exact assign frames rest calls _ _
  | call f scope =>
    rw [sets_call, List.append_nil, now]
    refine .above (.body f.body f.name _ :: frames) rest (scope :: scopes) ?_
    rw [backs_body, List.length_cons, List.length_cons]
    exact congrArg (· + 1) calls
  | leave function' back =>
    -- The call that ends lies above, so there is a scope above as well, and this is the one that
    -- goes.
    rw [nested.leave.2, sets_body, List.append_nil, now]
    rw [backs_body, List.length_cons] at calls
    cases scopes with
    | nil => cases calls
    | cons scope scopes => exact .above frames rest scopes (Nat.succ.inj calls)

/-- **A visit that `Moves` on leaves the callers `Suspended`**, their frames and scopes as they are,
until the body of the call is taken off the stack and just these are left. -/
theorem moves {limits : Limits} {top : Frame} {tail pushed : List Frame} {store store' : Store}
    {depth depth' : Nat} (rule : Moves limits store depth top pushed store' depth')
    (nested : Nested limits (top :: tail) store depth)
    (suspended : Suspended below callers function bindings (top :: tail) store.scopes) :
    Suspended below callers function (bindings ++ sets store (callers.depth + 1) top)
        (pushed ++ tail) store'.scopes ∨
      pushed ++ tail = below ∧ store'.scopes = callers := by
  generalize stack : top :: tail = frames at suspended
  generalize now : store.scopes = scopes at suspended
  cases suspended with
  | above frames rest scopes calls =>
    cases frames with
    | cons first frames =>
      cases stack
      exact .inl (effect rule.scopeEffect nested now calls)
    | nil =>
      -- The body of the call is on top: it goes on, or it has come to its end.
      cases stack
      obtain rfl : scopes = [] := List.length_eq_zero_iff.mp calls.symm
      cases rule with
      | bodyNext stmt stmts =>
        rw [sets_body, List.append_nil, now]
        refine .inl (.above [.ofStmt stmt] stmts [] ?_)
        rw [backs_cons_of_none (Frame.back?_ofStmt stmt)]
        rfl
      | bodyEnd =>
        refine .inr ⟨rfl, ?_⟩
        show store.scopes.popTo callers.depth = callers
        rw [now]
        exact Scopes.popTo_push callers (.ofBindings bindings)

/-- A command leaves the callers `Suspended`. -/
theorem command {kind : Command} {line : Int} {tail : List Frame} {scopes : Scopes}
    (suspended : Suspended below callers function bindings (.stmt (.command kind line) :: tail)
      scopes) : Suspended below callers function bindings tail scopes := by
  generalize stack : .stmt (.command kind line) :: tail = frames at suspended
  cases suspended with
  | above frames rest scopes calls =>
    cases frames with
    | nil => cases stack
    | cons first frames =>
      cases stack
      exact .above frames rest scopes calls

/-- Where the scope of the call is the innermost one, `get?` finds the value to which the function
bound the name last, and otherwise its global value. -/
theorem get?_eq {frames : List Frame} {scopes : Scopes}
    (suspended : Suspended below callers function bindings frames scopes)
    (own : scopes.depth = callers.depth + 1) (name : String) :
    scopes.get? name = (bindings.reverse.lookup name).or (callers.globals.get? name) := by
  cases suspended with
  | above frames rest scopes calls =>
    have none : scopes = [] := by
      simp only [Scopes.depth, List.length_append, List.length_cons] at own
      exact List.length_eq_zero_iff.mp (by omega)
    subst none
    rw [← Scope.get?_ofBindings]
    rfl

end Suspended

section Calls

variable {robot : Robot} {limits : Limits} {tracing : Bool} {program : Program}
  {inside m m' : Machine} {below : List Frame} {callers : Scopes} {function : String}
  {bindings set : List (String × Int)}

/-- **`During` a call the callers are `Suspended`**: its frames and scopes lie above theirs. -/
theorem During.suspended (during : During below.length (callers.depth + 1) inside m set)
    (reached : (load robot limits tracing program).Reaches inside)
    (start : Suspended below callers function bindings inside.frames inside.scopes) :
    Suspended below callers function (bindings ++ set) m.frames m.scopes := by
  induction during with
  | entered =>
    rw [List.append_nil]
    exact start
  | @moved m m' top tail set during running frames visit still ih =>
    have there := during.reaches reached
    have nested := there.nested
    obtain ⟨top', tail', frames', pushed, store, depth, rule, after⟩ := visit?_cases visit
    rw [frames] at frames' nested ih
    cases frames'
    rw [there.limits_eq] at rule
    have scopes : m'.scopes = store.scopes := congrArg Store.scopes after.store
    rw [after.frames] at still ⊢
    rw [scopes, ← List.append_assoc]
    rcases Suspended.moves rule nested ih with on | ⟨gone, -⟩
    · exact on
    · rw [gone] at still
      exact absurd still (Nat.lt_irrefl _)
  | @command m m' kind line set _ _ visit _ ih =>
    obtain ⟨top, tail, frames, rfl, rfl⟩ := visit?_cases visit
    rw [frames] at ih
    exact ih.command

/-- When a call has `Returned`, the frames and scopes of the callers are left. -/
theorem Returned.eq (returned : Returned below.length (callers.depth + 1) inside m')
    (reached : (load robot limits tracing program).Reaches inside)
    (start : Suspended below callers function bindings inside.frames inside.scopes) :
    m'.frames = below ∧ m'.scopes = callers ∧
      (load robot limits tracing program).Reaches m' := by
  obtain ⟨m, set, during, running, visit, gone⟩ := returned
  have there := during.reaches reached
  have suspended := during.suspended reached start
  have nested := there.nested
  obtain ⟨top, tail, frames, pushed, store, depth, rule, after⟩ := visit?_cases visit
  rw [frames] at nested suspended
  rw [there.limits_eq] at rule
  have scopes : m'.scopes = store.scopes := congrArg Store.scopes after.store
  refine and_assoc.mp ⟨?_, .moved there running visit⟩
  rw [after.frames] at gone ⊢
  rw [scopes]
  rcases Suspended.moves rule nested suspended with on | left
  · exact absurd on.length_lt (Nat.not_lt.mpr gone)
  · exact left

end Calls

/-- On a `Nested` stack the number of active calls is the number of frames of calls. -/
theorem Nested.depth_eq {limits : Limits} {frames : List Frame} {store : Store} {depth : Nat}
    (nested : Nested limits frames store depth) : depth = (backs frames).length := by
  rw [nested.backs_eq, length_countdown]

/-- **A call is invisible to its callers.** In every machine of a run that makes a call with
success, the call leads into the known function of that name, with the values of the arguments.
`During` the call, as long as its body is on the stack, the frames below and the scopes of the
callers, the global one among them, stay the same; where its own scope is the innermost one, a name
has the value that the function set last, else that of the parameter, else the global one at the
time of the call. When it has `Returned`, the frames are those below the call, and the scopes and
the number of active calls are those before it. -/
theorem call_invisible {program : Program} {robot : Robot} {limits : Limits} {tracing : Bool}
    {before inside : Machine} {name : String} {arguments : List Expr} {implicit : Bool} {line : Int}
    {below : List Frame} (reached : (load robot limits tracing program).Reaches before)
    (running : before.robot.done = false)
    (top : before.frames = .stmt (.call name arguments implicit line) :: below)
    (entered : before.visit? = some (.moved inside)) :
    ∃ f values, before.function? name = some f ∧ before.evaluateAll arguments = .ok values ∧
      values.length = f.parameters.length ∧
      (∀ m set, During below.length (before.scopes.depth + 1) inside m set →
        (∃ above rest, m.frames = above ++ .body rest f.name before.scopes.depth :: below) ∧
        m.scopes.globals = before.scopes.globals ∧
        (∃ above own, m.scopes.locals = above ++ own :: before.scopes.locals) ∧
        (m.scopes.depth = before.scopes.depth + 1 → ∀ key, m.lookup? key =
          ((f.parameters.zip values ++ set).reverse.lookup key).or
            (before.scopes.globals.get? key))) ∧
      ∀ after, Returned below.length (before.scopes.depth + 1) inside after →
        after.frames = below ∧ after.scopes = before.scopes ∧
          after.callDepth = before.callDepth := by
  have there : (load robot limits tracing program).Reaches inside := .moved reached running entered
  obtain ⟨top', tail, frames, pushed, store, depth, rule, here⟩ := visit?_cases entered
  rw [top] at frames
  cases frames
  cases rule with
  | @call _ _ f values _ _ resolved shallow =>
    obtain ⟨found, evaluated⟩ := Store.resolve_eq_ok_cases resolved
    have start : Suspended below before.scopes f.name (f.parameters.zip values) inside.frames
        inside.scopes := by
      have scopes : inside.scopes = before.scopes.push (.ofArguments f.parameters values) :=
        congrArg Store.scopes here.store
      rw [here.frames, scopes, Scope.ofArguments_eq]
      exact .above [] f.body [] rfl
    refine ⟨f, values, found, (evaluateAll_eq_values before arguments).trans evaluated, ?_, ?_, ?_⟩
    · exact Store.length_of_resolve resolved
    · intro m set during
      have suspended := during.suspended there start
      refine ⟨?_, ?_, ?_, fun own => suspended.get?_eq own⟩
      all_goals
        generalize m.frames = frames at suspended
        generalize m.scopes = scopes at suspended
        cases suspended
      · exact ⟨_, _, rfl⟩
      · rfl
      · exact ⟨_, _, rfl⟩
    · intro after returned
      obtain ⟨frames, scopes, reachedAfter⟩ := returned.eq there start
      refine ⟨frames, scopes, ?_⟩
      have calls := reachedAfter.nested.depth_eq
      have calls' := reached.nested.depth_eq
      rw [frames] at calls
      rw [top, backs_cons_of_none rfl] at calls'
      rw [calls, calls']

/-- A program with a global name that is a parameter of a function and is set in another one. -/
def shadowing : Program :=
  ⟨[.assign "n" (.number 7 1) 1,
    .define "inner" [] [.assign "n" (.number 1 2) 2] 2,
    .define "walk" ["n"]
      [.assign "k" (.var "n" 3) 3, .call "inner" [] true 3, .command .forward 3] 3,
    .call "walk" [.number 2 4] true 4,
    .command .turnLeft 5], 1⟩

/-- In this program the function sees its parameter and the name that it has set, also after the
inner call has set the same name as the parameter and the robot has moved. When it is over, the
global name has the value from before, and the other one has none. -/
theorem call_invisible_shadowing :
    let start := load (Robot.start ⟨[[.empty, .empty]]⟩ ⟨0, 0⟩ .east) {} false shadowing
    let below : List Frame := [.block [.command .turnLeft 5]]
    let before : Machine := { start with
      frames := .stmt (.call "walk" [.number 2 4] true 4) :: below
      scopes := ⟨⟨[("n", 7)]⟩, []⟩ }
    start.Reaches before ∧ ∃ inside m after, before.visit? = some (.moved inside) ∧
      During 1 2 inside m [("k", 2)] ∧ m.robot.path = [⟨0, 0⟩, ⟨1, 0⟩] ∧
      m.lookup? "n" = some 2 ∧ m.lookup? "k" = some 2 ∧
      Returned 1 2 inside after ∧ after.frames = below ∧ after.scopes = before.scopes ∧
      after.callDepth = before.callDepth ∧ after.lookup? "n" = some 7 ∧
      after.lookup? "k" = none := by
  intro start below before
  -- Each statement takes two visits: one to bring it up and one to run it.
  have started : start.Reaches start := .start
  have nSet := (started.moved rfl rfl).moved rfl rfl
  have innerDefined := (nSet.moved rfl rfl).moved rfl rfl
  have walkDefined := (innerDefined.moved rfl rfl).moved rfl rfl
  have calling : start.Reaches before := walkDefined.moved rfl rfl
  let inside : Machine := entered { before with frames := below }
    ⟨"walk", ["n"],
      [.assign "k" (.var "n" 3) 3, .call "inner" [] true 3, .command .forward 3], 3⟩ [2]
  have entering : before.visit? = some (.moved inside) := rfl
  obtain ⟨f, values, found, evaluated, -, sees, leaves⟩ := call_invisible calling rfl rfl entering
  cases found
  cases evaluated
  have first : During 1 2 inside inside [] := .entered
  have kSet := (first.moved rfl rfl rfl (by decide)).moved rfl rfl rfl (by decide)
  have innerCalled := (kSet.moved rfl rfl rfl (by decide)).moved rfl rfl rfl (by decide)
  have innerSet := (innerCalled.moved rfl rfl rfl (by decide)).moved rfl rfl rfl (by decide)
  have innerLeft := innerSet.moved rfl rfl rfl (by decide)
  have walked : During 1 2 inside _ [("k", 2)] :=
    (innerLeft.moved rfl rfl rfl (by decide)).command rfl rfl (by decide)
  obtain ⟨-, -, -, sight⟩ := sees _ _ walked
  have returned : Returned 1 2 inside _ := ⟨_, _, walked, rfl, rfl, by decide⟩
  obtain ⟨frames, scopes, depth⟩ := leaves _ returned
  have own := sight rfl
  refine ⟨calling, inside, _, _, entering, walked, by decide +kernel, own "n", own "k", returned,
    frames, scopes, depth, ?_, ?_⟩
  · rw [lookup?, scopes]
    rfl
  · rw [lookup?, scopes]
    rfl

end Machine

end MazeRobot
