import MazeRobot.Proofs.Parts
import MazeRobot.Proofs.Scoping

/-! # The functions that are being called

A machine keeps a frame and a scope for each call, but not which definition was called: a name may
be defined again while a call of it is active. Here the run is followed with the definitions beside
it. What is on top of the stack always stands in the body of the innermost one, outside the
definitions in that body, and the innermost scope holds nothing but its parameters and names that
the program sets. The parameters of other functions cannot be seen, not even of those around the
innermost one.

* `Stmt.ownNodes`, `Program.ownNodes`: the nodes of a function's body, or of the program, that do
  not belong to a definition inside.
* `Machine.Calls`: the machines of a run with the functions that are being called.
* `Machine.Lexical`: how frames and scopes belong to these functions.
* `Machine.Calls.tracked`: they do so in every machine of a run. -/

namespace MazeRobot

/-! ## Nodes outside inner definitions -/

/-- Whether the parts of a node belong to the function around it; those of a definition do not. -/
def Node.isOwn : Node → Bool
  | .stmt s => !s.isDefinition
  | _ => true

namespace Stmt

/-- The nodes of a statement without the parts of definitions. -/
def ownNodes (stmt : Stmt) : List Node := stmt.walk Node.isOwn

/-- The nodes of statements without the parts of definitions. -/
def ownNodesAll (stmts : List Stmt) : List Node := walkAll Node.isOwn stmts

/-- `ownNodesAll` of no statements. -/
@[simp] theorem ownNodesAll_nil : ownNodesAll [] = [] := rfl

/-- `ownNodesAll` of one more statement. -/
@[simp] theorem ownNodesAll_cons (stmt : Stmt) (stmts : List Stmt) :
    ownNodesAll (stmt :: stmts) = stmt.ownNodes ++ ownNodesAll stmts := rfl

/-- `ownNodes` of a block: itself and those of its statements. -/
@[simp] theorem ownNodes_block (body : List Stmt) (line : Int) :
    (block body line).ownNodes = .stmt (block body line) :: ownNodesAll body := rfl

/-- `ownNodes` of a command: itself. -/
@[simp] theorem ownNodes_command (kind : Command) (line : Int) :
    (command kind line).ownNodes = [.stmt (command kind line)] := rfl

/-- `ownNodes` of a loop: itself, its count and those of its body. -/
@[simp] theorem ownNodes_loop (count : Expr) (body : List Stmt) (line : Int) :
    (loop count body line).ownNodes =
      .stmt (loop count body line) :: (count.walk ++ ownNodesAll body) := rfl

/-- `ownNodes` of a conditional: itself, its condition and those of its body. -/
@[simp] theorem ownNodes_branch (condition : Option Condition) (body : List Stmt) (line : Int) :
    (branch condition body line).ownNodes =
      .stmt (branch condition body line) ::
        (condition.toList.map .condition ++ ownNodesAll body) := rfl

/-- `ownNodes` of an assignment: itself and its value. -/
@[simp] theorem ownNodes_assign (name : String) (value : Expr) (line : Int) :
    (assign name value line).ownNodes = .stmt (assign name value line) :: value.walk := rfl

/-- `ownNodes` of a definition: itself, but not what stands in its body. -/
@[simp] theorem ownNodes_define (name : String) (parameters : List String) (body : List Stmt)
    (line : Int) :
    (define name parameters body line).ownNodes = [.stmt (define name parameters body line)] := rfl

/-- `ownNodes` of a call: itself and its arguments. -/
@[simp] theorem ownNodes_call (name : String) (arguments : List Expr) (implicit : Bool)
    (line : Int) :
    (call name arguments implicit line).ownNodes =
      .stmt (call name arguments implicit line) :: arguments.flatMap Expr.walk := rfl

/-- `ownNodes` of a missing statement: none. -/
@[simp] theorem ownNodes_missing : missing.ownNodes = [] := rfl

end Stmt

/-- The nodes of a function's body, or of the program where there is none, without the parts of
definitions. -/
def Program.ownNodes (program : Program) : Option FunctionDef → List Node
  | none => Stmt.ownNodesAll program.body
  | some f => Stmt.ownNodesAll f.body

/-- The nodes of a frame without the parts of definitions. -/
def Frame.ownNodes : Frame → List Node
  | .block rest => Stmt.ownNodesAll rest
  | .body rest _ _ => Stmt.ownNodesAll rest
  | .stmt next => next.ownNodes
  | .loop _ again _ => Stmt.ownNodesAll again

/-- `Frame.ownNodes` of a block: those of the statements still to run. -/
@[simp] theorem Frame.ownNodes_block (rest : List Stmt) :
    (Frame.block rest).ownNodes = Stmt.ownNodesAll rest := rfl

/-- `Frame.ownNodes` of the body of a call: those of the statements still to run. -/
@[simp] theorem Frame.ownNodes_body (rest : List Stmt) (function : String) (depth : Nat) :
    (Frame.body rest function depth).ownNodes = Stmt.ownNodesAll rest := rfl

/-- `Frame.ownNodes` of a statement: those of the statement. -/
@[simp] theorem Frame.ownNodes_stmt (stmt : Stmt) :
    (Frame.stmt stmt).ownNodes = stmt.ownNodes := rfl

/-- `Frame.ownNodes` of a loop: those of its body. -/
@[simp] theorem Frame.ownNodes_loop (remaining : Nat) (body : List Stmt) (line : Int) :
    (Frame.loop remaining body line).ownNodes = Stmt.ownNodesAll body := rfl

/-- `Frame.ofStmt` has the `ownNodes` of the statement. -/
@[simp] theorem Frame.ownNodes_ofStmt (stmt : Stmt) :
    (Frame.ofStmt stmt).ownNodes = stmt.ownNodes := by
  cases stmt <;> rfl

/-- `Frame.back?` of a block: it is the frame of no call. -/
@[simp] theorem Frame.back?_block (rest : List Stmt) : (Frame.block rest).back? = none := rfl

/-- `Frame.back?` of a loop: it is the frame of no call. -/
@[simp] theorem Frame.back?_loop (remaining : Nat) (body : List Stmt) (line : Int) :
    (Frame.loop remaining body line).back? = none := rfl

/-- `Node.assignedNames` holds the names of the assignments among the nodes. -/
theorem Node.mem_assignedNames {name : String} {nodes : List Node} :
    name ∈ Node.assignedNames nodes ↔
      ∃ value line, Node.stmt (.assign name value line) ∈ nodes := by
  rw [Node.assignedNames, List.mem_filterMap]
  constructor
  · rintro ⟨node, member, sets⟩
    split at sets
    · cases sets
      exact ⟨_, _, member⟩
    · cases sets
  · rintro ⟨value, line, member⟩
    exact ⟨_, member, rfl⟩

/-! ## Names in scopes -/

/-- The parameters of a function; the program has none. -/
def parametersOf (home : Option FunctionDef) : List String := home.elim [] FunctionDef.parameters

namespace Scope

/-- `get?` finds a value exactly for the `names` of a scope. -/
theorem get?_eq_none_iff {scope : Scope} {name : String} :
    scope.get? name = none ↔ name ∉ scope.names := by
  rw [get?, List.lookup_eq_none_iff, names, List.mem_map]
  constructor
  · rintro differs ⟨binding, member, rfl⟩
    simpa using differs binding member
  · intro absent binding member
    simpa using fun same : name = binding.1 => absent ⟨binding, member, same.symm⟩

/-- `define` adds no name but the one that it binds. -/
theorem mem_names_define {scope : Scope} {name other : String} {value : Int}
    (member : other ∈ (scope.define name value).names) : other = name ∨ other ∈ scope.names := by
  simp only [names, define, List.map_cons, List.mem_cons, List.mem_map, List.mem_filter] at member
  rcases member with same | ⟨binding, ⟨old, -⟩, rfl⟩
  · exact .inl same
  · exact .inr (List.mem_map_of_mem old)

/-- `ofArguments` binds only the parameters. -/
theorem names_ofArguments_subset (parameters : List String) (arguments : List Int) :
    (ofArguments parameters arguments).names ⊆ parameters := by
  have bound : ∀ (bindings : List (String × Int)) (scope : Scope),
      ∀ name ∈ (bindings.foldl (fun scope binding => scope.define binding.1 binding.2) scope).names,
        name ∈ scope.names ∨ name ∈ bindings.map (·.1) := by
    intro bindings
    induction bindings with
    | nil => exact fun scope name member => .inl member
    | cons binding bindings ih =>
      intro scope name member
      rcases ih _ name member with old | later
      · rcases mem_names_define old with rfl | old
        · exact .inr List.mem_cons_self
        · exact .inl old
      · exact .inr (List.mem_cons_of_mem _ later)
  intro name member
  rcases bound _ _ name member with none | some
  · cases none
  · obtain ⟨⟨key, value⟩, inside, rfl⟩ := List.mem_map.mp some
    exact (List.of_mem_zip inside).1

end Scope

namespace Machine

/-! ## Following the calls of a run -/

/-- The functions that are being called after a frame has been taken further: a call adds the
definition that is known at that time, and the end of a body takes one away. -/
def callsAfter (functions : List FunctionDef) (calls : List FunctionDef) : Frame → List FunctionDef
  | .stmt (.call name _ _ _) => (functions.find? (·.name = name)).toList ++ calls
  | .body [] _ _ => calls.tail
  | _ => calls

/-- The machines that a run comes to, with the functions that are being called, innermost first. -/
inductive Calls (start : Machine) : Machine → List FunctionDef → Prop
  /-- At the start nothing is called. -/
  | start : Calls start start []
  /-- A visit goes on. -/
  | moved {m m' : Machine} {top : Frame} {below : List Frame} {calls : List FunctionDef}
      (followed : Calls start m calls) (running : m.robot.done = false)
      (frames : m.frames = top :: below) (visit : m.visit? = some (.moved m')) :
      Calls start m' (callsAfter m.functions calls top)
  /-- A visit brings up a command, which the robot gets. -/
  | command {m m' : Machine} {kind : Command} {line : Int} {calls : List FunctionDef}
      (followed : Calls start m calls) (running : m.robot.done = false)
      (visit : m.visit? = some (.command kind line m')) : Calls start (m'.obey kind) calls

/-- `Calls` follows every machine of a run. -/
theorem Reaches.exists_calls {start m : Machine} (reached : Reaches start m) :
    ∃ calls, Calls start m calls := by
  induction reached with
  | start => exact ⟨[], .start⟩
  | moved _ running visit ih =>
    obtain ⟨calls, followed⟩ := ih
    obtain ⟨top, below, frames, -⟩ := visit?_cases visit
    exact ⟨_, .moved followed running frames visit⟩
  | command _ running visit ih =>
    obtain ⟨calls, followed⟩ := ih
    exact ⟨calls, .command followed running visit⟩

namespace Calls

variable {start m : Machine} {calls : List FunctionDef}

/-- `Calls` follows only machines of the run. -/
theorem reaches (followed : Calls start m calls) : Reaches start m := by
  induction followed with
  | start => exact .start
  | moved _ running _ visit ih => exact .moved ih running visit
  | command _ running visit ih => exact .command ih running visit

/-- **What the rules keep holds of all machines of a run and the functions that `Calls` gives for
them.** -/
theorem preserves {P : List Frame → Store → Nat → List FunctionDef → Prop}
    (initial : P start.frames start.store start.callDepth [])
    (moves : ∀ {top below pushed store depth store' depth' calls},
      Moves start.limits store depth top pushed store' depth' → P (top :: below) store depth calls →
        P (pushed ++ below) store' depth' (callsAfter store.functions calls top))
    (command : ∀ {kind line below store depth calls},
      P (.stmt (.command kind line) :: below) store depth calls →
        P below { store with robot := (store.robot.perform kind).1 } depth calls)
    (followed : Calls start m calls) : P m.frames m.store m.callDepth calls := by
  induction followed with
  | start => exact initial
  | @moved m m' top below calls followed _ frames visit ih =>
    obtain ⟨top', below', frames', pushed, store, depth, rule, there⟩ := visit?_cases visit
    rw [frames] at frames'
    cases frames'
    rw [frames] at ih
    rw [there.frames, there.store, there.depth]
    exact moves (followed.reaches.limits_eq ▸ rule) ih
  | command _ _ visit ih =>
    obtain ⟨top, below, frames, rfl, rfl⟩ := visit?_cases visit
    rw [frames] at ih
    exact command ih

end Calls

/-! ## Frames and scopes belong to the calls -/

/-- Frames, the scopes of calls and the functions being called, in step: each frame stands in the
function that is innermost there, and each scope holds the parameters of its function and names that
the program sets. -/
inductive Lexical (program : Program) : List Frame → List Scope → List FunctionDef → Prop
  /-- Nothing is left. -/
  | nil : Lexical program [] [] []
  /-- The body of a function, with the scope of the call; below is the caller. -/
  | call {rest : List Stmt} {function : String} {back : Nat} {below : List Frame} {scope : Scope}
      {scopes : List Scope} {f : FunctionDef} {calls : List FunctionDef}
      (inside : Stmt.ownNodesAll rest ⊆ Stmt.ownNodesAll f.body)
      (names : ∀ name ∈ scope.names, name ∈ f.parameters ∨ name ∈ program.survey.assigned)
      (defined : f ∈ Node.definitions program.nodes)
      (caller : Lexical program below scopes calls) :
      Lexical program (.body rest function back :: below) (scope :: scopes) (f :: calls)
  /-- A piece of the innermost function, or of the program. -/
  | piece {top : Frame} {below : List Frame} {scopes : List Scope} {calls : List FunctionDef}
      (plain : top.back? = none) (inside : top.ownNodes ⊆ program.ownNodes calls.head?)
      (rest : Lexical program below scopes calls) : Lexical program (top :: below) scopes calls

namespace Lexical

variable {program : Program} {top : Frame} {below pushed : List Frame} {scopes : List Scope}
  {calls : List FunctionDef}

/-- On a `Lexical` stack, what is on top stands in the innermost function, or in the program. -/
theorem top_subset (lexical : Lexical program (top :: below) scopes calls) :
    top.ownNodes ⊆ program.ownNodes calls.head? := by
  cases lexical with
  | call inside _ _ _ => exact inside
  | piece _ inside _ => exact inside

/-- On a `Lexical` stack the functions being called are defined in the program. -/
theorem mem_definitions {frames : List Frame} (lexical : Lexical program frames scopes calls) :
    ∀ f ∈ calls, f ∈ Node.definitions program.nodes := by
  induction lexical with
  | nil => exact fun f member => nomatch member
  | call _ _ defined _ ih =>
    intro f member
    rcases List.mem_cons.mp member with rfl | later
    · exact defined
    · exact ih f later
  | piece _ _ _ ih => exact ih

/-- On a `Lexical` stack the innermost scope holds the parameters of the innermost function and
names that are `assigned`; there is no such scope exactly where no function is being called. -/
theorem head_scope {frames : List Frame} (lexical : Lexical program frames scopes calls) :
    (scopes = [] ∧ calls = []) ∨ ∃ scope others f callers, scopes = scope :: others ∧
      calls = f :: callers ∧
      ∀ name ∈ scope.names, name ∈ f.parameters ∨ name ∈ program.survey.assigned := by
  induction lexical with
  | nil => exact .inl ⟨rfl, rfl⟩
  | call _ names _ _ _ => exact .inr ⟨_, _, _, _, rfl, rfl, names⟩
  | piece _ _ _ ih => exact ih

/-- Another innermost scope with such names keeps a stack `Lexical`. -/
theorem replaceScope {frames : List Frame} {scope scope' : Scope} {f : FunctionDef}
    (lexical : Lexical program frames (scope :: scopes) (f :: calls))
    (names : ∀ name ∈ scope'.names, name ∈ f.parameters ∨ name ∈ program.survey.assigned) :
    Lexical program frames (scope' :: scopes) (f :: calls) := by
  -- The scope is that of the first body on the stack; the frames above it are pieces of that body.
  generalize all : scope :: scopes = locals at lexical
  generalize functions : f :: calls = active at lexical
  induction lexical with
  | nil => cases all
  | call inside _ defined caller _ =>
    cases all
    cases functions
    exact .call inside names defined caller
  | piece plain inside _ ih =>
    subst functions
    exact .piece plain inside (ih all rfl)

/-- The rest of a `Lexical` stack belongs to the same functions, unless the frame on top is that of
a call. -/
theorem tail (lexical : Lexical program (top :: below) scopes calls) (plain : top.back? = none) :
    Lexical program below scopes calls := by
  cases lexical with
  | call _ _ _ _ => cases plain
  | piece _ _ rest => exact rest

/-- Plain frames that stand in the innermost function keep a stack `Lexical`. -/
theorem push (rest : Lexical program below scopes calls)
    (plain : ∀ frame ∈ pushed, frame.back? = none)
    (inside : pushed.flatMap Frame.ownNodes ⊆ program.ownNodes calls.head?) :
    Lexical program (pushed ++ below) scopes calls := by
  induction pushed with
  | nil => exact rest
  | cons frame pushed ih =>
    rw [List.flatMap_cons] at inside
    refine .piece (plain frame List.mem_cons_self) (fun _ mem => inside ?_)
      (ih ?_ fun _ mem => inside ?_)
    · exact List.mem_append_left _ mem
    · exact fun other member => plain other (List.mem_cons_of_mem _ member)
    · exact List.mem_append_right _ mem

/-- Plain frames that stand in the plain frame on top may take its place on a `Lexical` stack. -/
theorem replace (lexical : Lexical program (top :: below) scopes calls) (old : top.back? = none)
    (plain : ∀ frame ∈ pushed, frame.back? = none)
    (inside : pushed.flatMap Frame.ownNodes ⊆ top.ownNodes) :
    Lexical program (pushed ++ below) scopes calls :=
  (lexical.tail old).push plain fun _ mem => lexical.top_subset (inside mem)

/-- The next statement of a body stands in the function of the body, so the stack stays
`Lexical`. -/
theorem bodyNext {stmt : Stmt} {stmts : List Stmt} {function : String} {back : Nat}
    (lexical : Lexical program (.body (stmt :: stmts) function back :: below) scopes calls) :
    Lexical program (.ofStmt stmt :: .body stmts function back :: below) scopes calls := by
  cases lexical with
  | call inside names defined caller =>
    rw [Stmt.ownNodesAll_cons] at inside
    refine .piece (Frame.back?_ofStmt stmt) (fun _ mem => inside ?_)
      (.call (fun _ mem => inside ?_) names defined caller)
    · rw [Frame.ownNodes_ofStmt] at mem
      exact List.mem_append_left _ mem
    · exact List.mem_append_right _ mem
  | piece plain _ _ => cases plain

/-- The end of a body leads back to the caller, so the stack stays `Lexical`. -/
theorem bodyEnd {function : String} {back : Nat}
    (lexical : Lexical program (.body [] function back :: below) scopes calls) :
    Lexical program below scopes.tail calls.tail := by
  cases lexical with
  | call _ _ _ caller => exact caller
  | piece plain _ _ => cases plain

end Lexical

/-- Frames, a store, a number of active calls and the functions being called that belong
together. -/
structure Tracked (program : Program) (limits : Limits) (frames : List Frame) (store : Store)
    (depth : Nat) (calls : List FunctionDef) : Prop where
  /-- The frames and the known functions stand in the program. -/
  confined : Confined program frames store
  /-- The frames go back to as many scopes as there are calls below. -/
  nested : Nested limits frames store depth
  /-- Frames and scopes belong to the functions. -/
  lexical : Lexical program frames store.scopes.locals calls
  /-- The global scope holds names that the program sets. -/
  globals : ∀ name ∈ store.scopes.globals.names, name ∈ program.survey.assigned

namespace Tracked

variable {program : Program} {limits : Limits} {top : Frame} {below pushed : List Frame}
  {store store' : Store} {depth depth' : Nat} {calls : List FunctionDef}

/-- `assign` of a name that the program sets keeps a `Tracked` stack `Lexical` and the global names
among those that are `assigned`. -/
theorem assign (tracked : Tracked program limits (top :: below) store depth calls)
    (plain : top.back? = none) {name : String} (set : name ∈ program.survey.assigned)
    (value : Int) :
    Lexical program below (store.scopes.assign name value).locals calls ∧
      ∀ other ∈ (store.scopes.assign name value).globals.names,
        other ∈ program.survey.assigned := by
  have rest := tracked.lexical.tail plain
  have globals := tracked.globals
  cases store with | mk robot functions scopes =>
  cases scopes with | mk outer locals =>
  rcases rest.head_scope with ⟨none, -⟩ | ⟨scope, others, f, callers, some, rfl, names⟩
  · -- At the top level the name goes into the global scope.
    simp only at none
    subst none
    refine ⟨rest, fun other member => ?_⟩
    rcases Scope.mem_names_define member with rfl | old
    · exact set
    · exact globals other old
  · simp only at some
    subst some
    refine ⟨rest.replaceScope fun other member => ?_, globals⟩
    rcases Scope.mem_names_define member with rfl | old
    · exact .inr set
    · exact names other old

/-- **A visit that `Moves` on keeps frames and scopes `Tracked`** with the functions being
called. -/
theorem moves (rule : Moves limits store depth top pushed store' depth')
    (tracked : Tracked program limits (top :: below) store depth calls) :
    Tracked program limits (pushed ++ below) store' depth'
      (callsAfter store.functions calls top) := by
  have confined := tracked.confined.moves rule
  have nested := tracked.nested.moves rule
  have lexical := tracked.lexical
  have globals := tracked.globals
  cases rule with
  | blockNext stmt stmts =>
    exact ⟨confined, nested, lexical.replace rfl (by simp) (by simp), globals⟩
  | blockEnd => exact ⟨confined, nested, lexical.tail rfl, globals⟩
  | bodyNext stmt stmts function back => exact ⟨confined, nested, lexical.bodyNext, globals⟩
  | bodyEnd function back =>
    refine ⟨confined, nested, ?_, globals⟩
    have dropped := tracked.nested.leave.2
    show Lexical program below (store.scopes.popTo back).locals calls.tail
    rw [dropped]
    exact lexical.bodyEnd
  | round n body line =>
    exact ⟨confined, nested, lexical.replace rfl (by simp) (by simp), globals⟩
  | roundsEnd body line => exact ⟨confined, nested, lexical.tail rfl, globals⟩
  | loopNone body line evaluated => exact ⟨confined, nested, lexical.tail rfl, globals⟩
  | loop body line evaluated =>
    refine ⟨confined, nested, lexical.replace rfl (by simp) fun node => ?_, globals⟩
    simp +contextual
  | branchNone body line => exact ⟨confined, nested, lexical.tail rfl, globals⟩
  | branchTaken body line holds =>
    refine ⟨confined, nested, lexical.replace rfl (by simp) fun node => ?_, globals⟩
    simp +contextual
  | branchSkipped body line fails => exact ⟨confined, nested, lexical.tail rfl, globals⟩
  | @assign expr value name line evaluated =>
    have here : Node.stmt (.assign name expr line) ∈ program.nodes :=
      tracked.confined.nodes _ (List.mem_append_left _ List.mem_cons_self)
    have set := Node.mem_assignedNames.mpr ⟨expr, line, here⟩
    obtain ⟨lexical, globals⟩ := tracked.assign rfl set value
    exact ⟨confined, nested, lexical, globals⟩
  | define name parameters body line => exact ⟨confined, nested, lexical.tail rfl, globals⟩
  | @call name arguments f values implicit line resolved shallow =>
    -- The definition that counts is the one in the table now; the name may be defined again later.
    refine ⟨confined, nested, ?_, globals⟩
    have found := Store.find?_of_resolve resolved
    rw [callsAfter, found]
    refine .call (List.Subset.refl _) (fun name member => .inl ?_) ?_ (lexical.tail rfl)
    · exact Scope.names_ofArguments_subset f.parameters values member
    · exact tracked.confined.functions f (List.mem_of_find?_eq_some found)
  | block body line =>
    refine ⟨confined, nested, lexical.replace rfl (by simp) fun node => ?_, globals⟩
    simp +contextual
  | missing => exact ⟨confined, nested, lexical.tail rfl, globals⟩

/-- Where a stack is `Tracked`, `get?` finds no value for a name that the program does not set and
that is no parameter of the innermost function. -/
theorem get?_eq_none {frames : List Frame}
    (tracked : Tracked program limits frames store depth calls) {name : String}
    (unset : name ∉ program.survey.assigned)
    (foreign : name ∉ parametersOf calls.head?) : store.scopes.get? name = none := by
  have outer : store.scopes.globals.get? name = none :=
    Scope.get?_eq_none_iff.mpr fun member => unset (tracked.globals name member)
  have inner : store.scopes.innermost.get? name = none := by
    rcases tracked.lexical.head_scope with ⟨none, -⟩ | ⟨scope, others, f, callers, some, rfl, names⟩
    · rw [Scopes.innermost, none]
      exact outer
    · rw [Scopes.innermost, some]
      refine Scope.get?_eq_none_iff.mpr fun member => ?_
      exact (names name member).elim foreign unset
  rw [Scopes.get?, inner, outer]
  rfl

end Tracked

/-- **Every machine of a run has its frames and scopes `Tracked`** with the functions that `Calls`
gives. -/
theorem Calls.tracked {robot : Robot} {limits : Limits} {tracing : Bool} {program : Program}
    {m : Machine} {calls : List FunctionDef}
    (followed : (load robot limits tracing program).Calls m calls) :
    Tracked program limits m.frames m.store m.callDepth calls := by
  refine followed.preserves ⟨Reaches.start.confined, Reaches.start.nested, ?_, ?_⟩ Tracked.moves ?_
  · exact .piece rfl (List.Subset.refl _) .nil
  · exact fun name member => nomatch member
  · intro kind line below store depth calls tracked
    refine ⟨?_, ?_, tracked.lexical.tail rfl, tracked.globals⟩
    · show Confined program ([] ++ _) _
      exact tracked.confined.replace (by simp) rfl
    · show Nested limits ([] ++ _) _ _
      exact tracked.nested.replace rfl rfl

end Machine

end MazeRobot
