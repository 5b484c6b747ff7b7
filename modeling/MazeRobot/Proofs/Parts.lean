import MazeRobot.Program.Lint
import MazeRobot.Proofs.Reachable

/-! # A machine runs only its program

Everything that a machine has on its stack stands in its program, and so does every function that it
knows. The parts of a statement are part of what the statement is part of, so this is kept when a
frame is taken apart and when a body is entered.

* `Stmt.nodes`, `Stmt.nodesAll`, `Frame.nodes`: the nodes of statements and frames.
* `Stmt.nodes_sublist_of_mem`: the parts of a part are parts.
* `Machine.Confined`: frames and known functions that stand in a program.
* `Machine.Reaches.confined`: every machine of a run runs only its program. -/

namespace MazeRobot

/-! ## Nodes of statements -/

/-- `Expr.walk` meets the expression only. -/
theorem Expr.eq_of_mem_walk {expr part : Expr} (member : Node.expr part ∈ expr.walk) :
    part = expr := by
  cases expr with
  | missing => cases member
  | number value line => simpa [walk] using member
  | var name line => simpa [walk] using member
  | distance line => simpa [walk] using member

namespace Stmt

/-- All nodes of a statement. -/
def nodes (stmt : Stmt) : List Node := stmt.walk fun _ => true

/-- All nodes of statements. -/
def nodesAll (stmts : List Stmt) : List Node := walkAll (fun _ => true) stmts

/-- `nodesAll` of no statements. -/
@[simp] theorem nodesAll_nil : nodesAll [] = [] := rfl

/-- `nodesAll` of one more statement. -/
@[simp] theorem nodesAll_cons (stmt : Stmt) (stmts : List Stmt) :
    nodesAll (stmt :: stmts) = stmt.nodes ++ nodesAll stmts := rfl

/-- `nodes` of a block: itself and those of its statements. -/
@[simp] theorem nodes_block (body : List Stmt) (line : Int) :
    (block body line).nodes = .stmt (block body line) :: nodesAll body := rfl

/-- `nodes` of a command: itself. -/
@[simp] theorem nodes_command (kind : Command) (line : Int) :
    (command kind line).nodes = [.stmt (command kind line)] := rfl

/-- `nodes` of a loop: itself, its count and those of its body. -/
@[simp] theorem nodes_loop (count : Expr) (body : List Stmt) (line : Int) :
    (loop count body line).nodes = .stmt (loop count body line) :: (count.walk ++ nodesAll body) :=
  rfl

/-- `nodes` of a conditional: itself, its condition and those of its body. -/
@[simp] theorem nodes_branch (condition : Option Condition) (body : List Stmt) (line : Int) :
    (branch condition body line).nodes =
      .stmt (branch condition body line) ::
        (condition.toList.map .condition ++ nodesAll body) := rfl

/-- `nodes` of an assignment: itself and its value. -/
@[simp] theorem nodes_assign (name : String) (value : Expr) (line : Int) :
    (assign name value line).nodes = .stmt (assign name value line) :: value.walk := rfl

/-- `nodes` of a definition: itself and those of its body. -/
@[simp] theorem nodes_define (name : String) (parameters : List String) (body : List Stmt)
    (line : Int) :
    (define name parameters body line).nodes =
      .stmt (define name parameters body line) :: nodesAll body := rfl

/-- `nodes` of a call: itself and its arguments. -/
@[simp] theorem nodes_call (name : String) (arguments : List Expr) (implicit : Bool) (line : Int) :
    (call name arguments implicit line).nodes =
      .stmt (call name arguments implicit line) :: arguments.flatMap Expr.walk := rfl

/-- `nodes` of a missing statement: none. -/
@[simp] theorem nodes_missing : missing.nodes = [] := rfl

/-- `nodesAll` has the `nodes` of each statement. -/
theorem nodes_subset_nodesAll {stmt : Stmt} {stmts : List Stmt} (member : stmt ∈ stmts) :
    stmt.nodes ⊆ nodesAll stmts := by
  induction stmts with
  | nil => cases member
  | cons first stmts ih =>
    rw [nodesAll_cons]
    rcases List.mem_cons.mp member with rfl | later
    · exact List.subset_append_left _ _
    · exact List.subset_append_of_subset_right _ (ih later)

/-- `Expr.walk` meets no statement. -/
theorem stmt_notMem_walk (stmt : Stmt) (expr : Expr) : Node.stmt stmt ∉ expr.walk := by
  cases expr <;> simp [Expr.walk]

/-- A part of a statement is the statement itself or a part of what stands below it, so its `nodes`
are among those of the statement. -/
theorem nodes_sublist_of_below {part stmt : Stmt} {below : List Node}
    (nodes : stmt.nodes = .stmt stmt :: below)
    (inside : Node.stmt part ∈ below → part.nodes.Sublist below)
    (member : Node.stmt part ∈ stmt.nodes) : part.nodes.Sublist stmt.nodes := by
  rw [nodes] at member
  rcases List.mem_cons.mp member with whole | later
  · cases whole
    exact List.Sublist.refl _
  · rw [nodes]
    exact (inside later).cons _

mutual

/-- The `nodes` of a part of a statement are nodes of the statement. -/
theorem nodes_sublist_of_mem {part : Stmt} (stmt : Stmt) (member : Node.stmt part ∈ stmt.nodes) :
    part.nodes.Sublist stmt.nodes := by
  cases stmt with
  | block body line =>
    exact nodes_sublist_of_below (nodes_block body line) (nodesAll_sublist_of_mem body) member
  | command kind line =>
    exact nodes_sublist_of_below (nodes_command kind line) (fun none => nomatch none) member
  | loop count body line =>
    refine nodes_sublist_of_below (nodes_loop count body line) (fun inside => ?_) member
    have later := (List.mem_append.mp inside).resolve_left (stmt_notMem_walk part count)
    exact List.sublist_append_of_sublist_right (nodesAll_sublist_of_mem body later)
  | branch condition body line =>
    refine nodes_sublist_of_below (nodes_branch condition body line) (fun inside => ?_) member
    have later := (List.mem_append.mp inside).resolve_left (by simp)
    exact List.sublist_append_of_sublist_right (nodesAll_sublist_of_mem body later)
  | assign name value line =>
    refine nodes_sublist_of_below (nodes_assign name value line) (fun inside => ?_) member
    exact absurd inside (stmt_notMem_walk part value)
  | define name parameters body line =>
    exact nodes_sublist_of_below (nodes_define name parameters body line)
      (nodesAll_sublist_of_mem body) member
  | call name arguments implicit line =>
    refine nodes_sublist_of_below (nodes_call name arguments implicit line) (fun inside => ?_) member
    obtain ⟨argument, -, value⟩ := List.mem_flatMap.mp inside
    exact absurd value (stmt_notMem_walk part argument)
  | missing => cases member

/-- The `nodes` of a part of a sequence are nodes of the sequence. -/
theorem nodesAll_sublist_of_mem {part : Stmt} (stmts : List Stmt)
    (member : Node.stmt part ∈ nodesAll stmts) : part.nodes.Sublist (nodesAll stmts) := by
  cases stmts with
  | nil => cases member
  | cons stmt stmts =>
    rw [nodesAll_cons] at member ⊢
    rcases List.mem_append.mp member with first | later
    · exact List.sublist_append_of_sublist_left (nodes_sublist_of_mem stmt first)
    · exact List.sublist_append_of_sublist_right (nodesAll_sublist_of_mem stmts later)

end

end Stmt

/-- `Program.nodes` is the program as a statement and the nodes of its statements. -/
theorem Program.nodes_eq (program : Program) :
    program.nodes = .stmt program.toStmt :: Stmt.nodesAll program.body := rfl

/-- The `nodes` of a part of a program are nodes of the program. -/
theorem Program.nodes_sublist_of_mem (program : Program) {part : Stmt}
    (member : Node.stmt part ∈ program.nodes) : part.nodes.Sublist program.nodes :=
  Stmt.nodes_sublist_of_mem program.toStmt member

/-! ## Definitions -/

/-- The statement that makes a definition. -/
def FunctionDef.toStmt (f : FunctionDef) : Stmt := .define f.name f.parameters f.body f.line

/-- `Stmt.definition?` gives a definition exactly for its `toStmt`. -/
theorem Stmt.definition?_eq_some_iff {stmt : Stmt} {f : FunctionDef} :
    stmt.definition? = some f ↔ stmt = f.toStmt := by
  cases f
  cases stmt <;> simp [Stmt.definition?, FunctionDef.toStmt]

/-- `Node.definitions` has the definitions whose `toStmt` is among the nodes. -/
theorem Node.mem_definitions {f : FunctionDef} {nodes : List Node} :
    f ∈ Node.definitions nodes ↔ Node.stmt f.toStmt ∈ nodes := by
  rw [Node.definitions, List.mem_filterMap]
  constructor
  · rintro ⟨node, member, defines⟩
    cases node with
    | stmt stmt => exact Stmt.definition?_eq_some_iff.mp defines ▸ member
    | expr expr => cases defines
    | condition condition => cases defines
  · intro member
    exact ⟨_, member, Stmt.definition?_eq_some_iff.mpr rfl⟩

/-- A definition at the top level is among the `Node.definitions` of the program. -/
theorem Program.mem_definitions_of_topLevel {program : Program} {f : FunctionDef}
    (member : f ∈ program.body.filterMap Stmt.definition?) :
    f ∈ Node.definitions program.nodes := by
  obtain ⟨stmt, inside, defines⟩ := List.mem_filterMap.mp member
  rw [Stmt.definition?_eq_some_iff] at defines
  subst defines
  rw [Node.mem_definitions, Program.nodes_eq]
  have own : Node.stmt f.toStmt ∈ f.toStmt.nodes := List.mem_cons_self
  exact List.mem_cons_of_mem _ (Stmt.nodes_subset_nodesAll inside own)

/-- After `FunctionDef.insert` the new definition is known, and the others as long as they have
other names. -/
theorem FunctionDef.mem_insert {f g : FunctionDef} {functions : List FunctionDef} :
    g ∈ f.insert functions ↔ g = f ∨ g ∈ functions ∧ g.name ≠ f.name := by
  simp [FunctionDef.insert]

/-- `FunctionDef.insert` keeps every name that is known. -/
theorem FunctionDef.exists_mem_insert (f : FunctionDef) {g : FunctionDef}
    {functions : List FunctionDef} (member : g ∈ functions) :
    ∃ h ∈ f.insert functions, h.name = g.name := by
  by_cases same : g.name = f.name
  · exact ⟨f, mem_insert.mpr (.inl rfl), same.symm⟩
  · exact ⟨g, mem_insert.mpr (.inr ⟨member, same⟩), rfl⟩

/-- Definitions that `FunctionDef.insert` adds one after the other: nothing else is known
afterwards, and all their names are. -/
theorem FunctionDef.foldl_insert (fs known : List FunctionDef) :
    (∀ g ∈ fs.foldl (fun functions f => f.insert functions) known, g ∈ known ∨ g ∈ fs) ∧
      ∀ f, f ∈ known ∨ f ∈ fs →
        ∃ g ∈ fs.foldl (fun functions f => f.insert functions) known, g.name = f.name := by
  induction fs generalizing known with
  | nil =>
    exact ⟨fun g member => .inl member, fun f member => ⟨f, member.resolve_right (by simp), rfl⟩⟩
  | cons first fs ih =>
    obtain ⟨nothing, names⟩ := ih (first.insert known)
    rw [List.foldl_cons]
    refine ⟨fun g member => ?_, fun f member => ?_⟩
    · rcases nothing g member with inserted | later
      · rcases mem_insert.mp inserted with rfl | ⟨old, -⟩
        · exact .inr List.mem_cons_self
        · exact .inl old
      · exact .inr (List.mem_cons_of_mem _ later)
    · rcases member with old | new
      · obtain ⟨h, inserted, same⟩ := first.exists_mem_insert old
        obtain ⟨g, there, again⟩ := names h (.inl inserted)
        exact ⟨g, there, again.trans same⟩
      · rcases List.mem_cons.mp new with rfl | later
        · exact names f (.inl (mem_insert.mpr (.inl rfl)))
        · exact names f (.inr later)

/-! ## Frames -/

/-- All nodes of a frame. -/
def Frame.nodes : Frame → List Node
  | .block rest => Stmt.nodesAll rest
  | .body rest _ _ => Stmt.nodesAll rest
  | .stmt next => next.nodes
  | .loop _ again _ => Stmt.nodesAll again

/-- `Frame.nodes` of a block: those of the statements still to run. -/
@[simp] theorem Frame.nodes_block (rest : List Stmt) :
    (Frame.block rest).nodes = Stmt.nodesAll rest := rfl

/-- `Frame.nodes` of the body of a call: those of the statements still to run. -/
@[simp] theorem Frame.nodes_body (rest : List Stmt) (function : String) (depth : Nat) :
    (Frame.body rest function depth).nodes = Stmt.nodesAll rest := rfl

/-- `Frame.nodes` of a statement: those of the statement. -/
@[simp] theorem Frame.nodes_stmt (stmt : Stmt) : (Frame.stmt stmt).nodes = stmt.nodes := rfl

/-- `Frame.nodes` of a loop: those of its body. -/
@[simp] theorem Frame.nodes_loop (remaining : Nat) (body : List Stmt) (line : Int) :
    (Frame.loop remaining body line).nodes = Stmt.nodesAll body := rfl

/-- `Frame.ofStmt` has the `nodes` of the statement. -/
@[simp] theorem Frame.nodes_ofStmt (stmt : Stmt) : (Frame.ofStmt stmt).nodes = stmt.nodes := by
  cases stmt <;> rfl

/-- `Store.resolve` leads to the known function of that name, with the values of its arguments. -/
theorem Store.resolve_eq_ok_cases {store : Store} {name : String} {arguments : List Expr}
    {line : Int} {f : FunctionDef} {values : List Int}
    (resolved : store.resolve name arguments line = .ok (f, values)) :
    store.functions.find? (·.name = name) = some f ∧ store.values arguments = .ok values := by
  rw [resolve] at resolved
  cases found : store.functions.find? (·.name = name) with
  | none =>
    rw [found] at resolved
    cases resolved
  | some g =>
    rw [found] at resolved
    cases evaluated : store.values arguments with
    | error fault =>
      rw [evaluated] at resolved
      cases resolved
    | ok others =>
      rw [evaluated] at resolved
      dsimp only at resolved
      by_cases arity : others.length = g.parameters.length
      · rw [if_pos arity] at resolved
        cases resolved
        exact ⟨rfl, rfl⟩
      · rw [if_neg arity] at resolved
        cases resolved

/-- `Store.resolve` leads to the known function of that name. -/
theorem Store.find?_of_resolve {store : Store} {name : String} {arguments : List Expr} {line : Int}
    {f : FunctionDef} {values : List Int}
    (resolved : store.resolve name arguments line = .ok (f, values)) :
    store.functions.find? (·.name = name) = some f :=
  (resolve_eq_ok_cases resolved).1

/-- `Store.resolve` leads to a known function. -/
theorem Store.mem_of_resolve {store : Store} {name : String} {arguments : List Expr} {line : Int}
    {f : FunctionDef} {values : List Int}
    (resolved : store.resolve name arguments line = .ok (f, values)) : f ∈ store.functions :=
  List.mem_of_find?_eq_some (find?_of_resolve resolved)

namespace Machine

/-- Frames and known functions that stand in a program, with the functions of its top level among
those that are known. -/
structure Confined (program : Program) (frames : List Frame) (store : Store) : Prop where
  /-- The nodes on the stack are nodes of the program. -/
  nodes : ∀ node ∈ frames.flatMap Frame.nodes, node ∈ program.nodes
  /-- The known functions are defined in the program. -/
  functions : ∀ f ∈ store.functions, f ∈ Node.definitions program.nodes
  /-- The names that the top level defines are known. -/
  known : ∀ f ∈ program.body.filterMap Stmt.definition?, ∃ g ∈ store.functions, g.name = f.name

namespace Confined

variable {program : Program} {limits : Limits} {top : Frame} {below pushed : List Frame}
  {store store' : Store} {depth depth' : Nat}

/-- Frames that take the place of the innermost one and stand in it stay `Confined` to the
program. -/
theorem replace (confined : Confined program (top :: below) store)
    (inside : ∀ node ∈ pushed.flatMap Frame.nodes, node ∈ top.nodes)
    (same : store'.functions = store.functions) : Confined program (pushed ++ below) store' where
  nodes := by
    intro node member
    rw [List.flatMap_append] at member
    refine confined.nodes node (List.mem_append.mpr ?_)
    exact (List.mem_append.mp member).imp_left (inside node)
  functions := by
    rw [same]
    exact confined.functions
  known := by
    rw [same]
    exact confined.known

/-- A definition that is reached keeps the store `Confined` to the program. -/
theorem define {f : FunctionDef} (confined : Confined program (.stmt f.toStmt :: below) store) :
    Confined program below { store with functions := f.insert store.functions } where
  nodes := fun node member => confined.nodes node (List.mem_append_right _ member)
  functions := by
    intro g member
    rcases FunctionDef.mem_insert.mp member with rfl | ⟨old, -⟩
    · rw [Node.mem_definitions]
      exact confined.nodes _ (List.mem_append_left _ List.mem_cons_self)
    · exact confined.functions g old
  known := by
    intro f' member
    obtain ⟨g, old, same⟩ := confined.known f' member
    obtain ⟨h, there, again⟩ := f.exists_mem_insert old
    exact ⟨h, there, again.trans same⟩

/-- The body of a known function is `Confined` to the program. -/
theorem enter (confined : Confined program (top :: below) store) {f : FunctionDef}
    (member : f ∈ store.functions) (function : String) (back : Nat) (scopes : Scopes) :
    Confined program (.body f.body function back :: below) { store with scopes } where
  nodes := by
    intro node inside
    rw [List.flatMap_cons] at inside
    rcases List.mem_append.mp inside with body | rest
    · have defined := Node.mem_definitions.mp (confined.functions f member)
      exact (program.nodes_sublist_of_mem defined).subset (List.mem_cons_of_mem _ body)
    · exact confined.nodes node (List.mem_append_right _ rest)
  functions := confined.functions
  known := confined.known

/-- **A visit that `Moves` on does not lead out of a program**: the machine stays `Confined`. -/
theorem moves (rule : Moves limits store depth top pushed store' depth')
    (confined : Confined program (top :: below) store) :
    Confined program (pushed ++ below) store' := by
  cases rule with
  | blockNext stmt stmts => exact confined.replace (by simp) rfl
  | blockEnd => exact confined.replace (by simp) rfl
  | bodyNext stmt stmts function back => exact confined.replace (by simp) rfl
  | bodyEnd function back => exact confined.replace (by simp) rfl
  | round n body line => exact confined.replace (by simp) rfl
  | roundsEnd body line => exact confined.replace (by simp) rfl
  | loopNone body line evaluated => exact confined.replace (by simp) rfl
  | loop body line evaluated => exact confined.replace (by simp +contextual) rfl
  | branchNone body line => exact confined.replace (by simp) rfl
  | branchTaken body line holds => exact confined.replace (by simp +contextual) rfl
  | branchSkipped body line fails => exact confined.replace (by simp) rfl
  | assign name line evaluated => exact confined.replace (by simp) rfl
  | define name parameters body line =>
    exact Confined.define (f := ⟨name, parameters, body, line⟩) confined
  | call implicit line resolved shallow =>
    exact confined.enter (Store.mem_of_resolve resolved) _ _ _
  | block body line => exact confined.replace (by simp +contextual) rfl
  | missing => exact confined.replace (by simp) rfl

end Confined

/-- **Every machine that a run `Reaches` is `Confined` to its program.** -/
theorem Reaches.confined {robot : Robot} {limits : Limits} {tracing : Bool} {program : Program}
    {m : Machine} (reached : (load robot limits tracing program).Reaches m) :
    Confined program m.frames m.store := by
  have start : Confined program [.block program.body] (program.initialStore robot) := by
    obtain ⟨nothing, names⟩ :=
      FunctionDef.foldl_insert (program.body.filterMap Stmt.definition?) []
    refine ⟨fun node member => ?_, fun f member => ?_, fun f member => names f (.inr member)⟩
    · rw [List.flatMap_singleton] at member
      exact List.mem_cons_of_mem _ member
    · exact Program.mem_definitions_of_topLevel ((nothing f member).resolve_left (by simp))
  refine reached.preserves (P := fun frames store _ => Confined program frames store) start
    Confined.moves fun confined => ?_
  show Confined program ([] ++ _) _
  exact confined.replace (by simp) rfl

end Machine

end MazeRobot
