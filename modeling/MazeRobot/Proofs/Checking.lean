import MazeRobot.Program.Check
import MazeRobot.Proofs.UnusedParameters

/-! # What a check says

A source that cannot be read gets one message, an error, and there is no program. A source that can
be read gets warnings only, and each is about a node of the program. Lint goes through the program
three times: through all definitions, through the statements with the function around them in mind,
and through each function on its own. It keeps silent exactly if the program is blameless, which is
said here without lint.

* `Stmt.placed`: the nodes of a statement with the functions around them.
* `Survey.lintNode`, `Survey.lintStmt_eq_flatMap`: lint of statements is lint of nodes, one by one.
* `Program.exists_node_of_mem_lint`: warnings are about nodes.
* `Program.Blameless`, `Program.lint_eq_nil_iff_blameless`: programs without warnings.
* `Program.check_exact`: what a check says about any source. -/

namespace MazeRobot

/-! ## Nodes and the functions around them -/

namespace Stmt

mutual

/-- The nodes of a statement, each with the innermost function in whose body it stands. -/
def placed (home : Option FunctionDef) : Stmt → List (Option FunctionDef × Node)
  | block body line => (home, .stmt (block body line)) :: placedAll home body
  | command kind line => [(home, .stmt (command kind line))]
  | loop count body line =>
    (home, .stmt (loop count body line)) :: (count.walk.map (home, ·) ++ placedAll home body)
  | branch condition body line =>
    (home, .stmt (branch condition body line)) ::
      (condition.toList.map (fun condition => (home, .condition condition)) ++ placedAll home body)
  | assign name value line => (home, .stmt (assign name value line)) :: value.walk.map (home, ·)
  | define name parameters body line =>
    (home, .stmt (define name parameters body line)) ::
      placedAll (some ⟨name, parameters, body, line⟩) body
  | call name arguments implicit line =>
    (home, .stmt (call name arguments implicit line)) ::
      (arguments.flatMap Expr.walk).map (home, ·)
  | missing => []

/-- The nodes of statements, each with the innermost function in whose body it stands. -/
def placedAll (home : Option FunctionDef) : List Stmt → List (Option FunctionDef × Node)
  | [] => []
  | stmt :: stmts => placed home stmt ++ placedAll home stmts

end

mutual

/-- `placed` without the functions around the nodes is `nodes`. -/
theorem map_snd_placed (home : Option FunctionDef) (stmt : Stmt) :
    (stmt.placed home).map Prod.snd = stmt.nodes := by
  cases stmt with
  | block body line => simp [placed, map_snd_placedAll home body]
  | command kind line => simp [placed]
  | loop count body line => simp [placed, map_snd_placedAll home body, Function.comp_def]
  | branch condition body line => simp [placed, map_snd_placedAll home body, Function.comp_def]
  | assign name value line => simp [placed, Function.comp_def]
  | define name parameters body line => simp [placed, map_snd_placedAll _ body]
  | call name arguments implicit line => simp [placed, Function.comp_def]
  | missing => simp [placed]

/-- `placedAll` without the functions around the nodes is `nodesAll`. -/
theorem map_snd_placedAll (home : Option FunctionDef) (stmts : List Stmt) :
    (placedAll home stmts).map Prod.snd = nodesAll stmts := by
  cases stmts with
  | nil => simp [placedAll]
  | cons stmt stmts => simp [placedAll, map_snd_placed home stmt, map_snd_placedAll home stmts]

end

end Stmt

/-- The nodes of a program below its root, each with the innermost function in whose body it
stands. -/
def Program.placed (program : Program) : List (Option FunctionDef × Node) :=
  Stmt.placedAll none program.body

/-- A node in `Program.placed` is a node of the program. -/
theorem Program.mem_nodes_of_mem_placed {program : Program} {place : Option FunctionDef × Node}
    (member : place ∈ program.placed) : place.2 ∈ program.nodes := by
  rw [nodes_eq, ← Stmt.map_snd_placedAll none program.body]
  exact List.mem_cons_of_mem _ (List.mem_map_of_mem member)

/-! ## Lint, node by node -/

namespace Survey

variable (survey : Survey)

/-- The warnings about a node in a function with the given parameters. -/
def lintNode (parameters : List String) : Node → Diagnostics
  | .stmt (.loop count body line) => lintLoop count body line
  | .stmt (.branch _ body line) =>
    if body.isEmpty then [.warning line 0 "if has an empty body"] else []
  | .stmt (.call name arguments _ line) => survey.lintCall name arguments line
  | .expr expr => survey.lintExpr parameters expr
  | _ => []

/-- `lintNode` over the nodes of a value is `lintExpr`. -/
theorem flatMap_lintNode_walk (home : Option FunctionDef) (expr : Expr) :
    (expr.walk.map (home, ·)).flatMap (fun place => survey.lintNode (parametersOf place.1) place.2) =
      survey.lintExpr (parametersOf home) expr := by
  cases expr <;> simp [Expr.walk, lintNode, lintExpr]

mutual

/-- **`lintStmt` is `lintNode` over the nodes of a statement**, each with the function around it. -/
theorem lintStmt_eq_flatMap (home : Option FunctionDef) (stmt : Stmt) :
    survey.lintStmt (parametersOf home) stmt =
      (stmt.placed home).flatMap fun place => survey.lintNode (parametersOf place.1) place.2 := by
  cases stmt with
  | block body line =>
    rw [lintStmt, lintBody_eq_flatMap home body, Stmt.placed, List.flatMap_cons]
    rfl
  | command kind line => rfl
  | loop count body line =>
    rw [lintStmt, lintBody_eq_flatMap home body, Stmt.placed, List.flatMap_cons, List.flatMap_append,
      flatMap_lintNode_walk, List.append_assoc]
    rfl
  | branch condition body line =>
    rw [lintStmt, lintBody_eq_flatMap home body, Stmt.placed, List.flatMap_cons, List.flatMap_append]
    cases condition <;> rfl
  | assign name value line =>
    rw [lintStmt, Stmt.placed, List.flatMap_cons, flatMap_lintNode_walk]
    rfl
  | define name own body line =>
    -- The body is looked at with its own parameters; those around it do not count.
    have inside := lintBody_eq_flatMap (some ⟨name, own, body, line⟩) body
    rw [lintStmt, Stmt.placed, List.flatMap_cons, ← inside]
    rfl
  | call name arguments implicit line =>
    rw [lintStmt, Stmt.placed, List.flatMap_cons, List.map_flatMap, List.flatMap_assoc]
    simp only [flatMap_lintNode_walk]
    rfl
  | missing => rfl

/-- `lintBody` is `lintNode` over the nodes of statements, each with the function around it. -/
theorem lintBody_eq_flatMap (home : Option FunctionDef) (stmts : List Stmt) :
    survey.lintBody (parametersOf home) stmts =
      (Stmt.placedAll home stmts).flatMap fun place =>
        survey.lintNode (parametersOf place.1) place.2 := by
  cases stmts with
  | nil => rfl
  | cons stmt stmts =>
    rw [lintBody, lintStmt_eq_flatMap home stmt, lintBody_eq_flatMap home stmts, Stmt.placedAll,
      List.flatMap_append]

end

end Survey

/-! ## Where warnings point -/

/-- All messages of a collection are warnings about one line. -/
def Diagnostics.WarnOn (ds : Diagnostics) (line : Int) : Prop :=
  ∀ d ∈ ds, d.severity = .warning ∧ d.line = line

namespace Diagnostics.WarnOn

variable {ds ds' : Diagnostics} {line : Int}

/-- `WarnOn` any line holds of no messages. -/
theorem nil : WarnOn [] line := List.forall_mem_nil _

/-- `WarnOn` a line holds of a warning there. -/
theorem warning (column : Int) (message : String) (hint? : Option String) :
    WarnOn [.warning line column message hint?] line :=
  List.forall_mem_singleton.mpr ⟨rfl, rfl⟩

/-- `WarnOn` a line holds of two collections in a row if it holds of both. -/
theorem append (first : ds.WarnOn line) (second : ds'.WarnOn line) : WarnOn (ds ++ ds') line :=
  List.forall_mem_append.mpr ⟨first, second⟩

/-- `WarnOn` a line holds of one of two collections, whichever it is. -/
theorem ite {condition : Prop} [Decidable condition] (first : ds.WarnOn line)
    (second : ds'.WarnOn line) : WarnOn (if condition then ds else ds') line := by
  split
  · exact first
  · exact second

end Diagnostics.WarnOn

namespace Survey

variable (survey : Survey)

/-- `lintExpr` warns on the line of the expression. -/
theorem warnOn_lintExpr (parameters : List String) (expr : Expr) :
    (survey.lintExpr parameters expr).WarnOn expr.line := by
  cases expr with
  | var name line => exact .ite .nil (.warning 0 _ _)
  | number value line => exact .nil
  | distance line => exact .nil
  | missing => exact .nil

/-- `lintCall` warns on the line of the call. -/
theorem warnOn_lintCall (name : String) (arguments : List Expr) (line : Int) :
    (survey.lintCall name arguments line).WarnOn line := by
  rw [lintCall]
  cases survey.function? name with
  | none => exact .warning 0 _ _
  | some f => exact .ite (.warning 0 _ _) .nil

/-- `lintLoop` warns on the line of the loop. -/
theorem warnOn_lintLoop (count : Expr) (body : List Stmt) (line : Int) :
    (lintLoop count body line).WarnOn line := by
  unfold lintLoop
  refine .append ?_ (.ite (.warning 0 _ _) .nil)
  split
  · exact .warning 0 _ _
  · exact .nil

/-- `lintNode` warns on the line of the node. -/
theorem warnOn_lintNode (parameters : List String) (node : Node) :
    (survey.lintNode parameters node).WarnOn node.line := by
  cases node with
  | stmt stmt =>
    cases stmt with
    | loop count body line => exact warnOn_lintLoop count body line
    | branch condition body line => exact .ite (.warning 0 _ _) .nil
    | call name arguments implicit line => exact survey.warnOn_lintCall name arguments line
    | block body line => exact .nil
    | command kind line => exact .nil
    | assign name value line => exact .nil
    | define name own body line => exact .nil
    | missing => exact .nil
  | expr expr => exact survey.warnOn_lintExpr parameters expr
  | condition condition => exact .nil

/-- `lintFunction` warns on the line of the definition. -/
theorem warnOn_lintFunction (f : FunctionDef) : (survey.lintFunction f).WarnOn f.line := by
  refine .append (.append (.ite (.warning 0 _ _) .nil) (.ite .nil (.warning 0 _ _))) ?_
  exact List.forall_mem_map.mpr fun parameter _ => ⟨rfl, rfl⟩

end Survey

/-- `repeatedDefinitions` warns on the line of a definition. -/
theorem exists_of_mem_repeatedDefinitions {seen fs : List FunctionDef} {d : Diagnostic}
    (member : d ∈ repeatedDefinitions seen fs) :
    d.severity = .warning ∧ ∃ f ∈ fs, f.line = d.line := by
  induction fs generalizing seen with
  | nil => cases member
  | cons f fs ih =>
    have later {seen : List FunctionDef} (member : d ∈ repeatedDefinitions seen fs) :
        d.severity = .warning ∧ ∃ g ∈ f :: fs, g.line = d.line := by
      obtain ⟨warns, g, inside, line⟩ := ih member
      exact ⟨warns, g, List.mem_cons_of_mem f inside, line⟩
    rw [repeatedDefinitions] at member
    cases found : seen.find? (·.name = f.name) with
    | none =>
      rw [found] at member
      exact later member
    | some first =>
      rw [found] at member
      rcases List.mem_cons.mp member with rfl | after
      · exact ⟨rfl, f, List.mem_cons_self, rfl⟩
      · exact later after

namespace Program

variable {program : Program}

/-- `lintBody` of the statements of a program is `lintNode` over `placed`. -/
theorem lintBody_eq_flatMap_placed (program : Program) :
    program.survey.lintBody [] program.body =
      program.placed.flatMap fun place =>
        program.survey.lintNode (parametersOf place.1) place.2 :=
  program.survey.lintBody_eq_flatMap none program.body

/-- A definition among `Node.definitions` stands at a node of the program. -/
theorem exists_node_of_mem_definitions {f : FunctionDef}
    (defined : f ∈ Node.definitions program.nodes) : ∃ node ∈ program.nodes, node.line = f.line :=
  ⟨_, Node.mem_definitions.mp defined, rfl⟩

/-- **`lint` gives warnings only, each on the line of a node.** -/
theorem exists_node_of_mem_lint {d : Diagnostic} (member : d ∈ program.lint) :
    d.severity = .warning ∧ ∃ node ∈ program.nodes, node.line = d.line := by
  -- The three passes: definitions, statements and functions.
  rcases List.mem_append.mp member with first | about
  · rcases List.mem_append.mp first with again | inside
    · obtain ⟨warns, f, defined, line⟩ := exists_of_mem_repeatedDefinitions again
      exact ⟨warns, line ▸ exists_node_of_mem_definitions defined⟩
    · rw [lintBody_eq_flatMap_placed] at inside
      obtain ⟨place, here, warned⟩ := List.mem_flatMap.mp inside
      obtain ⟨warns, line⟩ := program.survey.warnOn_lintNode _ _ d warned
      exact ⟨warns, place.2, mem_nodes_of_mem_placed here, line.symm⟩
  · obtain ⟨f, sorted, warned⟩ := List.mem_flatMap.mp about
    have defined := mem_of_mem_firstDefinitions (List.mem_mergeSort.mp sorted)
    obtain ⟨warns, line⟩ := program.survey.warnOn_lintFunction f d warned
    exact ⟨warns, line ▸ exists_node_of_mem_definitions defined⟩

end Program

/-! ## Rules that keep silent -/

/-- Without messages nothing is reported: `Reports` fails. -/
theorem Diagnostics.not_reports_nil (message : String) : ¬ Reports [] message := by
  rintro ⟨d, member, -⟩
  cases member

/-- `repeatedDefinitions` is empty exactly if the names differ, from each other and from those in
`seen`. -/
theorem repeatedDefinitions_eq_nil_iff {seen fs : List FunctionDef} :
    repeatedDefinitions seen fs = [] ↔
      (fs.map (·.name)).Nodup ∧ ∀ f ∈ fs, ∀ g ∈ seen, g.name ≠ f.name := by
  constructor
  · intro nothing
    exact (firstDefinitions_eq_self fun _ _ => nothing ▸ Diagnostics.not_reports_nil _).2
  · rintro ⟨nodup, apart⟩
    induction fs generalizing seen with
    | nil => rfl
    | cons f fs ih =>
      obtain ⟨new, nodup⟩ := List.nodup_cons.mp nodup
      have unseen : seen.find? (·.name = f.name) = none := by
        simpa using apart f List.mem_cons_self
      rw [repeatedDefinitions, unseen]
      refine ih nodup fun g later => List.forall_mem_cons.mpr ⟨fun same => new ?_, ?_⟩
      · exact List.mem_map.mpr ⟨g, later, same.symm⟩
      · exact apart g (List.mem_cons_of_mem f later)

/-- `Node.calledNames` holds the names of the calls among the nodes. -/
theorem Node.mem_calledNames {name : String} {nodes : List Node} :
    name ∈ Node.calledNames nodes ↔
      ∃ arguments implicit line, Node.stmt (.call name arguments implicit line) ∈ nodes := by
  rw [Node.calledNames, List.mem_filterMap]
  constructor
  · rintro ⟨node, member, calls⟩
    split at calls
    · cases calls
      exact ⟨_, _, _, member⟩
    · cases calls
  · rintro ⟨arguments, implicit, line, member⟩
    exact ⟨_, member, rfl⟩

namespace Survey

variable {survey : Survey}

/-- `lintExpr` says nothing about a variable exactly if it is `assigned` or a parameter. -/
theorem lintVar_eq_nil_iff {parameters : List String} {name : String} {line : Int} :
    survey.lintExpr parameters (.var name line) = [] ↔
      name ∈ survey.assigned ∨ name ∈ parameters := by
  simp [lintExpr, or_iff_not_imp_left]

/-- `lintCall` says nothing exactly if `function?` finds a function with as many parameters. -/
theorem lintCall_eq_nil_iff {name : String} {arguments : List Expr} {line : Int} :
    survey.lintCall name arguments line = [] ↔
      ∃ f, survey.function? name = some f ∧ arguments.length = f.parameters.length := by
  cases found : survey.function? name <;> simp [lintCall, found]

/-- `lintLoop` says nothing exactly if the count is not the number zero and the body is not
empty. -/
theorem lintLoop_eq_nil_iff {count : Expr} {body : List Stmt} {line : Int} :
    lintLoop count body line = [] ↔ (∀ numberLine, count ≠ .number 0 numberLine) ∧ body ≠ [] := by
  unfold lintLoop
  rw [List.append_eq_nil_iff]
  refine and_congr ?_ (by simp)
  split
  · simp
  · simpa using ‹_›

/-- `lintFunction` says nothing exactly if the body is not empty, the function is `called`, and each
parameter is among its `ownReads`. -/
theorem lintFunction_eq_nil_iff {f : FunctionDef} :
    survey.lintFunction f = [] ↔
      f.body ≠ [] ∧ f.name ∈ survey.called ∧ ∀ parameter ∈ f.parameters, parameter ∈ ownReads f := by
  simp [lintFunction]

end Survey

/-! ## Programs without warnings -/

namespace Program

/-- A program that gives no cause for a warning. -/
structure Blameless (program : Program) : Prop where
  /-- Every function name is defined once. -/
  single : ((Node.definitions program.nodes).map (·.name)).Nodup
  /-- Every function is called. -/
  called : ∀ f ∈ Node.definitions program.nodes, ∃ arguments implicit line,
    Node.stmt (.call f.name arguments implicit line) ∈ program.nodes
  /-- Every call has a definition with as many parameters. -/
  matched : ∀ name arguments implicit line,
    Node.stmt (.call name arguments implicit line) ∈ program.nodes →
      ∃ f ∈ Node.definitions program.nodes,
        f.name = name ∧ arguments.length = f.parameters.length
  /-- Every variable that is read is set somewhere or is a parameter of the function around it. -/
  known : ∀ home name line, (home, Node.expr (.var name line)) ∈ program.placed →
    (∃ value line, Node.stmt (.assign name value line) ∈ program.nodes) ∨
      name ∈ parametersOf home
  /-- Every parameter is read in the body of its function, outside the definitions inside. -/
  used : ∀ f ∈ Node.definitions program.nodes, ∀ parameter ∈ f.parameters,
    ∃ line, Node.expr (.var parameter line) ∈ Stmt.ownNodesAll f.body
  /-- No loop has the number zero for its count. -/
  counted : ∀ body numberLine line,
    Node.stmt (.loop (.number 0 numberLine) body line) ∉ program.nodes
  /-- No loop has an empty body. -/
  loops : ∀ count line, Node.stmt (.loop count [] line) ∉ program.nodes
  /-- No conditional has an empty body. -/
  branches : ∀ condition line, Node.stmt (.branch condition [] line) ∉ program.nodes
  /-- No function has an empty body. -/
  bodies : ∀ f ∈ Node.definitions program.nodes, f.body ≠ []

variable {program : Program}

/-- Every node below the root is `placed`. -/
theorem exists_mem_placed {node : Node} (member : node ∈ program.nodes)
    (below : node ≠ .stmt program.toStmt) : ∃ home, (home, node) ∈ program.placed := by
  rw [nodes_eq, ← Stmt.map_snd_placedAll none program.body] at member
  obtain ⟨⟨home, node⟩, here, rfl⟩ := List.mem_map.mp (List.mem_of_ne_of_mem below member)
  exact ⟨home, here⟩

/-- Where every name is defined once, the `functions` of the `survey` are all the definitions. -/
theorem functions_eq_definitions (single : ((Node.definitions program.nodes).map (·.name)).Nodup) :
    program.survey.functions = Node.definitions program.nodes := by
  have nothing : repeatedDefinitions [] (Node.definitions program.nodes) = [] :=
    repeatedDefinitions_eq_nil_iff.mpr ⟨single, fun _ _ _ before => by cases before⟩
  exact (firstDefinitions_eq_self fun _ _ => nothing ▸ Diagnostics.not_reports_nil _).1

/-- Where every name is defined once, `function?` finds the definition of a name. -/
theorem function?_eq_some_iff (single : ((Node.definitions program.nodes).map (·.name)).Nodup)
    {name : String} {f : FunctionDef} :
    program.survey.function? name = some f ↔
      f ∈ Node.definitions program.nodes ∧ f.name = name := by
  rw [Survey.function?, functions_eq_definitions single]
  constructor
  · intro found
    exact ⟨List.mem_of_find?_eq_some found, by simpa using List.find?_some found⟩
  · rintro ⟨defined, named⟩
    cases found : (Node.definitions program.nodes).find? (·.name = name) with
    | none => exact absurd (decide_eq_true named) (List.find?_eq_none.mp found f defined)
    | some g =>
      have same : g.name = f.name := by simpa [named] using List.find?_some found
      rw [List.inj_on_of_nodup_map single (List.mem_of_find?_eq_some found) defined same]

/-- `lintBody` says nothing exactly if `lintNode` says nothing about any node that is `placed`. -/
theorem lintBody_eq_nil_iff :
    program.survey.lintBody [] program.body = [] ↔
      ∀ home node, (home, node) ∈ program.placed →
        program.survey.lintNode (parametersOf home) node = [] := by
  rw [lintBody_eq_flatMap_placed, List.flatMap_eq_nil_iff, Prod.forall]

/-- Where `lintBody` says nothing about a program, `lintNode` says nothing about any statement. Of
these only the root has no place, and it is a block. -/
theorem exists_lintNode_eq_nil (inside : program.survey.lintBody [] program.body = [])
    {stmt : Stmt} (member : Node.stmt stmt ∈ program.nodes) (below : stmt ≠ program.toStmt) :
    ∃ parameters, program.survey.lintNode parameters (.stmt stmt) = [] := by
  obtain ⟨home, here⟩ := exists_mem_placed member fun same => below (Node.stmt.inj same)
  exact ⟨_, lintBody_eq_nil_iff.mp inside home _ here⟩

/-- A program about which `lint` says nothing is `Blameless`. -/
theorem Blameless.of_lint_eq_nil (nothing : program.lint = []) : program.Blameless := by
  obtain ⟨once, inside, about⟩ := lint_eq_nil_iff.mp nothing
  -- The first pass comes first in the argument too: without it the others go by the first
  -- definition of each name only.
  have single := (repeatedDefinitions_eq_nil_iff.mp once).1
  rw [functions_eq_definitions single] at about
  have quiet := fun f defined => Survey.lintFunction_eq_nil_iff.mp (about f defined)
  have loops : ∀ count body line, Node.stmt (.loop count body line) ∈ program.nodes →
      (∀ numberLine, count ≠ .number 0 numberLine) ∧ body ≠ [] := by
    intro count body line member
    obtain ⟨_, nothing⟩ := exists_lintNode_eq_nil inside member (by simp [toStmt])
    exact Survey.lintLoop_eq_nil_iff.mp nothing
  refine { single, called := ?_, matched := ?_, known := ?_, used := ?_, counted := ?_, loops := ?_,
           branches := ?_, bodies := ?_ }
  · exact fun f defined => Node.mem_calledNames.mp (quiet f defined).2.1
  · intro name arguments implicit line member
    obtain ⟨_, nothing⟩ := exists_lintNode_eq_nil inside member (by simp [toStmt])
    obtain ⟨f, found, arity⟩ := Survey.lintCall_eq_nil_iff.mp nothing
    obtain ⟨defined, named⟩ := (function?_eq_some_iff single).mp found
    exact ⟨f, defined, named, arity⟩
  · intro home name line here
    have set := Survey.lintVar_eq_nil_iff.mp (lintBody_eq_nil_iff.mp inside home _ here)
    exact set.imp_left Node.mem_assignedNames.mp
  · exact fun f defined parameter own => Survey.mem_ownReads.mp ((quiet f defined).2.2 parameter own)
  · exact fun body numberLine line member => (loops _ _ _ member).1 numberLine rfl
  · exact fun count line member => (loops _ _ _ member).2 rfl
  · intro condition line member
    obtain ⟨_, nothing⟩ := exists_lintNode_eq_nil inside member (by simp [toStmt])
    simp [Survey.lintNode] at nothing
  · exact fun f defined => (quiet f defined).1

/-- `lintNode` says nothing about the nodes of a `Blameless` program. -/
theorem Blameless.lintNode_eq_nil (blameless : program.Blameless) {home : Option FunctionDef}
    {node : Node} (here : (home, node) ∈ program.placed) :
    program.survey.lintNode (parametersOf home) node = [] := by
  have member : node ∈ program.nodes := mem_nodes_of_mem_placed here
  cases node with
  | stmt stmt =>
    cases stmt with
    | loop count body line =>
      refine Survey.lintLoop_eq_nil_iff.mpr ⟨?_, ?_⟩
      · rintro numberLine rfl
        exact blameless.counted _ _ _ member
      · rintro rfl
        exact blameless.loops _ _ member
    | branch condition body line =>
      cases body with
      | nil => exact absurd member (blameless.branches _ _)
      | cons stmt stmts => rfl
    | call name arguments implicit line =>
      obtain ⟨f, defined, named, arity⟩ := blameless.matched _ _ _ _ member
      have found := (function?_eq_some_iff blameless.single).mpr ⟨defined, named⟩
      exact Survey.lintCall_eq_nil_iff.mpr ⟨f, found, arity⟩
    | block body line => rfl
    | command kind line => rfl
    | assign name value line => rfl
    | define name own body line => rfl
    | missing => rfl
  | expr expr =>
    cases expr with
    | var name line =>
      have known := blameless.known _ _ _ here
      exact Survey.lintVar_eq_nil_iff.mpr (known.imp_left Node.mem_assignedNames.mpr)
    | number value line => rfl
    | distance line => rfl
    | missing => rfl
  | condition condition => rfl

/-- **`lint` keeps silent exactly about `Blameless` programs.** -/
theorem lint_eq_nil_iff_blameless : program.lint = [] ↔ program.Blameless := by
  refine ⟨.of_lint_eq_nil, fun blameless => lint_eq_nil_iff.mpr ⟨?_, ?_, ?_⟩⟩
  · exact repeatedDefinitions_eq_nil_iff.mpr
      ⟨blameless.single, fun _ _ _ before => absurd before List.not_mem_nil⟩
  · exact lintBody_eq_nil_iff.mpr fun home node here => blameless.lintNode_eq_nil here
  · intro f first
    rw [functions_eq_definitions blameless.single] at first
    refine Survey.lintFunction_eq_nil_iff.mpr ⟨blameless.bodies f first, ?_, ?_⟩
    · exact Node.mem_calledNames.mpr (blameless.called f first)
    · exact fun parameter own => Survey.mem_ownReads.mpr (blameless.used f first parameter own)

/-! ## Checks -/

/-- **A `check` gives a program or an error, never both.** A source that cannot be read gives no
program and one message, an error with the text, place and hint of the fault. A source that can be
read gives its program and warnings only, each on the line of a node of the program, and no warning
exactly if the program is `Blameless`. So there are errors exactly where there is no program. -/
theorem check_exact (source : List UInt8) :
    ((∃ fault, parse source = .error fault ∧ (check source).1 = none ∧
        ∃ d, (check source).2 = [d] ∧ d.severity = .error ∧ d.message = fault.message ∧
          d.line = fault.line ∧ d.column = fault.column ∧ d.hint? = fault.hint?) ∨
      ∃ program, parse source = .ok program ∧ (check source).1 = some program ∧
        (∀ d ∈ (check source).2, d.severity = .warning ∧
          ∃ node ∈ program.nodes, node.line = d.line) ∧
        ((check source).2 = [] ↔ program.Blameless)) ∧
    ((check source).2.hasErrors = true ↔ (check source).1 = none) := by
  cases read : parse source with
  | error fault =>
    have answer : check source = (none, [.ofNotice fault.notice]) := by rw [check, read]
    rw [answer]
    refine ⟨.inl ⟨fault, rfl, rfl, _, rfl, rfl, rfl, rfl, rfl, rfl⟩, ?_⟩
    exact iff_of_true rfl rfl
  | ok program =>
    have answer : check source = (some program, program.lint) := by rw [check, read]
    rw [answer]
    refine ⟨.inr ⟨program, rfl, rfl, fun d => exists_node_of_mem_lint, lint_eq_nil_iff_blameless⟩, ?_⟩
    refine iff_of_false ?_ (Option.some_ne_none program)
    intro errors
    obtain ⟨d, member, error⟩ := List.any_eq_true.mp errors
    rw [(exists_node_of_mem_lint member).1] at error
    cases error

end Program

end MazeRobot
