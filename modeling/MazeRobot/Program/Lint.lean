import MazeRobot.Diagnostic
import MazeRobot.Program.Walk

/-! # Lint

Warnings about programs that can be read but look wrong: functions defined twice, called but not
defined, defined but not called or empty; calls with the wrong number of arguments; variables that
are never set; parameters that are never used; loops and conditionals that do nothing.

* `Survey`: what a program defines, calls and sets, wherever it stands.
* `Program.lint`: all warnings. Repeated definitions come first, then the statements in source
  order, then the functions in alphabetical order. -/

namespace MazeRobot

/-- What a program defines, calls and sets. -/
structure Survey where
  /-- The first definition of each function, in source order. -/
  functions : List FunctionDef
  /-- The names that are called. -/
  called : List String
  /-- The names that are set. -/
  assigned : List String
  deriving Repr

namespace Survey

/-- The definition of a function. -/
def function? (survey : Survey) (name : String) : Option FunctionDef :=
  survey.functions.find? (·.name = name)

/-- The names of the functions in alphabetical order. -/
def functionNames (survey : Survey) : List String :=
  (survey.functions.map (·.name)).mergeSort (· ≤ ·)

/-- The functions in alphabetical order of their names. -/
def sortedFunctions (survey : Survey) : List FunctionDef :=
  survey.functions.mergeSort fun f g => f.name ≤ g.name

end Survey

/-- The definitions among nodes, in source order. -/
def Node.definitions (nodes : List Node) : List FunctionDef :=
  nodes.filterMap fun
    | .stmt s => s.definition?
    | _ => none

/-- The names called by nodes, in source order. -/
def Node.calledNames (nodes : List Node) : List String :=
  nodes.filterMap fun
    | .stmt (.call name _ _ _) => some name
    | _ => none

/-- The names set by nodes, in source order. -/
def Node.assignedNames (nodes : List Node) : List String :=
  nodes.filterMap fun
    | .stmt (.assign name _ _) => some name
    | _ => none

/-- The names read by nodes, in source order. -/
def Node.readNames (nodes : List Node) : List String :=
  nodes.filterMap fun
    | .expr (.var name _) => some name
    | _ => none

/-- The first definition of each function, those of the names in `seen` left out. -/
def firstDefinitions (seen : List FunctionDef) : List FunctionDef → List FunctionDef
  | [] => []
  | f :: fs =>
    if seen.any (·.name = f.name) then firstDefinitions seen fs
    else f :: firstDefinitions (f :: seen) fs

/-- The warnings about functions that are defined again. -/
def repeatedDefinitions (seen : List FunctionDef) : List FunctionDef → Diagnostics
  | [] => []
  | f :: fs =>
    match seen.find? (·.name = f.name) with
    | some first =>
      let name := f.name
      let line := first.line
      .warning f.line 0 s!"function '{name}' is already defined at line {line}" ::
        repeatedDefinitions seen fs
    | none => repeatedDefinitions (f :: seen) fs

/-- What a program defines, calls and sets. -/
def Program.survey (program : Program) : Survey where
  functions := firstDefinitions [] (Node.definitions program.nodes)
  called := Node.calledNames program.nodes
  assigned := Node.assignedNames program.nodes

namespace Survey

/-- The warning about a variable that is never set, neither anywhere nor as a parameter. -/
def lintExpr (survey : Survey) (parameters : List String) : Expr → Diagnostics
  | .var name line =>
    if name ∈ survey.assigned || name ∈ parameters then []
    else
      [.warning line 0 s!"variable '{name}' is never set"
        (Text.suggestion? name (survey.assigned ++ parameters))]
  | _ => []

/-- The warnings about a call: its function must be defined with as many parameters. -/
def lintCall (survey : Survey) (name : String) (arguments : List Expr) (line : Int) :
    Diagnostics :=
  match survey.function? name with
  | none =>
    [.warning line 0 s!"call to undefined function '{name}'"
      (Text.suggestion? name survey.functionNames)]
  | some f =>
    let expected := f.parameters.length
    let received := arguments.length
    if received ≠ expected then
      [.warning line 0
        s!"function '{name}' expects {expected} argument(s) but is called with {received}"]
    else []

/-- The warnings about a loop: it should run, and it should do something. -/
def lintLoop (count : Expr) (body : List Stmt) (line : Int) : Diagnostics :=
  (match count with
    | .number 0 _ => [.warning line 0 "repeat count is 0, the body never runs"]
    | _ => []) ++
  if body.isEmpty then [.warning line 0 "repeat has an empty body"] else []

mutual

/-- The warnings about a statement inside a function with the given parameters. -/
def lintStmt (survey : Survey) (parameters : List String) : Stmt → Diagnostics
  | .loop count body line =>
    lintLoop count body line ++ survey.lintExpr parameters count ++ lintBody survey parameters body
  | .branch _ body line =>
    (if body.isEmpty then [.warning line 0 "if has an empty body"] else []) ++
      lintBody survey parameters body
  | .assign _ value _ => survey.lintExpr parameters value
  | .define _ own body _ => lintBody survey own body
  | .call name arguments _ line =>
    survey.lintCall name arguments line ++ arguments.flatMap (survey.lintExpr parameters)
  | .block body _ => lintBody survey parameters body
  | .command _ _ => []
  | .missing => []

/-- The warnings about statements inside a function with the given parameters. -/
def lintBody (survey : Survey) (parameters : List String) : List Stmt → Diagnostics
  | [] => []
  | stmt :: stmts => lintStmt survey parameters stmt ++ lintBody survey parameters stmts

end

/-- The names that a function's own body reads, definitions inside it left aside. -/
def ownReads (f : FunctionDef) : List String :=
  Node.readNames (Stmt.walkAll (fun
    | .stmt s => !s.isDefinition
    | _ => true) f.body)

/-- The warnings about a function: it should do something, be called and use its parameters. -/
def lintFunction (survey : Survey) (f : FunctionDef) : Diagnostics :=
  let name := f.name
  let line := f.line
  (if f.body.isEmpty then [.warning line 0 s!"function '{name}' has an empty body"] else []) ++
  (if name ∈ survey.called then [] else [.warning line 0 s!"function '{name}' is never called"]) ++
  (f.parameters.filter (· ∉ ownReads f)).map fun parameter =>
    .warning line 0 s!"parameter '{parameter}' in '{name}' is never used"

end Survey

/-- All warnings about a program. -/
def Program.lint (program : Program) : Diagnostics :=
  let survey := program.survey
  repeatedDefinitions [] (Node.definitions program.nodes) ++
    survey.lintBody [] program.body ++
    survey.sortedFunctions.flatMap survey.lintFunction

end MazeRobot
