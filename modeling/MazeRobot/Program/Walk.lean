import MazeRobot.Program.Basic

/-! # Walks

The nodes of a syntax tree in the order in which they stand in the source, a node before its parts.

* `Node`: a statement, a value or a condition.
* `Stmt.walk`: the nodes of a statement; the parts of a node are left out where `enter` refuses it.
* `Program.walk`, `Program.nodes`: the nodes of a program.
* `Program.commands`: the commands of a program in source order. -/

namespace MazeRobot

/-- A node of a syntax tree. -/
inductive Node where
  /-- A statement. -/
  | stmt (stmt : Stmt)
  /-- A value. -/
  | expr (expr : Expr)
  /-- A condition. -/
  | condition (condition : Condition)
  deriving Repr

namespace Node

/-- The line of a node. -/
def line : Node → Int
  | stmt s => s.line
  | expr e => e.line
  | condition c => c.line

/-- A node followed by its parts, where it is entered. -/
def above (enter : Node → Bool) (node : Node) (parts : List Node) : List Node :=
  node :: if enter node then parts else []

end Node

/-- The nodes of a value: the value itself, unless it is missing. -/
def Expr.walk : Expr → List Node
  | missing => []
  | expr => [.expr expr]

namespace Stmt

mutual

/-- The nodes of a statement, the parts of a node only where `enter` allows. -/
def walk (enter : Node → Bool) : Stmt → List Node
  | block body line => Node.above enter (.stmt (block body line)) (walkAll enter body)
  | command kind line => Node.above enter (.stmt (command kind line)) []
  | loop count body line =>
    Node.above enter (.stmt (loop count body line)) (count.walk ++ walkAll enter body)
  | branch condition body line =>
    Node.above enter (.stmt (branch condition body line))
      (condition.toList.map .condition ++ walkAll enter body)
  | assign name value line => Node.above enter (.stmt (assign name value line)) value.walk
  | define name parameters body line =>
    Node.above enter (.stmt (define name parameters body line)) (walkAll enter body)
  | call name arguments implicit line =>
    Node.above enter (.stmt (call name arguments implicit line)) (arguments.flatMap Expr.walk)
  | missing => []

/-- The nodes of statements. -/
def walkAll (enter : Node → Bool) : List Stmt → List Node
  | [] => []
  | stmt :: stmts => walk enter stmt ++ walkAll enter stmts

end

end Stmt

namespace Program

/-- The nodes of a program, the parts of a node only where `enter` allows. -/
def walk (enter : Node → Bool) (program : Program) : List Node := program.toStmt.walk enter

/-- All nodes of a program. -/
def nodes (program : Program) : List Node := program.walk fun _ => true

/-- The commands of a program in source order, whatever the control flow. -/
def commands (program : Program) : List Command :=
  program.nodes.filterMap fun
    | .stmt (.command kind _) => some kind
    | _ => none

end Program

end MazeRobot
