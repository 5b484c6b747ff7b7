import MazeRobot.Program.Outline

/-! # Layout

The canonical source of a program: one statement to a line, bodies indented by two blanks, closing
parentheses on the last line of their list, and a blank line around function definitions at the top
level. Statements of a nested block stand as if they were written in its place.

* `Stmt.spliced`: statements with nested blocks taken apart.
* `Stmt.layout`: the source of a statement.
* `Program.layout`: the source of a program. -/

namespace MazeRobot

/-- The source of a value. -/
def Expr.layout : Expr → String
  | number value _ => toString value
  | var name _ => name
  | distance _ => "(distance-to-end)"
  | missing => ""

/-- The source of a condition. -/
def Condition.layout (condition : Condition) : String :=
  let inner := "(" ++ condition.query.name ++ " " ++ condition.direction.name ++ ")"
  if condition.negated then "(not " ++ inner ++ ")" else inner

namespace Stmt

/-- The statements with nested blocks taken apart. -/
def spliced : List Stmt → List Stmt
  | [] => []
  | block body _ :: stmts => spliced body ++ spliced stmts
  | stmt :: stmts => stmt :: spliced stmts

mutual

/-- The source of a statement at a level of nesting. -/
def layout (depth : Nat) : Stmt → String
  | command kind _ => "(" ++ kind.keyword ++ ")"
  | loop count body _ => "(repeat " ++ count.layout ++ layoutBody (depth + 1) body ++ ")"
  | branch condition body _ =>
    "(if " ++ condition.elim "" Condition.layout ++ layoutBody (depth + 1) body ++ ")"
  | assign name value _ => s!"(set {name} " ++ value.layout ++ ")"
  | define name parameters body _ =>
    s!"(function {name} (" ++ String.intercalate " " parameters ++ ")" ++
      layoutBody (depth + 1) body ++ ")"
  | call name arguments implicit _ =>
    (if implicit then s!"({name}" else s!"(call {name}") ++
      String.join (arguments.map (" " ++ ·.layout)) ++ ")"
  | block body _ => layoutBody depth body
  | missing => ""

/-- The source of a body: each statement on a line of its own. -/
def layoutBody (depth : Nat) : List Stmt → String
  | [] => ""
  | block body _ :: stmts => layoutBody depth body ++ layoutBody depth stmts
  | stmt :: stmts => "\n" ++ indentation depth ++ layout depth stmt ++ layoutBody depth stmts

end

/-- The line breaks between two top-level statements: a function stands apart by a blank line. -/
def separator (before after : Stmt) : String :=
  if before.isDefinition || after.isDefinition then "\n\n" else "\n"

/-- The source of top-level statements, each after the statement before it. -/
def layoutAfter (before : Stmt) : List Stmt → String
  | [] => "\n"
  | stmt :: stmts => separator before stmt ++ stmt.layout 0 ++ layoutAfter stmt stmts

/-- The source of top-level statements. -/
def layoutTop : List Stmt → String
  | [] => ""
  | stmt :: stmts => stmt.layout 0 ++ layoutAfter stmt stmts

end Stmt

/-- The canonical source of a program. -/
def Program.layout (program : Program) : String := Stmt.layoutTop (Stmt.spliced program.body)

end MazeRobot
