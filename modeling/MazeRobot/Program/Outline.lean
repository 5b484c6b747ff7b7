import MazeRobot.Program.Basic

/-! # Outlines

The syntax tree of a program as indented text, one node to a line, for reading by people.

* `Stmt.outline`, `Expr.outline`, `Condition.outline`: the lines of a node.
* `Program.outline`: the lines of a program. -/

namespace MazeRobot

/-- Two blanks for each level of nesting. -/
def indentation (depth : Nat) : String := String.ofList (List.replicate (2 * depth) ' ')

/-- The line for a value. -/
def Expr.outline (depth : Nat) : Expr → String
  | number value _ => indentation depth ++ s!"Number: {value}\n"
  | var name _ => indentation depth ++ s!"Variable: {name}\n"
  | distance _ => indentation depth ++ "DistanceToEnd\n"
  | missing => ""

/-- The line for a condition. -/
def Condition.outline (depth : Nat) (condition : Condition) : String :=
  indentation depth ++ "Condition: " ++ (if condition.negated then "not " else "") ++
    condition.query.name ++ " " ++ condition.direction.name ++ "\n"

namespace Stmt

mutual

/-- The lines for a statement. -/
def outline (depth : Nat) : Stmt → String
  | block body _ => indentation depth ++ "Block\n" ++ outlineAll (depth + 1) body
  | command kind line =>
    indentation depth ++ "Command: " ++ kind.name ++ s!" (line {line})\n"
  | loop count body line =>
    indentation depth ++ s!"Repeat (line {line})\n" ++
      indentation depth ++ "  Count:\n" ++ count.outline (depth + 2) ++
      indentation depth ++ "  Body:\n" ++ outlineAll (depth + 2) body
  | branch condition body line =>
    indentation depth ++ s!"If (line {line})\n" ++
      condition.elim "" (·.outline (depth + 1)) ++
      indentation depth ++ "  Body:\n" ++ outlineAll (depth + 2) body
  | assign name value line =>
    indentation depth ++ s!"Set: {name} (line {line})\n" ++ value.outline (depth + 1)
  | define name parameters body line =>
    indentation depth ++ s!"Function: {name}(" ++ String.intercalate ", " parameters ++
      s!") (line {line})\n" ++ outlineAll (depth + 1) body
  | call name arguments implicit line =>
    indentation depth ++ (if implicit then "Call (implicit)" else "Call") ++
      s!": {name} (line {line})\n" ++ String.join (arguments.map (·.outline (depth + 1)))
  | missing => ""

/-- The lines for statements. -/
def outlineAll (depth : Nat) : List Stmt → String
  | [] => ""
  | stmt :: stmts => outline depth stmt ++ outlineAll depth stmts

end

end Stmt

/-- The lines for a program. -/
def Program.outline (program : Program) : String := program.toStmt.outline 0

end MazeRobot
