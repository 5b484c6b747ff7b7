import MazeRobot.Direction

/-! # Programs

The syntax trees of robot programs. Every node carries the line of the source that it came from, or
zero where there is none. A tree that was not read from a source may have holes: a statement or a
value that is missing.

* `Command`: the three things a robot can do.
* `Expr`, `Condition`, `Stmt`: values, tests and statements.
* `FunctionDef`: a function definition taken out of its statement.
* `Program`: a sequence of statements. -/

namespace MazeRobot

/-- A robot command. -/
inductive Command where
  /-- One cell forward. -/
  | forward
  /-- A quarter turn to the left. -/
  | turnLeft
  /-- A quarter turn to the right. -/
  | turnRight
  deriving DecidableEq, Repr

namespace Command

/-- All commands, in the order of their numbers. -/
def all : List Command := [forward, turnLeft, turnRight]

/-- The name of a command in the syntax tree. -/
def name : Command → String
  | forward => "forward"
  | turnLeft => "turn_left"
  | turnRight => "turn_right"

/-- The words by which a command is given to the robot. -/
def instruction : Command → String
  | forward => "forward"
  | turnLeft => "turn left"
  | turnRight => "turn right"

/-- The word for a command in a source. -/
def keyword : Command → String
  | forward => "forward"
  | turnLeft => "turn-left"
  | turnRight => "turn-right"

/-- The command with the given number. -/
def ofCode? (n : Int) : Option Command := if n < 0 then none else all[n.toNat]?

/-- The name shown for a number, also one that numbers no command. -/
def nameOfCode (n : Int) : String := (ofCode? n).elim "unknown" name

/-- The words for a number, none where it numbers no command. -/
def instructionOfCode (n : Int) : String := (ofCode? n).elim "" instruction

end Command

/-- What a condition asks the robot. -/
inductive Query where
  /-- Whether the neighbouring cell is blocked. -/
  | sensor
  /-- Whether a step there leads nearer to the goal. -/
  | closer
  deriving DecidableEq, Repr

namespace Query

/-- All queries, in the order of their numbers. -/
def all : List Query := [sensor, closer]

/-- The word for a query. -/
def name : Query → String
  | sensor => "sensor"
  | closer => "closer"

/-- The name shown for a number, also one that numbers no query. -/
def nameOfCode (n : Int) : String :=
  if n < 0 then "unknown" else (all[n.toNat]?).elim "unknown" name

end Query

/-- The test of a conditional: a query in a direction, possibly negated. -/
structure Condition where
  /-- What is asked. -/
  query : Query
  /-- Whether the answer is turned around. -/
  negated : Bool
  /-- The direction that is asked about. -/
  direction : Direction
  /-- The line of the source. -/
  line : Int
  deriving DecidableEq, Repr

/-- A value. -/
inductive Expr where
  /-- A number. -/
  | number (value : Int) (line : Int)
  /-- A variable. -/
  | var (name : String) (line : Int)
  /-- The distance to the goal. -/
  | distance (line : Int)
  /-- A value that is missing. -/
  | missing
  deriving DecidableEq, Repr

/-- A statement. -/
inductive Stmt where
  /-- Statements run one after the other. -/
  | block (body : List Stmt) (line : Int)
  /-- A robot command. -/
  | command (command : Command) (line : Int)
  /-- A loop that runs its body a number of times. -/
  | loop (count : Expr) (body : List Stmt) (line : Int)
  /-- A conditional. One that is read from a source has a condition. -/
  | branch (condition : Option Condition) (body : List Stmt) (line : Int)
  /-- An assignment to a variable. -/
  | assign (name : String) (value : Expr) (line : Int)
  /-- A function definition. -/
  | define (name : String) (parameters : List String) (body : List Stmt) (line : Int)
  /-- A call of a function; it is implicit when the function's name is the head of the list. -/
  | call (name : String) (arguments : List Expr) (implicit : Bool) (line : Int)
  /-- A statement that is missing. -/
  | missing
  deriving Repr

namespace Stmt

mutual

/-- Whether two statements are the same. -/
def same : Stmt → Stmt → Bool
  | block body line, block body' line' => sameAll body body' && line == line'
  | command kind line, command kind' line' => kind == kind' && line == line'
  | loop count body line, loop count' body' line' =>
    count == count' && sameAll body body' && line == line'
  | branch condition body line, branch condition' body' line' =>
    condition == condition' && sameAll body body' && line == line'
  | assign name value line, assign name' value' line' =>
    name == name' && value == value' && line == line'
  | define name parameters body line, define name' parameters' body' line' =>
    name == name' && parameters == parameters' && sameAll body body' && line == line'
  | call name arguments implicit line, call name' arguments' implicit' line' =>
    name == name' && arguments == arguments' && implicit == implicit' && line == line'
  | missing, missing => true
  | _, _ => false

/-- Whether two sequences of statements are the same. -/
def sameAll : List Stmt → List Stmt → Bool
  | [], [] => true
  | stmt :: stmts, stmt' :: stmts' => same stmt stmt' && sameAll stmts stmts'
  | _, _ => false

end

mutual

/-- `Stmt.same` decides equality of statements. -/
theorem same_iff (first second : Stmt) : first.same second = true ↔ first = second := by
  cases first with
  | block body line => cases second <;> simp [same, sameAll_iff body]
  | command kind line => cases second <;> simp [same]
  | loop count body line => cases second <;> simp [same, sameAll_iff body, and_assoc]
  | branch condition body line => cases second <;> simp [same, sameAll_iff body, and_assoc]
  | assign name value line => cases second <;> simp [same, and_assoc]
  | define name parameters body line => cases second <;> simp [same, sameAll_iff body, and_assoc]
  | call name arguments implicit line => cases second <;> simp [same, and_assoc]
  | missing => cases second <;> simp [same]

/-- `Stmt.sameAll` decides equality of sequences of statements. -/
theorem sameAll_iff (first second : List Stmt) : sameAll first second = true ↔ first = second := by
  cases first with
  | nil => cases second <;> simp [sameAll]
  | cons stmt stmts =>
    cases second with
    | nil => simp [sameAll]
    | cons stmt' stmts' => simp [sameAll, same_iff stmt, sameAll_iff stmts]

end

end Stmt

instance : DecidableEq Stmt := fun first second => decidable_of_iff _ (Stmt.same_iff first second)

/-- A function definition taken out of its statement. -/
structure FunctionDef where
  /-- The name of the function. -/
  name : String
  /-- The names of its parameters. -/
  parameters : List String
  /-- The statements of its body. -/
  body : List Stmt
  /-- The line of the definition. -/
  line : Int
  deriving DecidableEq, Repr

/-- A program. -/
structure Program where
  /-- The statements of the program. -/
  body : List Stmt
  /-- The line at which the program starts. -/
  line : Int
  deriving DecidableEq, Repr

namespace Expr

/-- The line of a value, zero where it is missing. -/
def line : Expr → Int
  | number _ line => line
  | var _ line => line
  | distance line => line
  | missing => 0

end Expr

instance : Inhabited Stmt := ⟨.missing⟩

namespace Stmt

/-- The line of a statement, zero where it is missing. -/
def line : Stmt → Int
  | block _ line => line
  | command _ line => line
  | loop _ _ line => line
  | branch _ _ line => line
  | assign _ _ line => line
  | define _ _ _ line => line
  | call _ _ _ line => line
  | missing => 0

/-- The definition that a statement makes, if it is one. -/
def definition? : Stmt → Option FunctionDef
  | define name parameters body line => some ⟨name, parameters, body, line⟩
  | _ => none

/-- Whether a statement is a function definition. -/
def isDefinition (stmt : Stmt) : Bool := stmt.definition?.isSome

end Stmt

/-- The program as one statement. -/
def Program.toStmt (program : Program) : Stmt := .block program.body program.line

end MazeRobot
