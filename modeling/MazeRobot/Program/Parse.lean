import MazeRobot.Form
import MazeRobot.Program.Basic
import MazeRobot.Word

/-! # Reading programs

From the bytes of a source to its syntax tree. The source is grouped into forms first; then each
top-level form becomes a statement, from left to right, and the first fault ends the reading.

* `Construct.ofWord`: what a list is, by its first word.
* `Expr.ofForm`, `Condition.ofForm`, `Stmt.ofForm`: the meaning of a form in each position.
* `Program.parse`: the program of a source. -/

namespace MazeRobot

/-- What a list means, as told by its first word. -/
inductive Construct where
  /-- A robot command without arguments. -/
  | command (command : Command)
  /-- A turn whose direction is an argument. -/
  | turn
  /-- A loop. -/
  | loop
  /-- A conditional. -/
  | branch
  /-- An assignment. -/
  | assign
  /-- A function definition. -/
  | define
  /-- A call by the word for it. -/
  | call
  /-- A condition. -/
  | condition
  /-- The distance to the goal. -/
  | distance
  /-- Any other word: the name of a function to call. -/
  | named
  deriving DecidableEq, Repr

/-- What a list that starts with the given word means. -/
def Construct.ofWord (word : String) : Construct :=
  match word with
  | "forward" | "move" | "move-forward" => command .forward
  | "turn-left" | "left" => command .turnLeft
  | "turn-right" | "right" => command .turnRight
  | "turn" => turn
  | "repeat" => loop
  | "if" => branch
  | "set" | "let" => assign
  | "function" | "def" | "define" | "func" => define
  | "call" => call
  | "sensor" | "closer" | "not" => condition
  | "distance-to-end" | "distance" => distance
  | _ => named

/-- The cause as a fault at a place. -/
def Cause.placed (cause : Cause) (mark : Mark) : Fault := ⟨cause, mark.line, mark.column⟩

/-- The cause as a fault about a whole form, of which only the line is told. -/
def Cause.about (cause : Cause) (form : Form) : Fault := ⟨cause, form.line, 0⟩

/-! ## Values -/

/-- The greatest number that a source may write. -/
def maxNumber : Nat := wordBound - 1

/-- The value of decimal digits. -/
def digitsValue (digits : List Char) : Nat :=
  digits.foldl (fun value c => value * 10 + (c.toNat - 0x30)) 0

namespace Expr

/-- The value written by a number. -/
def ofNumber (text : String) (mark : Mark) : Except Fault Expr :=
  if text.toList.head? = some '-' then .error ((Cause.negativeNumber text).placed mark)
  else
    let value := digitsValue text.toList
    if value ≤ maxNumber then .ok (number value mark.line)
    else .error ((Cause.numberTooLarge text).placed mark)

/-- The value that a form stands for. -/
def ofForm : Form → Except Fault Expr
  | .number text mark => ofNumber text mark
  | .symbol name mark => .ok (var name mark.line)
  | .list [] mark => .error (Cause.emptyExpression.placed mark)
  | .list (.symbol head place :: rest) mark =>
    match Construct.ofWord head with
    | .distance =>
      if rest.isEmpty then .ok (distance mark.line)
      else .error ((Cause.distanceArguments head).placed place)
    | _ => .error ((Cause.unknownExpression head).placed place)
  | .list (first :: _) mark => .error ((Cause.headNotSymbol first.shape).placed mark)

/-- The values that forms stand for; the first fault wins. -/
def ofForms : List Form → Except Fault (List Expr)
  | [] => .ok []
  | form :: forms => do
    let value ← ofForm form
    let values ← ofForms forms
    return value :: values

end Expr

/-! ## Conditions -/

/-- The direction given to a query. -/
def Direction.ofForms (head : String) (place : Mark) : List Form → Except Fault Direction
  | [] => .error ((Cause.directionMissing head).placed place)
  | [.symbol name mark] =>
    match Direction.ofName? name with
    | some direction => .ok direction
    | none => .error ((Cause.unknownDirection head name).placed mark)
  | [form] => .error ((Cause.directionNotSymbol head form.shape).about form)
  | _ :: _ :: _ => .error ((Cause.directionExtra head).placed place)

namespace Condition

/-- The condition with the opposite answer. -/
def negate (condition : Condition) : Condition := { condition with negated := !condition.negated }

/-- The condition that a form stands for. -/
def ofForm : Form → Except Fault Condition
  | .list [] mark => .error (Cause.emptyCondition.placed mark)
  | .list (.symbol head place :: rest) _ =>
    match head with
    | "sensor" => do
      let direction ← Direction.ofForms head place rest
      return ⟨.sensor, false, direction, place.line⟩
    | "closer" => do
      let direction ← Direction.ofForms head place rest
      return ⟨.closer, false, direction, place.line⟩
    | "not" =>
      match rest with
      | [inner] => do
        let condition ← ofForm inner
        return condition.negate
      | _ => .error (Cause.negationArity.placed place)
    | _ => .error ((Cause.unknownCondition head).placed place)
  | .list (_ :: _) mark => .error (Cause.conditionHead.placed mark)
  | form => .error ((Cause.conditionNotList form.shape).about form)

end Condition

/-! ## Statements -/

/-- The turn that the arguments of a turn ask for. -/
def Command.ofTurn (place : Mark) : List Form → Except Fault Command
  | [] => .error (Cause.turnMissing.placed place)
  | [.symbol name mark] =>
    match name with
    | "left" => .ok .turnLeft
    | "right" => .ok .turnRight
    | _ => .error ((Cause.unknownTurn name).placed mark)
  | [form] => .error ((Cause.turnNotSymbol form.shape).about form)
  | _ :: _ :: _ => .error (Cause.turnExtra.placed place)

/-- The parameters of a function: symbols, none of them twice. The names in `seen` have been
used. -/
def parametersOfForms (function : String) (seen : List String) :
    List Form → Except Fault (List String)
  | [] => .ok []
  | .symbol name mark :: forms =>
    if name ∈ seen then .error ((Cause.duplicateParameter name function).placed mark)
    else do
      let names ← parametersOfForms function (name :: seen) forms
      return name :: names
  | form :: _ => .error ((Cause.parameterNotSymbol form.shape).about form)

/-- The name and the parameters that start a function definition. -/
def headerOfForms (place : Mark) : List Form → Except Fault (String × List String)
  | name :: parameters :: _ =>
    match name with
    | .symbol function mark =>
      if Construct.ofWord function ≠ .named then
        .error ((Cause.functionReserved function).placed mark)
      else
        match parameters with
        | .list items _ => do
          let names ← parametersOfForms function [] items
          return (function, names)
        | form => .error ((Cause.parametersNotList form.shape).about form)
    | form => .error ((Cause.functionName form.shape).about form)
  | _ => .error (Cause.functionShort.placed place)

namespace Stmt

mutual

/-- The statement that a form stands for. -/
def ofForm : Form → Except Fault Stmt
  | .list items mark => ofItems mark items
  | form => .error ((Cause.statementNotList form.shape).about form)

/-- The statement that the items of a list stand for; the list starts at `mark`. -/
def ofItems (mark : Mark) : List Form → Except Fault Stmt
  | [] => .error (Cause.emptyExpression.placed mark)
  | .symbol head place :: rest =>
    match Construct.ofWord head with
    | .command kind =>
      if rest.isEmpty then .ok (command kind place.line)
      else .error ((Cause.commandArguments head).placed place)
    | .turn => do
      let kind ← Command.ofTurn place rest
      return command kind place.line
    | .loop =>
      match rest with
      | [] => .error (Cause.countMissing.placed place)
      | form :: forms => do
        let count ← Expr.ofForm form
        let body ← ofForms forms
        return loop count body place.line
    | .branch =>
      match rest with
      | [] => .error (Cause.conditionMissing.placed place)
      | form :: forms => do
        let condition ← Condition.ofForm form
        let body ← ofForms forms
        return branch condition body place.line
    | .assign =>
      match rest with
      | [.symbol name _, form] => do
        let value ← Expr.ofForm form
        return assign name value place.line
      | [target, _] => .error ((Cause.assignmentName head target.shape).about target)
      | _ => .error ((Cause.assignmentArity head).placed place)
    | .define => do
      let (name, parameters) ← headerOfForms place rest
      let body ← match rest with
        | _ :: _ :: forms => ofForms forms
        | _ => .ok []
      return define name parameters body place.line
    | .call =>
      match rest with
      | [] => .error (Cause.calleeMissing.placed place)
      | .symbol name _ :: forms => do
        let arguments ← Expr.ofForms forms
        return call name arguments false place.line
      | form :: _ => .error ((Cause.calleeNotSymbol form.shape).about form)
    | .condition => .error ((Cause.conditionAsStatement head).placed place)
    | .distance => .error ((Cause.valueAsStatement head).placed place)
    | .named => do
      let arguments ← Expr.ofForms rest
      return call head arguments true place.line
  | first :: _ => .error ((Cause.headNotSymbol first.shape).placed mark)

/-- The statements that forms stand for; the first fault wins. -/
def ofForms : List Form → Except Fault (List Stmt)
  | [] => .ok []
  | form :: forms => do
    let stmt ← ofForm form
    let stmts ← ofForms forms
    return stmt :: stmts

end

/-- The statement that a top-level form stands for. -/
def ofTopLevel : Form → Except Fault Stmt
  | .symbol name mark => .error ((Cause.topLevelSymbol name).placed mark)
  | .number text mark => .error ((Cause.topLevelNumber text).placed mark)
  | form => ofForm form

end Stmt

namespace Program

/-- The program that top-level forms stand for. -/
def ofForms (forms : List Form) : Except Fault Program := do
  let body ← forms.mapM Stmt.ofTopLevel
  return ⟨body, 1⟩

/-- The program of a source. -/
def parse (source : List UInt8) : Except Fault Program := do
  let forms ← Form.read source
  ofForms forms

end Program

end MazeRobot
