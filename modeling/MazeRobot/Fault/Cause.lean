import MazeRobot.Fault.Kind
import MazeRobot.Text.Suggestion

/-! # Causes of faults

What exactly is wrong with a program. A cause carries the words of the program that it is about; its
kind, its message and its hint are read off it.

* `Shape`: how a form looks in a message.
* `Cause`: one constructor for each thing that can be wrong.
* `Cause.kind`, `Cause.message`, `Cause.hint?`: what is reported. -/

namespace MazeRobot

/-- How a form looks in a message about it. -/
inductive Shape where
  /-- A symbol. -/
  | symbol (name : String)
  /-- A number, as it is written. -/
  | number (text : String)
  /-- A list that starts with a symbol. -/
  | listOf (head : String)
  /-- Any other list. -/
  | list
  deriving DecidableEq, Repr

/-- The words for a form in a message. -/
def Shape.describe : Shape → String
  | symbol name => s!"'{name}'"
  | number text => s!"number {text}"
  | listOf head => s!"list '({head} ...)'"
  | list => "a list"

/-- What is wrong with a program. -/
inductive Cause where
  /-- A character that starts no token. -/
  | strayCharacter (c : Char)
  /-- A closing parenthesis that closes nothing. -/
  | strayClose
  /-- A list that is never closed. -/
  | unclosedList
  /-- A symbol at the top level. -/
  | topLevelSymbol (name : String)
  /-- A number at the top level. -/
  | topLevelNumber (text : String)
  /-- An empty list in place of a statement or a value. -/
  | emptyExpression
  /-- An empty list in place of a condition. -/
  | emptyCondition
  /-- A statement that is no list. -/
  | statementNotList (found : Shape)
  /-- A list that does not start with a symbol. -/
  | headNotSymbol (found : Shape)
  /-- A command with arguments. -/
  | commandArguments (head : String)
  /-- A turn without a direction. -/
  | turnMissing
  /-- A turn with more than one direction. -/
  | turnExtra
  /-- A turn whose direction is no symbol. -/
  | turnNotSymbol (found : Shape)
  /-- A turn that is neither left nor right. -/
  | unknownTurn (name : String)
  /-- A loop without a count. -/
  | countMissing
  /-- A conditional without a condition. -/
  | conditionMissing
  /-- A condition that is no list. -/
  | conditionNotList (found : Shape)
  /-- A condition that does not start with a symbol. -/
  | conditionHead
  /-- A negation with no condition or with several. -/
  | negationArity
  /-- A condition nobody knows. -/
  | unknownCondition (name : String)
  /-- A condition without a direction. -/
  | directionMissing (head : String)
  /-- A condition with more than one direction. -/
  | directionExtra (head : String)
  /-- A condition whose direction is no symbol. -/
  | directionNotSymbol (head : String) (found : Shape)
  /-- A condition with a direction nobody knows. -/
  | unknownDirection (head name : String)
  /-- An assignment without a name and one value. -/
  | assignmentArity (head : String)
  /-- An assignment to something that is no symbol. -/
  | assignmentName (head : String) (found : Shape)
  /-- A function definition without a name or parameters. -/
  | functionShort
  /-- A function whose name is no symbol. -/
  | functionName (found : Shape)
  /-- A function named like a built-in. -/
  | functionReserved (name : String)
  /-- Function parameters that are no list. -/
  | parametersNotList (found : Shape)
  /-- A function parameter that is no symbol. -/
  | parameterNotSymbol (found : Shape)
  /-- A parameter that occurs twice. -/
  | duplicateParameter (parameter function : String)
  /-- A call that names no function. -/
  | calleeMissing
  /-- A call of something that is no symbol. -/
  | calleeNotSymbol (found : Shape)
  /-- A condition in place of a statement. -/
  | conditionAsStatement (head : String)
  /-- A value in place of a statement. -/
  | valueAsStatement (head : String)
  /-- A distance with arguments. -/
  | distanceArguments (head : String)
  /-- A list in a value position that is no value. -/
  | unknownExpression (name : String)
  /-- A number below zero. -/
  | negativeNumber (text : String)
  /-- A number that does not fit. -/
  | numberTooLarge (text : String)
  /-- A variable without a value, with the names that have one. -/
  | undefinedVariable (name : String) (visible : List String)
  /-- A call of an unknown function, with the names that are known. -/
  | unknownFunction (name : String) (known : List String)
  /-- A call with the wrong number of arguments. -/
  | arityMismatch (name : String) (expected received : Nat)
  /-- A loop that should run a negative number of times. -/
  | negativeCount (count : Int)
  /-- A call that would nest deeper than the limit. -/
  | callTooDeep (limit : Nat) (name : String)
  /-- Too many operations without a robot command. -/
  | budgetExceeded (budget : Nat)
  /-- A value position that holds nothing. -/
  | missingExpression
  deriving DecidableEq, Repr

namespace Cause

/-- The names of the directions, in the order in which they are listed. -/
def directionNames : List String := ["front", "back", "left", "right"]

/-- The words that start a condition. -/
def conditionHeads : List String := ["sensor", "closer", "not"]

/-- The words that start a value. -/
def expressionHeads : List String := ["distance-to-end", "distance"]

/-- The kind of fault that a cause makes. -/
def kind : Cause → Kind
  | strayCharacter _ => .unexpectedCharacter
  | strayClose => .unexpectedToken
  | unclosedList => .unclosedList
  | topLevelSymbol _ | topLevelNumber _ => .topLevelMustBeList
  | emptyExpression | emptyCondition => .emptyExpression
  | statementNotList _ | headNotSymbol _ | commandArguments _ | turnMissing | turnExtra
  | turnNotSymbol _ | countMissing | conditionMissing | conditionNotList _ | conditionHead
  | negationArity | directionMissing _ | directionExtra _ | directionNotSymbol _ _
  | assignmentArity _ | assignmentName _ _ | calleeMissing | calleeNotSymbol _
  | distanceArguments _ => .invalidArgument
  | unknownTurn _ | unknownDirection _ _ => .unknownDirection
  | unknownCondition _ => .unknownCondition
  | functionShort | functionName _ | parametersNotList _ | parameterNotSymbol _
  | duplicateParameter _ _ => .malformedFunction
  | functionReserved _ | conditionAsStatement _ | valueAsStatement _ => .reservedName
  | unknownExpression _ | missingExpression => .unknownExpression
  | negativeNumber _ => .negativeNumber
  | numberTooLarge _ => .numberOutOfRange
  | undefinedVariable _ _ => .undefinedVariable
  | unknownFunction _ _ => .unknownFunction
  | arityMismatch _ _ _ => .arityMismatch
  | negativeCount _ => .negativeRepeatCount
  | callTooDeep _ _ => .recursionLimit
  | budgetExceeded _ => .stepBudgetExceeded

/-- The message that a cause is reported with. -/
def message : Cause → String
  | strayCharacter c => s!"Unexpected character '{c}'"
  | strayClose => "Unexpected ')'"
  | unclosedList => "Unclosed list starting"
  | topLevelSymbol name => s!"Top level expressions must be lists, found '{name}'"
  | topLevelNumber text => s!"Top level expressions must be lists, found '{text}'"
  | emptyExpression => "Empty expression"
  | emptyCondition => "Empty condition"
  | statementNotList found => "Statements must be lists, found " ++ found.describe
  | headNotSymbol found => "Expression must start with a symbol, found " ++ found.describe
  | commandArguments head => s!"{head} takes no arguments"
  | turnMissing => "turn requires a direction"
  | turnExtra => "turn takes exactly one direction"
  | turnNotSymbol found => "Invalid turn direction " ++ found.describe
  | unknownTurn name => s!"Unknown turn direction '{name}'"
  | countMissing => "repeat requires a count"
  | conditionMissing => "if requires a condition"
  | conditionNotList found => "Invalid condition " ++ found.describe
  | conditionHead => "Condition must start with a symbol"
  | negationArity => "not expects a single condition"
  | unknownCondition name => s!"Unknown condition '{name}'"
  | directionMissing head => s!"{head} requires a direction"
  | directionExtra head => s!"{head} takes exactly one direction"
  | directionNotSymbol head found => s!"Invalid {head} direction " ++ found.describe
  | unknownDirection head name => s!"Unknown {head} direction '{name}'"
  | assignmentArity head => s!"{head} requires a variable name and a value"
  | assignmentName head found => s!"{head} requires a variable name, found " ++ found.describe
  | functionShort => "function requires a name and parameter list"
  | functionName found => "function name must be a symbol, found " ++ found.describe
  | functionReserved name => s!"'{name}' is a built-in and cannot be used as a function name"
  | parametersNotList found => "function parameters must be a list, found " ++ found.describe
  | parameterNotSymbol found => "function parameter must be a symbol, found " ++ found.describe
  | duplicateParameter parameter function =>
    s!"duplicate parameter '{parameter}' in function '{function}'"
  | calleeMissing => "call requires a function name"
  | calleeNotSymbol found => "call requires a function name, found " ++ found.describe
  | conditionAsStatement head => s!"'{head}' can only be used as an if condition"
  | valueAsStatement head => s!"'{head}' is an expression, not a statement"
  | distanceArguments head => s!"{head} does not take arguments"
  | unknownExpression name => s!"Unknown expression '{name}'"
  | negativeNumber text => s!"Numbers must be non-negative, found {text}"
  | numberTooLarge text => s!"Number {text} is too large"
  | undefinedVariable name _ => s!"Undefined variable '{name}'"
  | unknownFunction name _ => s!"Unknown function '{name}'"
  | arityMismatch name expected received =>
    s!"Function '{name}' expected {expected} argument(s) but received {received}"
  | negativeCount count => s!"repeat count must be non-negative, got {count}"
  | callTooDeep limit name => s!"Maximum call depth of {limit} exceeded calling '{name}'"
  | budgetExceeded budget => s!"Program ran {budget} operations without moving the robot"
  | missingExpression => "Unsupported expression"

/-- The hint that goes with a cause, where there is one. -/
def hint? : Cause → Option String
  | unclosedList => some "add a matching ')'"
  | topLevelSymbol name => some s!"wrap it in parentheses, e.g. '({name})'"
  | turnMissing => some "write (turn left) or (turn right)"
  | unknownTurn name => Text.suggestion? name ["left", "right"]
  | conditionNotList _ => some "conditions look like (sensor front) or (closer left)"
  | unknownCondition name => Text.suggestion? name conditionHeads
  | unknownDirection _ name => Text.suggestion? name directionNames
  | functionShort => some "write (function name (params...) body...)"
  | conditionAsStatement head => some s!"write (if ({head} ...) ...)"
  | valueAsStatement head => some s!"use it as a value, e.g. (set d ({head}))"
  | unknownExpression name => Text.suggestion? name expressionHeads
  | undefinedVariable name visible => Text.suggestion? name visible
  | unknownFunction name known => Text.suggestion? name known
  | _ => none

end Cause

end MazeRobot
