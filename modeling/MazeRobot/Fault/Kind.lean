/-! # Kinds of faults

The closed list of ways in which a program can be wrong, first while it is read and then while it
runs. Each kind has a number, which is its place in the list.

* `Kind.code`, `Kind.ofCode?`: the numbering.
* `Kind.isRuntime`: whether the fault arises while the program runs.
* `Kind.nameOfCode`: the name shown for any number, also one that numbers no kind. -/

namespace MazeRobot

/-- A way in which a program can be wrong. -/
inductive Kind where
  /-- A character that starts no token. -/
  | unexpectedCharacter
  /-- The source ends where an expression should start. -/
  | unexpectedEnd
  /-- A list that is never closed. -/
  | unclosedList
  /-- A token that cannot stand where it is. -/
  | unexpectedToken
  /-- A form at the top level that is no list. -/
  | topLevelMustBeList
  /-- A list without a head. -/
  | emptyExpression
  /-- An argument of the wrong shape or number. -/
  | invalidArgument
  /-- A condition nobody knows. -/
  | unknownCondition
  /-- A direction nobody knows. -/
  | unknownDirection
  /-- A number below zero. -/
  | negativeNumber
  /-- A number that does not fit. -/
  | numberOutOfRange
  /-- A function definition of the wrong shape. -/
  | malformedFunction
  /-- A built-in word in a place that is not its own. -/
  | reservedName
  /-- A list in a value position that is no value. -/
  | unknownExpression
  /-- A variable that has no value. -/
  | undefinedVariable
  /-- A call of a function that is not defined. -/
  | unknownFunction
  /-- A call with the wrong number of arguments. -/
  | arityMismatch
  /-- A loop that should run a negative number of times. -/
  | negativeRepeatCount
  /-- Calls nested too deeply. -/
  | recursionLimit
  /-- Too many operations between two robot commands. -/
  | stepBudgetExceeded
  deriving DecidableEq, Repr

namespace Kind

/-- All kinds, in the order of their numbers. -/
def all : List Kind :=
  [unexpectedCharacter, unexpectedEnd, unclosedList, unexpectedToken, topLevelMustBeList,
    emptyExpression, invalidArgument, unknownCondition, unknownDirection, negativeNumber,
    numberOutOfRange, malformedFunction, reservedName, unknownExpression, undefinedVariable,
    unknownFunction, arityMismatch, negativeRepeatCount, recursionLimit, stepBudgetExceeded]

/-- The number of a kind: its place in the list of all kinds. -/
def code (kind : Kind) : Nat := all.idxOf kind

/-- The kind with the given number. -/
def ofCode? (n : Int) : Option Kind := if n < 0 then none else all[n.toNat]?

/-- The name of a kind. -/
def name : Kind → String
  | unexpectedCharacter => "UnexpectedCharacter"
  | unexpectedEnd => "UnexpectedEOF"
  | unclosedList => "UnclosedList"
  | unexpectedToken => "UnexpectedToken"
  | topLevelMustBeList => "TopLevelMustBeList"
  | emptyExpression => "EmptyExpression"
  | invalidArgument => "InvalidArgument"
  | unknownCondition => "UnknownCondition"
  | unknownDirection => "UnknownDirection"
  | negativeNumber => "NegativeNumber"
  | numberOutOfRange => "NumberOutOfRange"
  | malformedFunction => "MalformedFunction"
  | reservedName => "ReservedName"
  | unknownExpression => "UnknownExpression"
  | undefinedVariable => "UndefinedVariable"
  | unknownFunction => "UnknownFunction"
  | arityMismatch => "ArityMismatch"
  | negativeRepeatCount => "NegativeRepeatCount"
  | recursionLimit => "RecursionLimit"
  | stepBudgetExceeded => "StepBudgetExceeded"

/-- Whether a number counts as that of a runtime kind: it is not below the first of them. -/
def isRuntimeCode (n : Int) : Bool := (code undefinedVariable : Int) ≤ n

/-- Whether the fault arises while the program runs rather than while it is read. -/
def isRuntime (kind : Kind) : Bool := isRuntimeCode kind.code

/-- The name shown for a number, with a generic one where it numbers no kind. -/
def nameOfCode (n : Int) : String :=
  match ofCode? n with
  | some kind => kind.name
  | none => s!"Kind({n})"

/-- `ofCode?` reads back what `code` writes. -/
@[simp] theorem ofCode?_code (kind : Kind) : ofCode? kind.code = some kind := by
  cases kind <;> rfl

end Kind

end MazeRobot
