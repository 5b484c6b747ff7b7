import MazeRobot.Fault.Basic
import MazeRobot.Outcome

/-! # Events

What happens while a program runs that someone tracing it wants to know.

* `Event`: the events themselves.
* `Event.importance`, `Event.message`, `Event.fields`: an event as a record of a log. -/

namespace MazeRobot

/-- How important an event is. -/
inductive Importance where
  /-- Of use to someone who traces a program. -/
  | debug
  /-- Of use to everyone. -/
  | info
  deriving DecidableEq, Repr

/-- The name of an importance in a log. -/
def Importance.name : Importance → String
  | debug => "DEBUG"
  | info => "INFO"

/-- Something that happens while a program runs. -/
inductive Event where
  /-- A loop starts, with the number of its rounds. -/
  | enteredLoop (count : Int) (line : Int)
  /-- A function is called; the depth counts the calls that are now active. -/
  | called (function : String) (arguments depth : Nat)
  /-- A function returns; the depth counts the calls that are still active. -/
  | returned (function : String) (depth : Nat)
  /-- The program fails. -/
  | failed (fault : Fault)
  /-- An attempt is given up and started afresh. -/
  | reset (level : String) (steps : Nat) (outcome : Outcome)
  /-- A run has come to its end. -/
  | finished (level : String) (outcome : Outcome) (steps : Nat)
  deriving DecidableEq, Repr

namespace Event

/-- How important the event is. -/
def importance : Event → Importance
  | reset _ _ _ | finished _ _ _ => .info
  | _ => .debug

/-- The words for the event. -/
def message : Event → String
  | enteredLoop _ _ => "enter repeat"
  | called _ _ _ => "call function"
  | returned _ _ => "return"
  | failed _ => "runtime error"
  | reset _ _ _ => "session reset"
  | finished _ _ _ => "run finished"

/-- The details of the event, in order. -/
def fields : Event → List (String × String)
  | enteredLoop count line => [("count", toString count), ("line", toString line)]
  | called function arguments depth =>
    [("function", function), ("argument-count", toString arguments), ("depth", toString depth)]
  | returned function depth => [("function", function), ("depth", toString depth)]
  | failed fault =>
    [("kind", fault.kind.name), ("message", fault.message), ("line", toString fault.line)]
  | reset level steps outcome =>
    [("level", level), ("steps", toString steps), ("outcome", outcome.name)]
  | finished level outcome steps =>
    [("level", level), ("outcome", outcome.name), ("steps", toString steps)]

end Event

end MazeRobot
