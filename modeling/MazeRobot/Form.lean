import MazeRobot.Token.Scan

/-! # Forms

Tokens grouped by their parentheses: a form is a symbol, a number or a list of forms. Grouping reads
the tokens once from left to right and keeps the lists that are still open on a stack. A reader by
recursive descent gives the same forms and faults, as `Form.readRow_eq_lift_group` shows.

* `Form`: symbols, numbers and lists with their places.
* `Form.group`: the forms of a token sequence.
* `Form.read`: the forms of a source. -/

namespace MazeRobot

/-- A symbol, a number or a list, with the place where it starts. -/
inductive Form where
  /-- A symbol. -/
  | symbol (name : String) (mark : Mark)
  /-- A number, as it is written. -/
  | number (text : String) (mark : Mark)
  /-- A list; its place is that of its opening parenthesis. -/
  | list (items : List Form) (mark : Mark)
  deriving Repr

namespace Form

/-- The place where a form starts. -/
def mark : Form → Mark
  | symbol _ mark => mark
  | number _ mark => mark
  | list _ mark => mark

/-- The line on which a form starts. -/
def line (form : Form) : Nat := form.mark.line

/-- How a form looks in a message. -/
def shape : Form → Shape
  | symbol name _ => .symbol name
  | number text _ => .number text
  | list (symbol head _ :: _) _ => .listOf head
  | list _ _ => .list

/-- A list that has been opened and not yet closed. -/
structure OpenList where
  /-- The place of the opening parenthesis. -/
  mark : Mark
  /-- The items read so far, newest first. -/
  items : List Form
  deriving Repr

/-- The form that an open list becomes when it is closed. -/
def OpenList.close (pending : OpenList) : Form := list pending.items.reverse pending.mark

/-- The state of grouping: the open lists, innermost first, and the finished forms, newest first. -/
structure Grouping where
  /-- The lists that are still open, innermost first. -/
  pending : List OpenList
  /-- The finished top-level forms, newest first. -/
  finished : List Form
  deriving Repr

namespace Grouping

/-- Nothing read yet. -/
def empty : Grouping := ⟨[], []⟩

/-- Adds a finished form to the innermost open list, or to the top level. -/
def push (form : Form) : Grouping → Grouping
  | ⟨[], finished⟩ => ⟨[], form :: finished⟩
  | ⟨inner :: outer, finished⟩ => ⟨{ inner with items := form :: inner.items } :: outer, finished⟩

/-- Opens a list. -/
def openAt (mark : Mark) (state : Grouping) : Grouping :=
  { state with pending := ⟨mark, []⟩ :: state.pending }

/-- Closes the innermost open list. -/
def closeAt (mark : Mark) : Grouping → Except Fault Grouping
  | ⟨[], _⟩ => .error ⟨.strayClose, mark.line, mark.column⟩
  | ⟨inner :: outer, finished⟩ => .ok (push inner.close ⟨outer, finished⟩)

/-- The finished forms, provided that every list is closed. -/
def finish : Grouping → Except Fault (List Form)
  | ⟨[], finished⟩ => .ok finished.reverse
  | ⟨inner :: _, _⟩ => .error ⟨.unclosedList, inner.mark.line, inner.mark.column⟩

end Grouping

/-- Groups tokens up to the end mark, from a given state. -/
def groupFrom (state : Grouping) : List Token → Except Fault (List Form)
  | [] => state.finish
  | token :: tokens =>
    match token.cls with
    | .endOfInput => state.finish
    | .opening => groupFrom (state.openAt token.mark) tokens
    | .closing =>
      match state.closeAt token.mark with
      | .ok state => groupFrom state tokens
      | .error fault => .error fault
    | .number => groupFrom (state.push (number token.literal token.mark)) tokens
    | .symbol => groupFrom (state.push (symbol token.literal token.mark)) tokens

/-- The forms of a token sequence. -/
def group (tokens : List Token) : Except Fault (List Form) := groupFrom .empty tokens

/-- The forms of a source. -/
def read (source : List UInt8) : Except Fault (List Form) :=
  match Token.scan source with
  | .ok tokens => group tokens
  | .error fault => .error fault

end Form

end MazeRobot
