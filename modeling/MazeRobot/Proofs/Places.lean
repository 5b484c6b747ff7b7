import MazeRobot.Proofs.Relocation

/-! # Reading without places

Places go from tokens to forms and from forms to the lines of a syntax tree, and nothing else
depends on them. Taking the places away is a way to move them: all go to the place that stands for
none. So it does not matter whether they are taken away before grouping or after it, and before or
after the meaning of forms is told; a fault only loses its place.

* `Fault.unplaced`, `Form.unplaced`, `Stmt.eraseLines`, `Program.eraseLines`: things without places.
* `unplacedBy`: a result without places.
* `Stmt.moved_nowhere`, `Form.moved_nowhere`: taking places away by moving them.
* `Form.group_unplaced`: grouping tokens without places.
* `Stmt.mapM_ofTopLevel_unplaced`: the meaning of forms without places.
* `Reads.parse`: the program of a source depends on its tokens alone, up to lines. -/

namespace MazeRobot

/-! ## Syntax trees without lines -/

/-- The value with every line set to zero. -/
def Expr.eraseLines : Expr → Expr
  | number value _ => number value 0
  | var name _ => var name 0
  | distance _ => distance 0
  | missing => missing

/-- The condition with its line set to zero. -/
def Condition.eraseLines (condition : Condition) : Condition := { condition with line := 0 }

namespace Stmt

mutual

/-- The statement with every line set to zero. -/
def eraseLines : Stmt → Stmt
  | block body _ => block (eraseAllLines body) 0
  | command kind _ => command kind 0
  | loop count body _ => loop count.eraseLines (eraseAllLines body) 0
  | branch condition body _ => branch (condition.map Condition.eraseLines) (eraseAllLines body) 0
  | assign name value _ => assign name value.eraseLines 0
  | define name parameters body _ => define name parameters (eraseAllLines body) 0
  | call name arguments implicit _ => call name (arguments.map Expr.eraseLines) implicit 0
  | missing => missing

/-- The statements with every line set to zero. -/
def eraseAllLines : List Stmt → List Stmt
  | [] => []
  | stmt :: stmts => eraseLines stmt :: eraseAllLines stmts

end

end Stmt

/-- The program with every line set to zero. -/
def Program.eraseLines (program : Program) : Program := ⟨Stmt.eraseAllLines program.body, 0⟩

/-! ## Forms and results without places -/

/-- The fault without its place. -/
def Fault.unplaced (fault : Fault) : Fault := { fault with line := 0, column := 0 }

/-- A result without places: a fault loses its place, and a value is changed as given. -/
def unplacedBy {α β : Type} (change : α → β) : Except Fault α → Except Fault β
  | .ok value => .ok (change value)
  | .error fault => .error fault.unplaced

namespace Form

mutual

/-- The form with its places taken away. -/
def unplaced : Form → Form
  | symbol name _ => symbol name Mark.nowhere
  | number text _ => number text Mark.nowhere
  | list items _ => list (unplacedAll items) Mark.nowhere

/-- The forms with their places taken away. -/
def unplacedAll : List Form → List Form
  | [] => []
  | form :: forms => unplaced form :: unplacedAll forms

end

end Form

/-! ## Taking places away by moving them -/

/-- `Expr.moved` to nowhere is `eraseLines`. -/
theorem Expr.moved_nowhere (value : Expr) : value.moved .nowhere = value.eraseLines := by
  cases value <;> rfl

mutual

/-- `Stmt.moved` to nowhere is `eraseLines`. -/
theorem Stmt.moved_nowhere (stmt : Stmt) : stmt.moved .nowhere = stmt.eraseLines := by
  cases stmt with
  | block body line => rw [moved, eraseLines, movedAll_nowhere body]; rfl
  | command kind line => rfl
  | loop count body line =>
    rw [moved, eraseLines, Expr.moved_nowhere, movedAll_nowhere body]
    rfl
  | branch condition body line => rw [moved, eraseLines, movedAll_nowhere body]; rfl
  | assign name value line => rw [moved, eraseLines, Expr.moved_nowhere]; rfl
  | define name parameters body line => rw [moved, eraseLines, movedAll_nowhere body]; rfl
  | call name arguments implicit line =>
    rw [moved, eraseLines, List.map_congr_left fun value _ => value.moved_nowhere]
    rfl
  | missing => rfl

/-- `Stmt.movedAll` to nowhere is `eraseAllLines`. -/
theorem Stmt.movedAll_nowhere (stmts : List Stmt) :
    movedAll .nowhere stmts = eraseAllLines stmts := by
  cases stmts with
  | nil => rfl
  | cons stmt stmts => rw [movedAll, eraseAllLines, moved_nowhere stmt, movedAll_nowhere stmts]

end

mutual

/-- `Form.moved` to nowhere is `unplaced`. -/
theorem Form.moved_nowhere (form : Form) : form.moved .nowhere = form.unplaced := by
  cases form with
  | symbol name mark => rfl
  | number text mark => rfl
  | list items mark => rw [moved, unplaced, movedAll_nowhere items]; rfl

/-- `Form.movedAll` to nowhere is `unplacedAll`. -/
theorem Form.movedAll_nowhere (forms : List Form) : movedAll .nowhere forms = unplacedAll forms := by
  cases forms with
  | nil => rfl
  | cons form forms => rw [movedAll, unplacedAll, moved_nowhere form, movedAll_nowhere forms]

end

/-- A result that `Follows` another to nowhere is that one without places. -/
theorem Follows.eq_unplacedBy {α β : Type} {change change' : α → β} {first : Except Fault α}
    {second : Except Fault β} (follows : Follows .nowhere change first second)
    (same : ∀ value, change value = change' value) : second = unplacedBy change' first := by
  cases follows with
  | value value => exact congrArg Except.ok (same value)
  | fault static => rfl

/-- `Form.group` commutes with taking away the places. -/
theorem Form.group_unplaced (tokens : List Token) :
    group (tokens.map Token.unplaced) = unplacedBy unplacedAll (group tokens) :=
  (follows_group .nowhere tokens).eq_unplacedBy movedAll_nowhere

/-- `Stmt.ofTopLevel` of forms in a row commutes with taking away the places. -/
theorem Stmt.mapM_ofTopLevel_unplaced (forms : List Form) :
    (Form.unplacedAll forms).mapM ofTopLevel =
      unplacedBy eraseAllLines (forms.mapM ofTopLevel) := by
  rw [← Form.movedAll_nowhere]
  exact (follows_mapM_ofTopLevel .nowhere forms).eq_unplacedBy movedAll_nowhere

/-! ## Programs -/

/-- `Expr.eraseLines` is idempotent. -/
@[simp] theorem Expr.eraseLines_eraseLines (value : Expr) :
    value.eraseLines.eraseLines = value.eraseLines := by
  cases value <;> rfl

mutual

/-- `Stmt.eraseLines` is idempotent. -/
@[simp] theorem Stmt.eraseLines_eraseLines (stmt : Stmt) :
    stmt.eraseLines.eraseLines = stmt.eraseLines := by
  cases stmt with
  | block body line => simp only [eraseLines, eraseAllLines_eraseAllLines body]
  | command kind line => rfl
  | loop count body line =>
    simp only [eraseLines, Expr.eraseLines_eraseLines, eraseAllLines_eraseAllLines body]
  | branch condition body line =>
    cases condition <;>
      simp only [eraseLines, Option.map_none, Option.map_some, Condition.eraseLines,
        eraseAllLines_eraseAllLines body]
  | assign name value line => simp only [eraseLines, Expr.eraseLines_eraseLines]
  | define name parameters body line => simp only [eraseLines, eraseAllLines_eraseAllLines body]
  | call name arguments implicit line =>
    simp only [eraseLines, List.map_map, Function.comp_def, Expr.eraseLines_eraseLines]
  | missing => rfl

/-- `Stmt.eraseAllLines` is idempotent. -/
@[simp] theorem Stmt.eraseAllLines_eraseAllLines (stmts : List Stmt) :
    eraseAllLines (eraseAllLines stmts) = eraseAllLines stmts := by
  cases stmts with
  | nil => rfl
  | cons stmt stmts =>
    rw [eraseAllLines, eraseAllLines, eraseLines_eraseLines stmt, eraseAllLines_eraseAllLines stmts]

end

namespace Program

/-- `ofForms` depends on the places of the forms only by its lines. -/
theorem ofForms_unplaced (forms : List Form) :
    unplacedBy eraseLines (ofForms (Form.unplacedAll forms)) =
      unplacedBy eraseLines (ofForms forms) := by
  unfold ofForms
  rw [Stmt.mapM_ofTopLevel_unplaced]
  cases forms.mapM Stmt.ofTopLevel with
  | error fault => rfl
  | ok body =>
    -- The program has a line of its own, so lines are erased on both sides.
    refine congrArg (fun body => Except.ok (Program.mk body 0)) ?_
    exact Stmt.eraseAllLines_eraseAllLines body

end Program

/-- `Program.parse` depends on the tokens of `Token.scan`, and on their places only by its lines. -/
theorem Program.parse_of_scan {source : List UInt8} {tokens : List Token}
    (scanned : Token.scan source = .ok tokens) :
    unplacedBy eraseLines (parse source) =
      unplacedBy eraseLines (Form.group (tokens.map Token.unplaced) >>= ofForms) := by
  have whole : parse source = Form.group tokens >>= ofForms := by rw [parse, Form.read, scanned]
  rw [whole, Form.group_unplaced]
  cases Form.group tokens with
  | error fault => rfl
  | ok forms => exact (ofForms_unplaced forms).symm

/-- `Program.parse` depends on the tokens that a source `Reads`, up to lines. -/
theorem Reads.parse {source : List UInt8} {tokens : List Token} (reads : Reads source tokens) :
    unplacedBy Program.eraseLines (Program.parse source) =
      unplacedBy Program.eraseLines (Form.group tokens >>= Program.ofForms) := by
  obtain ⟨found, scanned, rfl⟩ := reads Mark.start
  exact Program.parse_of_scan scanned

end MazeRobot
