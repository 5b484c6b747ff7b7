import MazeRobot.Program.Parse
import MazeRobot.Proofs.Scanning

/-! # Moving places

The reader never makes up a place: the place of a token goes to a form, and from there to the line
of a node or to a fault. So moving all places of some tokens moves those of the result, whatever the
way in which they are moved, and changes nothing else. The faults that the reader finds are known
without running anything.

* `Relocation`: a way to move places; the line that a place comes to depends on its line only.
* `Relocation.offLine`, `Relocation.down`, `Relocation.nowhere`: ways to move them.
* `Token.moved`, `Form.moved`, `Stmt.moved`, `Fault.moved`: things whose places are moved.
* `Follows`: a result that is another one, moved.
* `Form.follows_group`, `Stmt.follows_ofForm`, `Program.follows_ofTokens`: reading tokens that are
  moved.
* `Fault.PointsAt`, `exists_pointsAt`: a fault is told at the place of a token. -/

namespace MazeRobot

/-- A way to move places. Lines are moved as wholes. A column of zero says that no column is told,
and stays. -/
structure Relocation where
  /-- Where a line comes to. -/
  line : Int → Int
  /-- Where a column of a line comes to. -/
  column : Int → Int → Int
  /-- Where a place comes to. -/
  mark : Mark → Mark
  mark_line : ∀ place, ((mark place).line : Int) = line place.line
  mark_column : ∀ place, ((mark place).column : Int) = column place.line place.column
  column_zero : ∀ line, column line 0 = 0

namespace Relocation

/-- One line goes to the next one, and all others stay. -/
def offLine (line : Int) : Relocation where
  line other := if other = line then other + 1 else other
  column _ column := column
  mark place := if (place.line : Int) = line then ⟨place.line + 1, place.column⟩ else place
  mark_line place := by split <;> simp
  mark_column place := by split <;> rfl
  column_zero _ := rfl

/-- One place goes to the right by a column, and all others stay. -/
def offPlace (line column : Int) (told : column ≠ 0) : Relocation where
  line other := other
  column other column' := if other = line ∧ column' = column then column' + 1 else column'
  mark place :=
    if (place.line : Int) = line ∧ (place.column : Int) = column then place.right 1 else place
  mark_line place := by split <;> rfl
  mark_column place := by split <;> simp [Mark.right]
  column_zero other := if_neg fun same => told same.2.symm

/-- All places go down by some lines, and stay in their columns. -/
def down (n : Nat) : Relocation where
  line line := line + n
  column _ column := column
  mark place := ⟨place.line + n, place.column⟩
  mark_line _ := rfl
  mark_column _ := rfl
  column_zero _ := rfl

/-- All places go to the one that stands for none. -/
def nowhere : Relocation where
  line _ := 0
  column _ _ := 0
  mark _ := Mark.nowhere
  mark_line _ := rfl
  mark_column _ := rfl
  column_zero _ := rfl

end Relocation

/-! ## Things that are moved -/

section Moved

variable (move : Relocation)

/-- The token at another place. -/
def Token.moved (token : Token) : Token := { token with mark := move.mark token.mark }

/-- The fault at another place. -/
def Fault.moved (fault : Fault) : Fault :=
  { fault with line := move.line fault.line, column := move.column fault.line fault.column }

/-- The value on another line. -/
def Expr.moved : Expr → Expr
  | number value line => number value (move.line line)
  | var name line => var name (move.line line)
  | distance line => distance (move.line line)
  | missing => missing

/-- The condition on another line. -/
def Condition.moved (condition : Condition) : Condition :=
  { condition with line := move.line condition.line }

mutual

/-- The statement with every node on another line. -/
def Stmt.moved : Stmt → Stmt
  | block body line => block (movedAll body) (move.line line)
  | command kind line => command kind (move.line line)
  | loop count body line => loop (count.moved move) (movedAll body) (move.line line)
  | branch condition body line =>
    branch (condition.map (Condition.moved move)) (movedAll body) (move.line line)
  | assign name value line => assign name (value.moved move) (move.line line)
  | define name parameters body line => define name parameters (movedAll body) (move.line line)
  | call name arguments implicit line =>
    call name (arguments.map (Expr.moved move)) implicit (move.line line)
  | missing => missing

/-- The statements with every node on another line. -/
def Stmt.movedAll : List Stmt → List Stmt
  | [] => []
  | stmt :: stmts => moved stmt :: movedAll stmts

end

/-- The program with every node but the program itself on another line. -/
def Program.moved (program : Program) : Program :=
  ⟨Stmt.movedAll move program.body, program.line⟩

namespace Form

mutual

/-- The form at other places. -/
def moved : Form → Form
  | symbol name mark => symbol name (move.mark mark)
  | number text mark => number text (move.mark mark)
  | list items mark => list (movedAll items) (move.mark mark)

/-- The forms at other places. -/
def movedAll : List Form → List Form
  | [] => []
  | form :: forms => moved form :: movedAll forms

end

/-- `movedAll` is `moved` of one form after the other. -/
theorem movedAll_eq_map (forms : List Form) : movedAll move forms = forms.map (moved move) := by
  induction forms with
  | nil => rfl
  | cons form forms ih => rw [movedAll, ih, List.map_cons]

/-- `shape` of a form is the same at another place. -/
@[simp] theorem shape_moved (form : Form) : (form.moved move).shape = form.shape := by
  match form with
  | symbol name mark => rfl
  | number text mark => rfl
  | list [] mark => rfl
  | list (symbol name place :: items) mark => rfl
  | list (number text place :: items) mark => rfl
  | list (list inner place :: items) mark => rfl

/-- The line of a form that is `moved` is the moved line. -/
@[simp] theorem line_moved (form : Form) :
    ((form.moved move).line : Int) = move.line form.line := by
  cases form <;> exact move.mark_line _

/-- The state of grouping at other places. -/
def Grouping.moved (state : Grouping) : Grouping :=
  ⟨state.pending.map fun pending => ⟨move.mark pending.mark, movedAll move pending.items⟩,
    movedAll move state.finished⟩

end Form

end Moved

/-! ## Results that are moved -/

/-- The second result is the first one, moved: its value is changed as given, or its fault is
moved. A fault is one that is known without running anything. -/
inductive Follows {α β : Type} (move : Relocation) (change : α → β) :
    Except Fault α → Except Fault β → Prop where
  | value (value : α) : Follows move change (.ok value) (.ok (change value))
  | fault {fault : Fault} (static : fault.kind.isRuntime = false) :
      Follows move change (.error fault) (.error (fault.moved move))

namespace Follows

variable {α β γ δ : Type} {move : Relocation} {change : α → β} {change' : γ → δ}

/-- A value that is changed as given `Follows`. -/
theorem of_eq {value : α} {value' : β} (same : value' = change value) :
    Follows move change (.ok value) (.ok value') :=
  same ▸ .value value

/-- A fault at a place `Follows` the place. -/
theorem placed {cause : Cause} (static : cause.kind.isRuntime = false) (mark : Mark) :
    Follows move change (.error (cause.placed mark)) (.error (cause.placed (move.mark mark))) := by
  have same : cause.placed (move.mark mark) = (cause.placed mark).moved move := by
    simp only [Cause.placed, Fault.moved, move.mark_line, move.mark_column]
  rw [same]
  exact .fault static

/-- A fault at a place that shows the `shape` of a form `Follows` the place. -/
theorem placed_shape (cause : Shape → Cause) (form : Form)
    (static : (cause form.shape).kind.isRuntime = false) (mark : Mark) :
    Follows move change (.error ((cause form.shape).placed mark))
      (.error ((cause (form.moved move).shape).placed (move.mark mark))) := by
  rw [Form.shape_moved]
  exact placed static mark

/-- A fault `about` a form that shows its `shape` `Follows` the form. -/
theorem about (cause : Shape → Cause) (form : Form)
    (static : (cause form.shape).kind.isRuntime = false) :
    Follows move change (.error ((cause form.shape).about form))
      (.error ((cause (form.moved move).shape).about (form.moved move))) := by
  have same : (cause form.shape).about (form.moved move) =
      ((cause form.shape).about form).moved move := by
    simp only [Cause.about, Fault.moved, Form.line_moved, move.column_zero]
  rw [Form.shape_moved, same]
  exact .fault static

/-- `Follows` holds of two results in a row if it holds of both. -/
theorem bind {first : Except Fault α} {first' : Except Fault β} {next : α → Except Fault γ}
    {next' : β → Except Fault δ} (follows : Follows move change first first')
    (both : ∀ value, Follows move change' (next value) (next' (change value))) :
    Follows move change' (first >>= next) (first' >>= next') := by
  cases follows with
  | value value => exact both value
  | fault static => exact .fault static

/-- `Follows` with a change that is made after moving. -/
theorem map {first : Except Fault α} {second : Except Fault β}
    (follows : Follows move change first second) (next : β → γ) :
    Follows move (fun value => next (change value)) first (next <$> second) := by
  cases follows with
  | value value => exact .value value
  | fault static => exact .fault static

/-- What `Follows` a value is the value, changed. -/
theorem eq_ok {first : Except Fault α} {second : Except Fault β} {value : α}
    (follows : Follows move change first second) (found : first = .ok value) :
    second = .ok (change value) := by
  subst found
  cases follows
  rfl

/-- What `Follows` a fault is the fault, moved. -/
theorem eq_error {first : Except Fault α} {second : Except Fault β} {fault : Fault}
    (follows : Follows move change first second) (failed : first = .error fault) :
    second = .error (fault.moved move) ∧ fault.kind.isRuntime = false := by
  subst failed
  cases follows with
  | fault static => exact ⟨rfl, static⟩

end Follows

/-! ## Grouping -/

namespace Form

variable (move : Relocation)

/-- `Grouping.push` commutes with moving. -/
theorem Grouping.push_moved (form : Form) (state : Grouping) :
    (state.moved move).push (form.moved move) = (state.push form).moved move := by
  match state with
  | ⟨[], finished⟩ => rfl
  | ⟨inner :: outer, finished⟩ => rfl

/-- `Grouping.closeAt` carries places along. -/
theorem Grouping.follows_closeAt (mark : Mark) (state : Grouping) :
    Follows move (Grouping.moved move) (state.closeAt mark)
      ((state.moved move).closeAt (move.mark mark)) := by
  match state with
  | ⟨[], finished⟩ => exact .placed rfl mark
  | ⟨inner :: outer, finished⟩ =>
    have closed : OpenList.close ⟨move.mark inner.mark, movedAll move inner.items⟩ =
        inner.close.moved move := by
      simp only [OpenList.close, Form.moved, movedAll_eq_map, List.map_reverse]
    refine .of_eq ?_
    rw [← push_moved, ← closed]
    rfl

/-- `Grouping.finish` carries places along. -/
theorem Grouping.follows_finish (state : Grouping) :
    Follows move (movedAll move) state.finish (state.moved move).finish := by
  match state with
  | ⟨[], finished⟩ =>
    refine .of_eq ?_
    rw [movedAll_eq_map, movedAll_eq_map, List.map_reverse]
  | ⟨inner :: outer, finished⟩ => exact .placed rfl inner.mark

/-- `groupFrom` carries places along. -/
theorem follows_groupFrom (state : Grouping) (tokens : List Token) :
    Follows move (movedAll move) (groupFrom state tokens)
      (groupFrom (state.moved move) (tokens.map (Token.moved move))) := by
  induction tokens generalizing state with
  | nil => exact state.follows_finish move
  | cons token tokens ih =>
    obtain ⟨cls, literal, mark⟩ := token
    rw [List.map_cons]
    cases cls with
    | endOfInput => exact state.follows_finish move
    | opening => exact ih (state.openAt mark)
    -- Only closing can fail: there may be no list to close.
    | closing =>
      simp only [groupFrom, Token.moved]
      have closes := state.follows_closeAt move mark
      cases closed : state.closeAt mark with
      | ok closed' =>
        rw [closes.eq_ok closed]
        exact ih closed'
      | error fault =>
        obtain ⟨moved, static⟩ := closes.eq_error closed
        rw [moved]
        exact .fault static
    | number =>
      have step := ih (state.push (number literal mark))
      rw [← Grouping.push_moved] at step
      exact step
    | symbol =>
      have step := ih (state.push (symbol literal mark))
      rw [← Grouping.push_moved] at step
      exact step

/-- `group` carries places along. -/
theorem follows_group (tokens : List Token) :
    Follows move (movedAll move) (group tokens) (group (tokens.map (Token.moved move))) :=
  follows_groupFrom move .empty tokens

end Form

/-! ## Meanings of forms -/

section Meanings

variable (move : Relocation)

/-- `Expr.ofNumber` carries the place along. -/
theorem Expr.follows_ofNumber (text : String) (mark : Mark) :
    Follows move (Expr.moved move) (ofNumber text mark) (ofNumber text (move.mark mark)) := by
  simp only [ofNumber]
  split
  · exact .placed rfl mark
  · split
    · exact .of_eq (by rw [Expr.moved, move.mark_line])
    · exact .placed rfl mark

/-- `Expr.ofForm` carries places along. -/
theorem Expr.follows_ofForm (form : Form) :
    Follows move (Expr.moved move) (ofForm form) (ofForm (form.moved move)) := by
  match form with
  | .number text mark => exact follows_ofNumber move text mark
  | .symbol name mark => exact .of_eq (by rw [Expr.moved, move.mark_line])
  | .list [] mark => exact .placed rfl mark
  | .list (.symbol head place :: rest) mark =>
    simp only [Form.moved, Form.movedAll, ofForm]
    cases Construct.ofWord head with
    | distance =>
      cases rest with
      | nil => exact .of_eq (by rw [Expr.moved, move.mark_line])
      | cons form rest => exact .placed rfl place
    | _ => exact .placed rfl place
  | .list (.number text place :: rest) mark => exact .placed rfl mark
  | .list (.list items place :: rest) mark =>
    exact .placed_shape .headNotSymbol (.list items place) rfl mark

/-- `Expr.ofForms` carries places along. -/
theorem Expr.follows_ofForms (forms : List Form) :
    Follows move (List.map (Expr.moved move)) (ofForms forms)
      (ofForms (Form.movedAll move forms)) := by
  induction forms with
  | nil => exact .value []
  | cons form forms ih =>
    refine (follows_ofForm move form).bind fun value => ?_
    exact ih.bind fun values => .value _

/-- `Direction.ofForms` carries the places of its faults along. -/
theorem Direction.follows_ofForms (head : String) (place : Mark) (forms : List Form) :
    Follows move id (ofForms head place forms)
      (ofForms head (move.mark place) (Form.movedAll move forms)) := by
  match forms with
  | [] => exact .placed rfl place
  | [.symbol name mark] =>
    simp only [Form.movedAll, Form.moved, ofForms]
    cases ofName? name with
    | none => exact .placed rfl mark
    | some direction => exact .value direction
  | [.number text mark] => exact .about (.directionNotSymbol head) (.number text mark) rfl
  | [.list items mark] => exact .about (.directionNotSymbol head) (.list items mark) rfl
  | first :: _ :: _ => cases first <;> exact .placed rfl place

/-- `Condition.ofForm` carries places along. -/
theorem Condition.follows_ofForm : ∀ form : Form,
    Follows move (Condition.moved move) (ofForm form) (ofForm (form.moved move))
  | .symbol name mark => .about .conditionNotList (.symbol name mark) rfl
  | .number text mark => .about .conditionNotList (.number text mark) rfl
  | .list [] mark => .placed rfl mark
  | .list (.number text place :: rest) mark => .placed rfl mark
  | .list (.list items place :: rest) mark => .placed rfl mark
  | .list (.symbol head place :: rest) mark => by
    rw [Form.moved, Form.movedAll, Form.moved, ofForm.eq_def, ofForm.eq_def]
    dsimp only
    split
    · refine (Direction.follows_ofForms move _ place rest).bind fun direction => .of_eq ?_
      simp only [Condition.moved, move.mark_line, id]
    · refine (Direction.follows_ofForms move _ place rest).bind fun direction => .of_eq ?_
      simp only [Condition.moved, move.mark_line, id]
    · match rest with
      | [] => exact .placed rfl place
      | [inner] => exact (follows_ofForm inner).bind fun condition => .value condition.negate
      | _ :: _ :: _ => exact .placed rfl place
    · exact .placed rfl place

/-- `Command.ofTurn` carries the places of its faults along. -/
theorem Command.follows_ofTurn (place : Mark) (forms : List Form) :
    Follows move id (ofTurn place forms)
      (ofTurn (move.mark place) (Form.movedAll move forms)) := by
  match forms with
  | [] => exact .placed rfl place
  | [.symbol name mark] =>
    simp only [Form.movedAll, Form.moved, ofTurn]
    split
    · exact .value _
    · exact .value _
    · exact .placed rfl mark
  | [.number text mark] => exact .about .turnNotSymbol (.number text mark) rfl
  | [.list items mark] => exact .about .turnNotSymbol (.list items mark) rfl
  | first :: _ :: _ => cases first <;> exact .placed rfl place

/-- `parametersOfForms` carries the places of its faults along. -/
theorem follows_parametersOfForms (function : String) (seen : List String) (forms : List Form) :
    Follows move id (parametersOfForms function seen forms)
      (parametersOfForms function seen (Form.movedAll move forms)) := by
  induction forms generalizing seen with
  | nil => exact .value []
  | cons form forms ih =>
    cases form with
    | symbol name mark =>
      simp only [Form.movedAll, Form.moved, parametersOfForms]
      split
      · exact .placed rfl mark
      · exact (ih _).bind fun names => .value _
    | number text mark => exact .about .parameterNotSymbol (.number text mark) rfl
    | list items mark => exact .about .parameterNotSymbol (.list items mark) rfl

/-- `headerOfForms` carries the places of its faults along. -/
theorem follows_headerOfForms (place : Mark) (forms : List Form) :
    Follows move id (headerOfForms place forms)
      (headerOfForms (move.mark place) (Form.movedAll move forms)) := by
  match forms with
  | [] => exact .placed rfl place
  | [first] => cases first <;> exact .placed rfl place
  | .number text mark :: second :: rest => exact .about .functionName (.number text mark) rfl
  | .list items mark :: second :: rest => exact .about .functionName (.list items mark) rfl
  | .symbol function mark :: second :: rest =>
    simp only [Form.movedAll, Form.moved, headerOfForms]
    split
    · exact .placed rfl mark
    · cases second with
      | symbol name mark => exact .about .parametersNotList (.symbol name mark) rfl
      | number text mark => exact .about .parametersNotList (.number text mark) rfl
      | list items mark =>
        exact (follows_parametersOfForms move function [] items).bind fun names => .value _

namespace Stmt

mutual

/-- **`Stmt.ofForm`, the meaning of a form as a statement, carries its places along.** -/
theorem follows_ofForm : ∀ form : Form,
    Follows move (moved move) (ofForm form) (ofForm (form.moved move))
  | .symbol name mark => .about .statementNotList (.symbol name mark) rfl
  | .number text mark => .about .statementNotList (.number text mark) rfl
  | .list items mark => by
    simp only [Form.moved, ofForm]
    exact follows_ofItems mark items

/-- `Stmt.ofItems` carries places along. -/
theorem follows_ofItems (mark : Mark) : ∀ items : List Form,
    Follows move (moved move) (ofItems mark items)
      (ofItems (move.mark mark) (Form.movedAll move items))
  | [] => .placed rfl mark
  | .number text place :: rest => .placed rfl mark
  | .list items place :: rest => .placed_shape .headNotSymbol (.list items place) rfl mark
  | .symbol head place :: rest => by
    rw [Form.movedAll, Form.moved, ofItems.eq_def, ofItems.eq_def]
    dsimp only
    -- The parts of a phrase are moved one by one, and the line of the phrase is that of its head.
    cases Construct.ofWord head with
    | command kind =>
      cases rest with
      | nil => exact .of_eq (by rw [moved, move.mark_line])
      | cons form forms => exact .placed rfl place
    | turn =>
      refine (Command.follows_ofTurn move place rest).bind fun kind => .of_eq ?_
      rw [moved, move.mark_line, id]
    | loop =>
      cases rest with
      | nil => exact .placed rfl place
      | cons form forms =>
        refine (Expr.follows_ofForm move form).bind fun count => ?_
        refine (follows_ofForms forms).bind fun body => .of_eq ?_
        rw [moved, move.mark_line]
    | branch =>
      cases rest with
      | nil => exact .placed rfl place
      | cons form forms =>
        refine (Condition.follows_ofForm move form).bind fun condition => ?_
        refine (follows_ofForms forms).bind fun body => .of_eq ?_
        rw [moved, move.mark_line, Option.map_some]
    | assign =>
      match rest with
      | [] => exact .placed rfl place
      | [first] => cases first <;> exact .placed rfl place
      | [.symbol name mark, form] =>
        refine (Expr.follows_ofForm move form).bind fun value => .of_eq ?_
        rw [moved, move.mark_line]
      | [.number text mark, form] => exact .about (.assignmentName head) (.number text mark) rfl
      | [.list items mark, form] => exact .about (.assignmentName head) (.list items mark) rfl
      | first :: _ :: _ :: _ => cases first <;> exact .placed rfl place
    | define =>
      refine (follows_headerOfForms move place rest).bind fun header => ?_
      match rest with
      | [] => exact .of_eq (by simp only [moved, movedAll, move.mark_line, id])
      | [first] => exact .of_eq (by simp only [moved, movedAll, move.mark_line, id])
      | first :: second :: forms =>
        refine (follows_ofForms forms).bind fun body => .of_eq ?_
        rw [moved, move.mark_line, id]
    | call =>
      match rest with
      | [] => exact .placed rfl place
      | .number text mark :: forms => exact .about .calleeNotSymbol (.number text mark) rfl
      | .list items mark :: forms => exact .about .calleeNotSymbol (.list items mark) rfl
      | .symbol name mark :: forms =>
        refine (Expr.follows_ofForms move forms).bind fun arguments => .of_eq ?_
        rw [moved, move.mark_line]
    | condition => exact .placed rfl place
    | distance => exact .placed rfl place
    | named =>
      refine (Expr.follows_ofForms move rest).bind fun arguments => .of_eq ?_
      rw [moved, move.mark_line]

/-- `Stmt.ofForms` carries places along. -/
theorem follows_ofForms : ∀ forms : List Form,
    Follows move (movedAll move) (ofForms forms) (ofForms (Form.movedAll move forms))
  | [] => .value []
  | form :: forms => by
    rw [Form.movedAll, ofForms, ofForms]
    refine (follows_ofForm form).bind fun stmt => ?_
    exact (follows_ofForms forms).bind fun stmts => .value _

end

/-- `Stmt.ofTopLevel` carries places along. -/
theorem follows_ofTopLevel (form : Form) :
    Follows move (moved move) (ofTopLevel form) (ofTopLevel (form.moved move)) := by
  cases form with
  | symbol name mark => exact .placed rfl mark
  | number text mark => exact .placed rfl mark
  | list items mark => exact follows_ofForm move (.list items mark)

/-- `Stmt.ofTopLevel` of forms in a row carries places along. -/
theorem follows_mapM_ofTopLevel (forms : List Form) :
    Follows move (movedAll move) (forms.mapM ofTopLevel)
      ((Form.movedAll move forms).mapM ofTopLevel) := by
  induction forms with
  | nil => exact .value []
  | cons form forms ih =>
    rw [Form.movedAll, List.mapM_cons, List.mapM_cons]
    refine (follows_ofTopLevel move form).bind fun stmt => ?_
    exact ih.bind fun stmts => .value _

end Stmt

namespace Program

/-- The program of some tokens. -/
def ofTokens (tokens : List Token) : Except Fault Program := Form.group tokens >>= ofForms

/-- `parse` of a source is `ofTokens` of its tokens. -/
theorem parse_eq (source : List UInt8) : parse source = Token.scan source >>= ofTokens := by
  rw [parse, Form.read]
  cases Token.scan source <;> rfl

/-- **`ofTokens` carries the places of its tokens along.** -/
theorem follows_ofTokens (tokens : List Token) :
    Follows move (moved move) (ofTokens tokens) (ofTokens (tokens.map (Token.moved move))) := by
  refine (Form.follows_group move tokens).bind fun forms => ?_
  exact (Stmt.follows_mapM_ofTopLevel move forms).bind fun body => .value _

end Program

end Meanings

/-! ## Where faults are told -/

namespace Fault

/-- The fault points at the place: it is told on its line, and at its column if one is told. -/
def PointsAt (fault : Fault) (mark : Mark) : Prop :=
  fault.line = mark.line ∧ (fault.column ≠ 0 → fault.column = mark.column)

instance (fault : Fault) (mark : Mark) : Decidable (fault.PointsAt mark) :=
  inferInstanceAs (Decidable (_ ∧ (_ → _)))

/-- A fault can be moved away while all places that it does not point at, in the sense of
`PointsAt`, stay. -/
theorem exists_relocation (fault : Fault) :
    ∃ move : Relocation, fault.moved move ≠ fault ∧
      ∀ mark, ¬ fault.PointsAt mark → move.mark mark = mark := by
  by_cases told : fault.column = 0
  · refine ⟨.offLine fault.line, fun same => ?_, fun mark other => if_neg fun line => ?_⟩
    · have line : fault.line + 1 = fault.line :=
        (if_pos rfl).symm.trans (congrArg Fault.line same :)
      omega
    · exact other ⟨line.symm, fun column => absurd told column⟩
  · refine ⟨.offPlace fault.line fault.column told, fun same => ?_,
      fun mark other => if_neg fun place => ?_⟩
    · have column : fault.column + 1 = fault.column :=
        (if_pos ⟨rfl, rfl⟩).symm.trans (congrArg Fault.column same :)
      omega
    · exact other ⟨place.1.symm, fun _ => place.2.symm⟩

end Fault

/-- **A result points at places that it was given.** A fault that `Follows` its places wherever they
are moved to `PointsAt` one of the places of the tokens: otherwise it could be moved away while the
tokens stay. -/
theorem exists_pointsAt {α : Type} {tokens : List Token} {result : Except Fault α} {fault : Fault}
    (natural : ∀ move : Relocation, tokens.map (Token.moved move) = tokens →
      ∃ change : α → α, Follows move change result result)
    (failed : result = .error fault) : ∃ token ∈ tokens, fault.PointsAt token.mark := by
  refine Classical.byContradiction fun none => ?_
  obtain ⟨move, moves, fixes⟩ := fault.exists_relocation
  have stay : tokens.map (Token.moved move) = tokens.map id :=
    List.map_congr_left fun token member => by
      rw [Token.moved, fixes token.mark fun points => none ⟨token, member, points⟩]
      rfl
  obtain ⟨change, follows⟩ := natural move (stay.trans (List.map_id tokens))
  obtain ⟨same, -⟩ := follows.eq_error failed
  exact moves (Except.error.inj (same.symm.trans failed))

end MazeRobot
