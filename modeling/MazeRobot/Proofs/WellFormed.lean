import MazeRobot.Program.Parse
import MazeRobot.Proofs.Results
import MazeRobot.Proofs.Scanning

/-! # Well-formed programs

A syntax tree that a source can write down is well formed: nothing is missing, blocks are not
nested, and names and numbers can be written. Reading a source only gives such trees, because every
symbol of its tokens is a name, and so is every symbol of its forms.

* `Program.WellFormed`: the programs that a source can write down.
* `Form.Named`: a form whose symbols are names.
* `Form.allNamed_of_read`: the symbols in the forms of a source are names.
* `Program.wellFormed_of_parse`: every program that is read is well formed. -/

namespace MazeRobot

/-! ## Well-formed syntax trees -/

/-- A value that can be written. -/
def Expr.WellFormed : Expr → Prop
  | number value _ => 0 ≤ value ∧ value ≤ 9223372036854775807
  | var name _ => IsName name
  | distance _ => True
  | missing => False

/-- A name that can start a list without being taken for a word of the language. -/
def IsFunctionName (name : String) : Prop := IsName name ∧ Construct.ofWord name = .named

namespace Stmt

mutual

/-- A statement that can be written. -/
def WellFormed : Stmt → Prop
  | block _ _ => False
  | command _ _ => True
  | loop count body _ => count.WellFormed ∧ AllWellFormed body
  | branch condition body _ => condition.isSome ∧ AllWellFormed body
  | assign name value _ => IsName name ∧ value.WellFormed
  | define name parameters body _ =>
    IsFunctionName name ∧ (∀ parameter ∈ parameters, IsName parameter) ∧ parameters.Nodup ∧
      AllWellFormed body
  | call name arguments implicit _ =>
    (if implicit then IsFunctionName name else IsName name) ∧ ∀ value ∈ arguments, value.WellFormed
  | missing => False

/-- Statements that can be written. -/
def AllWellFormed : List Stmt → Prop
  | [] => True
  | stmt :: stmts => WellFormed stmt ∧ AllWellFormed stmts

end

end Stmt

/-- A program that can be written. -/
def Program.WellFormed (program : Program) : Prop := Stmt.AllWellFormed program.body

/-! ## Forms whose symbols are names -/

namespace Form

mutual

/-- A form all of whose symbols are names. -/
def Named : Form → Prop
  | symbol name _ => IsName name
  | number _ _ => True
  | list items _ => AllNamed items

/-- Forms all of whose symbols are names. -/
def AllNamed : List Form → Prop
  | [] => True
  | form :: forms => Named form ∧ AllNamed forms

end

/-- `AllNamed` holds of forms that are each `Named`. -/
theorem allNamed_iff (forms : List Form) : AllNamed forms ↔ ∀ form ∈ forms, form.Named := by
  induction forms with
  | nil => simp [AllNamed]
  | cons form forms ih => simp [AllNamed, ih]

/-- A state of grouping in which all symbols are names. -/
structure Grouping.Named (state : Grouping) : Prop where
  pending : ∀ inner ∈ state.pending, AllNamed inner.items
  finished : AllNamed state.finished

/-- `push` of a form that is `Named` keeps the state so. -/
theorem Grouping.Named.push {state : Grouping} (named : state.Named) {form : Form}
    (new : form.Named) : (state.push form).Named := by
  match state with
  | ⟨[], finished⟩ => exact ⟨named.pending, new, named.finished⟩
  | ⟨inner :: outer, finished⟩ =>
    refine ⟨fun other mem => ?_, named.finished⟩
    rcases List.mem_cons.mp mem with rfl | mem
    · exact ⟨new, named.pending inner List.mem_cons_self⟩
    · exact named.pending other (List.mem_cons_of_mem inner mem)

/-- `openAt` keeps the state `Named`. -/
theorem Grouping.Named.openAt {state : Grouping} (named : state.Named) (mark : Mark) :
    (state.openAt mark).Named := by
  refine ⟨fun inner mem => ?_, named.finished⟩
  rcases List.mem_cons.mp mem with rfl | mem
  · exact trivial
  · exact named.pending inner mem

/-- `closeAt` keeps the state `Named`. -/
theorem Grouping.Named.closeAt {state closed : Grouping} (named : state.Named) {mark : Mark}
    (closes : state.closeAt mark = .ok closed) : closed.Named := by
  match state with
  | ⟨[], finished⟩ => cases closes
  | ⟨inner :: outer, finished⟩ =>
    cases closes
    have items := named.pending inner List.mem_cons_self
    have reversed : AllNamed inner.items.reverse := by
      rw [allNamed_iff] at items ⊢
      exact fun form mem => items form (List.mem_reverse.mp mem)
    have outside : Grouping.Named ⟨outer, finished⟩ :=
      ⟨fun other mem => named.pending other (List.mem_cons_of_mem inner mem), named.finished⟩
    exact outside.push reversed

/-- `finish` of a state that is `Named` gives forms that are. -/
theorem Grouping.Named.finish {state : Grouping} {forms : List Form} (named : state.Named)
    (finishes : state.finish = .ok forms) : AllNamed forms := by
  match state with
  | ⟨[], finished⟩ =>
    cases finishes
    have finished := named.finished
    rw [allNamed_iff] at finished ⊢
    exact fun form mem => finished form (List.mem_reverse.mp mem)
  | ⟨inner :: outer, finished⟩ => cases finishes

/-- `groupFrom` of tokens whose symbols are names gives forms that are `AllNamed`. -/
theorem allNamed_of_groupFrom {state : Grouping} {tokens : List Token} {forms : List Form}
    (named : state.Named) (names : ∀ token ∈ tokens, token.cls = .symbol → IsName token.literal)
    (grouped : groupFrom state tokens = .ok forms) : AllNamed forms := by
  induction tokens generalizing state with
  | nil => exact named.finish grouped
  | cons token tokens ih =>
    obtain ⟨cls, literal, mark⟩ := token
    have others := fun token mem => names token (List.mem_cons_of_mem _ mem)
    cases cls with
    | endOfInput => exact named.finish grouped
    | opening => exact ih (named.openAt mark) others grouped
    | closing =>
      simp only [groupFrom] at grouped
      split at grouped
      · rename_i closed closes
        exact ih (named.closeAt closes) others grouped
      · cases grouped
    | number =>
      have new : (number literal mark).Named := trivial
      exact ih (named.push new) others grouped
    | symbol =>
      have new : (symbol literal mark).Named := names _ List.mem_cons_self rfl
      exact ih (named.push new) others grouped

/-- `read` gives forms that are `AllNamed`. -/
theorem allNamed_of_read {source : List UInt8} {forms : List Form}
    (found : read source = .ok forms) : AllNamed forms := by
  unfold read at found
  split at found
  · rename_i tokens scanned
    have start : Grouping.empty.Named := ⟨fun _ mem => absurd mem List.not_mem_nil, trivial⟩
    exact allNamed_of_groupFrom start (fun token mem => isName_of_mem_scan scanned mem) found
  · cases found

end Form

/-! ## Reading gives well-formed programs -/

/-- `Expr.ofForm` of a form that is `Named` gives a value that is `WellFormed`. -/
theorem Expr.wellFormed_of_ofForm {form : Form} {value : Expr} (named : form.Named)
    (found : ofForm form = .ok value) : value.WellFormed := by
  match form with
  | .symbol name mark =>
    cases found
    exact named
  | .number text mark =>
    simp only [ofForm, ofNumber] at found
    split at found
    · cases found
    · split at found
      · rename_i bound
        cases found
        simp only [maxNumber, wordBound] at bound
        exact ⟨Int.natCast_nonneg _, by omega⟩
      · cases found
  | .list [] mark => cases found
  | .list (.symbol head place :: rest) mark =>
    simp only [ofForm] at found
    split at found
    · split at found
      · cases found
        exact trivial
      · cases found
    · cases found
  | .list (.number text place :: rest) mark => cases found
  | .list (.list items place :: rest) mark => cases found

/-- `Expr.ofForms` of forms that are `AllNamed` gives values that are `WellFormed`. -/
theorem Expr.wellFormed_of_ofForms {forms : List Form} {values : List Expr}
    (named : Form.AllNamed forms)
    (found : ofForms forms = .ok values) : ∀ value ∈ values, value.WellFormed := by
  induction forms generalizing values with
  | nil =>
    cases found
    exact fun _ mem => absurd mem List.not_mem_nil
  | cons form forms ih =>
    obtain ⟨first, head, found⟩ := bind_eq_ok_iff.mp found
    obtain ⟨others, rest, found⟩ := bind_eq_ok_iff.mp found
    cases found
    intro value mem
    rcases List.mem_cons.mp mem with rfl | mem
    · exact wellFormed_of_ofForm named.1 head
    · exact ih named.2 rest value mem

/-- `parametersOfForms` gives names without repetition, none of which was seen before. -/
theorem nodup_of_parametersOfForms {function : String} {seen names : List String}
    {forms : List Form}
    (named : Form.AllNamed forms) (found : parametersOfForms function seen forms = .ok names) :
    names.Nodup ∧ ∀ name ∈ names, IsName name ∧ name ∉ seen := by
  induction forms generalizing seen names with
  | nil =>
    cases found
    exact ⟨List.nodup_nil, fun _ mem => absurd mem List.not_mem_nil⟩
  | cons form forms ih =>
    cases form with
    | number text mark => cases found
    | list items mark => cases found
    | symbol name mark =>
      simp only [parametersOfForms] at found
      split at found
      · cases found
      · rename_i fresh
        obtain ⟨others, rest, found⟩ := bind_eq_ok_iff.mp found
        cases found
        -- The names so far are refused among the ones that follow.
        obtain ⟨distinct, each⟩ := ih named.2 rest
        refine ⟨List.nodup_cons.mpr ⟨fun mem => ?_, distinct⟩, fun other mem => ?_⟩
        · exact (each name mem).2 List.mem_cons_self
        · rcases List.mem_cons.mp mem with rfl | mem
          · exact ⟨named.1, fresh⟩
          · exact ⟨(each other mem).1, fun again =>
              (each other mem).2 (List.mem_cons_of_mem name again)⟩

/-- `headerOfForms` gives a free name and a list of parameters. -/
theorem headerOfForms_eq_ok {place : Mark} {first second : Form} {rest : List Form} {name : String}
    {parameters : List String}
    (found : headerOfForms place (first :: second :: rest) = .ok (name, parameters)) :
    ∃ mark items start, first = .symbol name mark ∧ second = .list items start ∧
      Construct.ofWord name = .named ∧ parametersOfForms name [] items = .ok parameters := by
  cases first with
  | number text mark => cases found
  | list items mark => cases found
  | symbol function mark =>
    rw [headerOfForms.eq_def] at found
    dsimp only at found
    by_cases free : Construct.ofWord function = .named
    · rw [if_neg (not_not_intro free)] at found
      cases second with
      | symbol text start => cases found
      | number text start => cases found
      | list items start =>
        obtain ⟨names, read, found⟩ := bind_eq_ok_iff.mp found
        cases found
        exact ⟨mark, items, start, rfl, rfl, free, read⟩
    · rw [if_pos free] at found
      cases found

/-- `headerOfForms` gives the name of a function, and names without repetition for its
parameters. -/
theorem isFunctionName_of_headerOfForms {place : Mark} {forms : List Form} {name : String}
    {parameters : List String} (named : Form.AllNamed forms)
    (found : headerOfForms place forms = .ok (name, parameters)) :
    IsFunctionName name ∧ (∀ parameter ∈ parameters, IsName parameter) ∧ parameters.Nodup := by
  match forms with
  | [] => cases found
  | [first] => cases first <;> cases found
  | first :: second :: rest =>
    obtain ⟨mark, items, start, rfl, rfl, free, read⟩ := headerOfForms_eq_ok found
    obtain ⟨distinct, each⟩ := nodup_of_parametersOfForms named.2.1 read
    exact ⟨⟨named.1, free⟩, fun other mem => (each other mem).1, distinct⟩

namespace Stmt

mutual

/-- **`ofForm` of a form that is `Named` gives a statement that is `WellFormed`.** -/
theorem wellFormed_of_ofForm {form : Form} {stmt : Stmt} (named : form.Named)
    (found : ofForm form = .ok stmt) : stmt.WellFormed := by
  match form with
  | .symbol name mark => cases found
  | .number text mark => cases found
  | .list items mark =>
    rw [ofForm] at found
    exact wellFormed_of_ofItems named found

/-- `ofItems` of forms that are `AllNamed` gives a statement that is `WellFormed`. -/
theorem wellFormed_of_ofItems {mark : Mark} {items : List Form} {stmt : Stmt}
    (named : Form.AllNamed items) (found : ofItems mark items = .ok stmt) : stmt.WellFormed := by
  match items with
  | [] => cases found
  | .number text place :: rest => cases found
  | .list items place :: rest => cases found
  | .symbol head place :: rest =>
    obtain ⟨name, named⟩ := named
    rw [ofItems.eq_def] at found
    dsimp only at found
    cases construct : Construct.ofWord head with
    | command kind =>
      rw [construct] at found
      dsimp only at found
      split at found
      · cases found
        exact trivial
      · cases found
    | turn =>
      rw [construct] at found
      obtain ⟨kind, read, found⟩ := bind_eq_ok_iff.mp found
      cases found
      exact trivial
    | loop =>
      rw [construct] at found
      match rest with
      | [] => cases found
      | form :: forms =>
        obtain ⟨count, first, found⟩ := bind_eq_ok_iff.mp found
        obtain ⟨body, second, found⟩ := bind_eq_ok_iff.mp found
        cases found
        exact ⟨Expr.wellFormed_of_ofForm named.1 first, wellFormed_of_ofForms named.2 second⟩
    | branch =>
      rw [construct] at found
      match rest with
      | [] => cases found
      | form :: forms =>
        obtain ⟨condition, first, found⟩ := bind_eq_ok_iff.mp found
        obtain ⟨body, second, found⟩ := bind_eq_ok_iff.mp found
        cases found
        exact ⟨rfl, wellFormed_of_ofForms named.2 second⟩
    | assign =>
      rw [construct] at found
      dsimp only at found
      split at found
      · rename_i target _ form
        obtain ⟨value, first, found⟩ := bind_eq_ok_iff.mp found
        cases found
        exact ⟨named.1, Expr.wellFormed_of_ofForm named.2.1 first⟩
      · cases found
      · cases found
    | define =>
      rw [construct] at found
      obtain ⟨⟨function, parameters⟩, header, found⟩ := bind_eq_ok_iff.mp found
      obtain ⟨wellName, wellParameters, distinct⟩ := isFunctionName_of_headerOfForms named header
      -- The header takes the first two forms, and the body is what follows them.
      match rest with
      | [] => cases header
      | [first] => cases first <;> cases header
      | first :: second :: forms =>
        obtain ⟨body, read, found⟩ := bind_eq_ok_iff.mp found
        cases found
        exact ⟨wellName, wellParameters, distinct, wellFormed_of_ofForms named.2.2 read⟩
    | call =>
      rw [construct] at found
      match rest with
      | [] => cases found
      | .number text mark :: forms => cases found
      | .list items mark :: forms => cases found
      | .symbol callee mark :: forms =>
        obtain ⟨arguments, read, found⟩ := bind_eq_ok_iff.mp found
        cases found
        exact ⟨named.1, Expr.wellFormed_of_ofForms named.2 read⟩
    | condition =>
      rw [construct] at found
      cases found
    | distance =>
      rw [construct] at found
      cases found
    | named =>
      rw [construct] at found
      obtain ⟨arguments, read, found⟩ := bind_eq_ok_iff.mp found
      cases found
      -- The head is no word of the language, so it may start a list again.
      exact ⟨⟨name, construct⟩, Expr.wellFormed_of_ofForms named read⟩

/-- `ofForms` of forms that are `AllNamed` gives statements that are `AllWellFormed`. -/
theorem wellFormed_of_ofForms {forms : List Form} {stmts : List Stmt} (named : Form.AllNamed forms)
    (found : ofForms forms = .ok stmts) : AllWellFormed stmts := by
  match forms with
  | [] =>
    cases found
    exact trivial
  | form :: forms =>
    rw [ofForms] at found
    obtain ⟨stmt, first, found⟩ := bind_eq_ok_iff.mp found
    obtain ⟨others, second, found⟩ := bind_eq_ok_iff.mp found
    cases found
    exact ⟨wellFormed_of_ofForm named.1 first, wellFormed_of_ofForms named.2 second⟩

end

/-- `ofTopLevel` of a form that is `Named` gives a statement that is `WellFormed`. -/
theorem wellFormed_of_ofTopLevel {form : Form} {stmt : Stmt} (named : form.Named)
    (found : ofTopLevel form = .ok stmt) : stmt.WellFormed := by
  cases form with
  | symbol name mark => cases found
  | number text mark => cases found
  | list items mark => exact wellFormed_of_ofForm named found

/-- `ofTopLevel` of forms in a row that are `AllNamed` gives statements that are `AllWellFormed`. -/
theorem wellFormed_of_mapM_ofTopLevel {forms : List Form} {stmts : List Stmt}
    (named : Form.AllNamed forms) (found : forms.mapM ofTopLevel = .ok stmts) :
    AllWellFormed stmts := by
  induction forms generalizing stmts with
  | nil =>
    cases found
    exact trivial
  | cons form forms ih =>
    rw [List.mapM_cons] at found
    obtain ⟨stmt, first, found⟩ := bind_eq_ok_iff.mp found
    obtain ⟨others, second, found⟩ := bind_eq_ok_iff.mp found
    cases found
    exact ⟨wellFormed_of_ofTopLevel named.1 first, ih named.2 second⟩

end Stmt

/-- **Every program that `parse` reads is `WellFormed`.** -/
theorem Program.wellFormed_of_parse {source : List UInt8} {program : Program}
    (found : parse source = .ok program) : program.WellFormed := by
  obtain ⟨forms, read, found⟩ := bind_eq_ok_iff.mp found
  obtain ⟨body, statements, found⟩ := bind_eq_ok_iff.mp found
  cases found
  exact Stmt.wellFormed_of_mapM_ofTopLevel (Form.allNamed_of_read read) statements

end MazeRobot
