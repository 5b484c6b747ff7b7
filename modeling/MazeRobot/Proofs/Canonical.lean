import MazeRobot.Proofs.Places
import MazeRobot.Proofs.WellFormed

/-! # The forms of programs

Every well-formed syntax tree has a form that means it, and grouping the tokens of a form gives the
form back.

* `Stmt.form`: the form that stands for a statement.
* `Stmt.ofForm_form`: the form of a well-formed statement means that statement.
* `Form.tokens`: the tokens of a form.
* `Form.group_tokensOf`: grouping the tokens of forms gives the forms. -/

namespace MazeRobot

/-! ## The forms of syntax trees -/

namespace Form

/-- A symbol without a place. -/
def word (name : String) : Form := symbol name Mark.nowhere

/-- A list without a place that starts with a word. -/
def phrase (head : String) (rest : List Form) : Form := list (word head :: rest) Mark.nowhere

end Form

/-- The form of a value. -/
def Expr.form : Expr → Form
  | number value _ => .number (toString value) Mark.nowhere
  | var name _ => .word name
  | distance _ => .phrase "distance-to-end" []
  | missing => .list [] Mark.nowhere

/-- The form of a condition. -/
def Condition.form (condition : Condition) : Form :=
  let inner := Form.phrase condition.query.name [.word condition.direction.name]
  if condition.negated then .phrase "not" [inner] else inner

namespace Stmt

mutual

/-- The form of a statement. -/
def form : Stmt → Form
  | block _ _ => .list [] Mark.nowhere
  | command kind _ => .phrase kind.keyword []
  | loop count body _ => .phrase "repeat" (count.form :: forms body)
  | branch condition body _ =>
    .phrase "if" (condition.elim (.list [] Mark.nowhere) Condition.form :: forms body)
  | assign name value _ => .phrase "set" [.word name, value.form]
  | define name parameters body _ =>
    .phrase "function" (.word name :: .list (parameters.map Form.word) Mark.nowhere :: forms body)
  | call name arguments implicit _ =>
    if implicit then .phrase name (arguments.map Expr.form)
    else .phrase "call" (.word name :: arguments.map Expr.form)
  | missing => .list [] Mark.nowhere

/-- The forms of statements. -/
def forms : List Stmt → List Form
  | [] => []
  | stmt :: stmts => form stmt :: forms stmts

end

end Stmt

/-! ## The meaning of the forms -/

/-- `digitsValue` of the decimal digits of a number is the number. -/
theorem digitsValue_toDigits (n : Nat) : digitsValue (Nat.toDigits 10 n) = n := by
  have swap : digitsValue (Nat.toDigits 10 n) = Nat.ofDigitChars 10 (Nat.toDigits 10 n) 0 := by
    simp only [digitsValue, Nat.ofDigitChars_eq_foldl, Nat.mul_comm]
    rfl
  rw [swap, Nat.ofDigitChars_ten_toDigits]

/-- `Nat.toDigits` never starts with a minus sign. -/
theorem head?_toDigits_ne (n : Nat) : (Nat.toDigits 10 n).head? ≠ some '-' := by
  intro minus
  have digit : Char.isDigit '-' :=
    Nat.isDigit_of_mem_toDigits (by decide) (by decide) (List.mem_of_head? minus)
  exact absurd digit (by decide)

/-- `Expr.ofNumber` reads a number that fits from its digits. -/
theorem Expr.ofNumber_repr {n : Nat} (bound : n ≤ maxNumber) (mark : Mark) :
    ofNumber n.repr mark = .ok (number n mark.line) := by
  simp only [ofNumber, Nat.toList_repr, if_neg (head?_toDigits_ne n), digitsValue_toDigits,
    if_pos bound]

/-- `Expr.ofForm` reads back the `form` of a well-formed value, up to lines. -/
theorem Expr.ofForm_form {value : Expr} (wellFormed : value.WellFormed) :
    ofForm value.form = .ok value.eraseLines := by
  cases value with
  | number value line =>
    obtain ⟨n, rfl⟩ := Int.eq_ofNat_of_zero_le wellFormed.1
    have bound : n ≤ maxNumber := by
      have below := wellFormed.2
      simp only [maxNumber, wordBound]
      omega
    exact ofNumber_repr bound Mark.nowhere
  | var name line => rfl
  | distance line => rfl
  | missing => exact wellFormed.elim

/-- `Expr.ofForms` reads back the forms of well-formed values, up to lines. -/
theorem Expr.ofForms_map_form {values : List Expr}
    (wellFormed : ∀ value ∈ values, value.WellFormed) :
    ofForms (values.map form) = .ok (values.map eraseLines) := by
  induction values with
  | nil => rfl
  | cons value values ih =>
    rw [List.map_cons, ofForms, ofForm_form (wellFormed value List.mem_cons_self),
      ih fun other mem => wellFormed other (List.mem_cons_of_mem value mem)]
    rfl

/-- `Condition.ofForm` reads back the `form` of a condition, up to lines. -/
theorem Condition.ofForm_form (condition : Condition) :
    ofForm condition.form = .ok condition.eraseLines := by
  obtain ⟨query, negated, direction, line⟩ := condition
  cases query <;> cases negated <;> cases direction <;> rfl

/-- `parametersOfForms` reads distinct symbols one by one, wherever they stand. -/
theorem parametersOfForms_symbols {α : Type} (function : String) (name : α → String)
    (mark : α → Mark) {seen : List String} {parameters : List α}
    (distinct : (parameters.map name).Nodup) (fresh : ∀ item ∈ parameters, name item ∉ seen) :
    parametersOfForms function seen (parameters.map fun item => .symbol (name item) (mark item)) =
      .ok (parameters.map name) := by
  induction parameters generalizing seen with
  | nil => rfl
  | cons parameter parameters ih =>
    rw [List.map_cons] at distinct
    obtain ⟨other, distinct⟩ := List.nodup_cons.mp distinct
    -- What is read joins what was seen, and no later parameter is the same.
    have fresh' : ∀ item ∈ parameters, name item ∉ name parameter :: seen := by
      intro item mem again
      rcases List.mem_cons.mp again with same | again
      · exact other (same ▸ List.mem_map_of_mem mem)
      · exact fresh item (List.mem_cons_of_mem parameter mem) again
    rw [List.map_cons, parametersOfForms, if_neg (fresh parameter List.mem_cons_self),
      ih distinct fresh']
    rfl

/-- `headerOfForms` reads a name that means no construct, and distinct parameters. -/
theorem headerOfForms_word {name : String} {parameters : List String} {forms : List Form}
    (named : Construct.ofWord name = .named) (distinct : parameters.Nodup) :
    headerOfForms Mark.nowhere
      (.word name :: .list (parameters.map Form.word) Mark.nowhere :: forms) =
        .ok (name, parameters) := by
  have read : parametersOfForms name [] (parameters.map Form.word) = .ok (parameters.map id) :=
    parametersOfForms_symbols name id (fun _ => Mark.nowhere) (by rwa [List.map_id])
      fun parameter _ => List.not_mem_nil
  rw [List.map_id] at read
  rw [Form.word, headerOfForms, named, if_neg (fun other => other rfl), read]
  rfl

namespace Stmt

/-- `ofItems` of a list that starts with any other word is a call. -/
theorem ofItems_of_named {head : String} (named : Construct.ofWord head = .named)
    (mark place : Mark) (rest : List Form) :
    ofItems mark (.symbol head place :: rest) = (do
      let arguments ← Expr.ofForms rest
      return call head arguments true place.line) := by
  rw [ofItems.eq_def]
  dsimp only
  rw [named]

mutual

/-- `ofForm` reads back the `form` of a well-formed statement, up to lines. -/
theorem ofForm_form {stmt : Stmt} (wellFormed : stmt.WellFormed) :
    ofForm stmt.form = .ok stmt.eraseLines := by
  -- In each case `meaning` says how the forms of the parts are read; the parts do the rest.
  cases stmt with
  | block body line => exact wellFormed.elim
  | command kind line => cases kind <;> rfl
  | loop count body line =>
    obtain ⟨wellCount, wellBody⟩ := wellFormed
    have meaning : ofForm (loop count body line).form = (do
        let count ← Expr.ofForm count.form
        let body ← ofForms (forms body)
        return loop count body 0) := rfl
    rw [meaning, Expr.ofForm_form wellCount, ofForms_forms wellBody]
    rfl
  | branch condition body line =>
    obtain ⟨some, wellBody⟩ := wellFormed
    obtain ⟨condition, rfl⟩ := Option.isSome_iff_exists.mp some
    have meaning : ofForm (branch condition body line).form = (do
        let condition ← Condition.ofForm condition.form
        let body ← ofForms (forms body)
        return branch condition body 0) := rfl
    rw [meaning, Condition.ofForm_form condition, ofForms_forms wellBody]
    rfl
  | assign name value line =>
    have meaning : ofForm (assign name value line).form = (do
        let value ← Expr.ofForm value.form
        return assign name value 0) := rfl
    rw [meaning, Expr.ofForm_form wellFormed.2]
    rfl
  | define name parameters body line =>
    obtain ⟨⟨_, named⟩, _, distinct, wellBody⟩ := wellFormed
    have meaning : ofForm (define name parameters body line).form = (do
        let (name, parameters) ← headerOfForms Mark.nowhere
          (.word name :: .list (parameters.map Form.word) Mark.nowhere :: forms body)
        let body ← ofForms (forms body)
        return define name parameters body 0) := rfl
    rw [meaning, headerOfForms_word named distinct, ofForms_forms wellBody]
    rfl
  | call name arguments implicit line =>
    obtain ⟨wellName, wellArguments⟩ := wellFormed
    have values := Expr.ofForms_map_form wellArguments
    cases implicit with
    | false =>
      have meaning : ofForm (call name arguments false line).form = (do
          let arguments ← Expr.ofForms (arguments.map Expr.form)
          return call name arguments false 0) := rfl
      rw [meaning, values]
      rfl
    | true =>
      have meaning : ofForm (call name arguments true line).form =
          ofItems Mark.nowhere (.symbol name Mark.nowhere :: arguments.map Expr.form) := rfl
      rw [meaning, ofItems_of_named wellName.2, values]
      rfl
  | missing => exact wellFormed.elim

/-- `ofForms` reads back the `forms` of well-formed statements, up to lines. -/
theorem ofForms_forms {stmts : List Stmt} (wellFormed : AllWellFormed stmts) :
    ofForms (forms stmts) = .ok (eraseAllLines stmts) := by
  cases stmts with
  | nil => rfl
  | cons stmt stmts =>
    rw [forms, ofForms, ofForm_form wellFormed.1, ofForms_forms wellFormed.2]
    rfl

end

end Stmt

/-- `Stmt.ofTopLevel` reads the `form` of a statement, which is a list, like `ofForm`. -/
theorem Stmt.ofTopLevel_form (stmt : Stmt) : ofTopLevel stmt.form = ofForm stmt.form := by
  cases stmt with
  | call name arguments implicit line => cases implicit <;> rfl
  | _ => rfl

/-- `Stmt.ofTopLevel` reads back the `forms` of well-formed statements, up to lines. -/
theorem Stmt.mapM_ofTopLevel_forms {stmts : List Stmt} (wellFormed : AllWellFormed stmts) :
    (forms stmts).mapM ofTopLevel = .ok (eraseAllLines stmts) := by
  induction stmts with
  | nil => rfl
  | cons stmt stmts ih =>
    rw [forms, List.mapM_cons, ofTopLevel_form, ofForm_form wellFormed.1, ih wellFormed.2]
    rfl

/-- `Program.ofForms` reads back the forms of a well-formed program, up to lines. -/
theorem Program.ofForms_forms {program : Program} (wellFormed : program.WellFormed) :
    unplacedBy eraseLines (ofForms (Stmt.forms program.body)) = .ok program.eraseLines := by
  rw [ofForms, Stmt.mapM_ofTopLevel_forms wellFormed]
  refine congrArg (fun body => Except.ok (Program.mk body 0)) ?_
  exact Stmt.eraseAllLines_eraseAllLines program.body

/-! ## The tokens of forms -/

namespace Form

mutual

/-- The tokens of a form, without places. -/
def tokens : Form → List Token
  | symbol name _ => [.plain .symbol name]
  | number text _ => [.plain .number text]
  | list items _ => .plain .opening "(" :: (tokensOf items ++ [.plain .closing ")"])

/-- The tokens of forms in a row, without places. -/
def tokensOf : List Form → List Token
  | [] => []
  | form :: forms => tokens form ++ tokensOf forms

end

/-- Adds finished forms one after the other. -/
def Grouping.pushAll (forms : List Form) (state : Grouping) : Grouping :=
  forms.foldl (fun state form => state.push form) state

/-- `Grouping.pushAll` puts forms into the innermost open list, newest first. -/
theorem Grouping.pushAll_pending (forms : List Form) (inner : OpenList) (outer : List OpenList)
    (finished : List Form) :
    pushAll forms ⟨inner :: outer, finished⟩ =
      ⟨⟨inner.mark, forms.reverse ++ inner.items⟩ :: outer, finished⟩ := by
  induction forms generalizing inner with
  | nil => rfl
  | cons form forms ih =>
    have step := ih ⟨inner.mark, form :: inner.items⟩
    rw [List.reverse_cons, List.append_assoc]
    exact step

/-- `Grouping.pushAll` puts forms on the top level where no list is open, newest first. -/
theorem Grouping.pushAll_finished (forms finished : List Form) :
    pushAll forms ⟨[], finished⟩ = ⟨[], forms.reverse ++ finished⟩ := by
  induction forms generalizing finished with
  | nil => rfl
  | cons form forms ih =>
    rw [List.reverse_cons, List.append_assoc]
    exact ih (form :: finished)

mutual

/-- `groupFrom` finishes a form with its `tokens`. -/
theorem groupFrom_tokens (state : Grouping) (rest : List Token) : ∀ form : Form,
    groupFrom state (form.tokens ++ rest) = groupFrom (state.push form.unplaced) rest
  | symbol name mark => rfl
  | number text mark => rfl
  | list items mark => by
    have inside :=
      groupFrom_tokensOf (state.openAt Mark.nowhere) (.plain .closing ")" :: rest) items
    have opened : groupFrom state ((list items mark).tokens ++ rest) =
        groupFrom (state.openAt Mark.nowhere) (tokensOf items ++ .plain .closing ")" :: rest) := by
      rw [tokens, List.cons_append, List.append_assoc]
      rfl
    -- The open list collects its items in reverse, and closing it turns them round.
    rw [opened, inside, Grouping.openAt, Grouping.pushAll_pending, List.append_nil, groupFrom]
    simp only [Token.plain, Grouping.closeAt, OpenList.close, List.reverse_reverse, unplaced]

/-- `groupFrom` finishes forms with the tokens of `tokensOf`. -/
theorem groupFrom_tokensOf (state : Grouping) (rest : List Token) : ∀ forms : List Form,
    groupFrom state (tokensOf forms ++ rest) = groupFrom (state.pushAll (unplacedAll forms)) rest
  | [] => rfl
  | form :: forms => by
    rw [tokensOf, List.append_assoc, groupFrom_tokens state _ form,
      groupFrom_tokensOf (state.push form.unplaced) rest forms]
    rfl

end

/-- `group` reads back the forms of `tokensOf`, up to places. -/
theorem group_tokensOf (forms : List Form) :
    group (tokensOf forms ++ [.plain .endOfInput ""]) = .ok (unplacedAll forms) := by
  rw [group, groupFrom_tokensOf, Grouping.empty, Grouping.pushAll_finished, List.append_nil]
  exact congrArg Except.ok (List.reverse_reverse _)

end Form

end MazeRobot
