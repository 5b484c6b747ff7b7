import MazeRobot.Proofs.Grammar

/-! # Reading follows the grammar

The reader groups tokens into forms and then takes the forms apart. The programs that it accepts are
those with a derivation: a derivation has a form, which its tokens spell and which means what the
derivation stands for; and where a form means something, the tokens that spell it have a derivation.

* `StmtTree.form`: the form of a derivation.
* `StmtTree.spells_form`, `StmtTree.ofForm_form`: its tokens spell it, and it means the statement.
* `StmtTree.exists_of_ofForm`: a form with a meaning comes from a derivation. -/

namespace MazeRobot

/-! ## The form of a derivation -/

/-- A symbol as a form. -/
def Token.word (token : Token) : Form := .symbol token.literal token.mark

/-- The form of a value. -/
def ExprTree.form : ExprTree → Form
  | number numeral => .number numeral.val.literal numeral.val.mark
  | var name => name.val.word
  | distance opening word _ => .list [word.val.word] opening.val.mark

/-- The form of a condition. -/
def ConditionTree.form : ConditionTree → Form
  | query opening _ word _ side _ => .list [word.val.word, side.val.word] opening.val.mark
  | negation opening word inner _ => .list [word.val.word, inner.form] opening.val.mark

namespace StmtTree

mutual

/-- The form of a statement. -/
def form : StmtTree → Form
  | command opening _ word _ => .list [word.val.word] opening.val.mark
  | turn opening word side _ => .list [word.val.word, side.val.word] opening.val.mark
  | loop opening word count body _ =>
    .list (word.val.word :: count.form :: forms body) opening.val.mark
  | branch opening word condition body _ =>
    .list (word.val.word :: condition.form :: forms body) opening.val.mark
  | assign opening word name value _ =>
    .list [word.val.word, name.val.word, value.form] opening.val.mark
  | define opening word name left parameters _ body _ =>
    .list (word.val.word :: name.val.word ::
      .list (parameters.val.map Token.word) left.val.mark :: forms body) opening.val.mark
  | call opening word name arguments _ =>
    .list (word.val.word :: name.val.word :: arguments.map ExprTree.form) opening.val.mark
  | implicit opening name arguments _ =>
    .list (name.val.word :: arguments.map ExprTree.form) opening.val.mark

/-- The forms of statements. -/
def forms : List StmtTree → List Form
  | [] => []
  | tree :: trees => form tree :: forms trees

end

end StmtTree

/-! ## The tokens of a derivation spell its form -/

namespace Form

variable {items forms : List Form} {inner tokens : List Token} {token : Token}

/-- Items between parentheses spell a list: `Spells` of the list holds if `SpellsAll` of the items
does. -/
theorem spells_list (opening : Opening) (closing : Closing) (spelled : SpellsAll items inner) :
    (list items opening.val.mark).Spells (opening.val :: (inner ++ [closing.val])) :=
  ⟨opening.val, inner, closing.val, rfl, opening.property, rfl, closing.property, spelled⟩

/-- A symbol `Spells` itself as a `word`. -/
theorem spells_word (symbol : token.cls = .symbol) : token.word.Spells [token] := by
  obtain ⟨cls, literal, mark⟩ := token
  cases symbol
  rfl

/-- `SpellsAll` goes on to one more symbol in front. -/
theorem SpellsAll.word (spelled : SpellsAll forms tokens) (symbol : token.cls = .symbol) :
    SpellsAll (token.word :: forms) (token :: tokens) :=
  ⟨[token], tokens, rfl, spells_word symbol, spelled⟩

/-- `SpellsAll` goes on to one more form in front, with its tokens. -/
theorem SpellsAll.cons {form : Form} {first : List Token} (spelled : SpellsAll forms tokens)
    (one : form.Spells first) : SpellsAll (form :: forms) (first ++ tokens) :=
  ⟨first, tokens, rfl, one, spelled⟩

/-- Symbols in a row are spelled by themselves: `SpellsAll` of their `word`s. -/
theorem spellsAll_words (symbols : ∀ token ∈ tokens, token.cls = .symbol) :
    SpellsAll (tokens.map Token.word) tokens := by
  induction tokens with
  | nil => rfl
  | cons token tokens ih =>
    have rest := ih fun other member => symbols other (List.mem_cons_of_mem _ member)
    exact rest.word (symbols token List.mem_cons_self)

end Form

namespace ExprTree

/-- The `tokens` of a value spell its `form`. -/
theorem spells_form (tree : ExprTree) : tree.form.Spells tree.tokens := by
  cases tree with
  | number numeral =>
    obtain ⟨⟨cls, literal, mark⟩, number, positive, bound⟩ := numeral
    cases number
    exact ⟨rfl, fun minus => positive (List.mem_of_mem_tail minus)⟩
  | var name => exact Form.spells_word name.property
  | distance opening word closing =>
    exact Form.spells_list opening closing (Form.spells_word word.property.1).singleton

/-- The `tokens` of values spell their forms. -/
theorem spellsAll_forms (trees : List ExprTree) :
    Form.SpellsAll (trees.map form) (trees.flatMap tokens) := by
  induction trees with
  | nil => rfl
  | cons tree trees ih => exact ih.cons tree.spells_form

end ExprTree

/-- The `tokens` of a condition spell its `form`. -/
theorem ConditionTree.spells_form (tree : ConditionTree) : tree.form.Spells tree.tokens := by
  induction tree with
  | query opening kind word direction side closing =>
    have items := (Form.spells_word side.property.1).singleton.word word.property.1
    exact Form.spells_list opening closing items
  | negation opening word inner closing ih =>
    exact Form.spells_list opening closing (ih.singleton.word word.property.1)

namespace StmtTree

mutual

/-- The `tokens` of a statement spell its `form`. -/
theorem spells_form (tree : StmtTree) : tree.form.Spells tree.tokens := by
  cases tree with
  | command opening kind word closing =>
    exact Form.spells_list opening closing (Form.spells_word word.property.1).singleton
  | turn opening word side closing =>
    have items := (Form.spells_word side.property.1).singleton.word word.property.1
    exact Form.spells_list opening closing items
  | loop opening word count body closing =>
    have items := ((spellsAll_forms body).cons count.spells_form).word word.property.1
    exact Form.spells_list opening closing items
  | branch opening word condition body closing =>
    have items := ((spellsAll_forms body).cons condition.spells_form).word word.property.1
    exact Form.spells_list opening closing items
  | assign opening word name value closing =>
    have items := (value.spells_form.singleton.word name.property).word word.property.1
    exact Form.spells_list opening closing items
  | define opening word name left parameters right body closing =>
    have names := Form.spells_list left right (Form.spellsAll_words parameters.property.1)
    have items := (((spellsAll_forms body).cons names).word name.property.1).word word.property.1
    have whole := Form.spells_list opening closing items
    simpa [tokens, form] using whole
  | call opening word name arguments closing =>
    have items := ((ExprTree.spellsAll_forms arguments).word name.property).word word.property.1
    exact Form.spells_list opening closing items
  | implicit opening name arguments closing =>
    have items := (ExprTree.spellsAll_forms arguments).word name.property.1
    exact Form.spells_list opening closing items

/-- The `tokensAll` of statements spell their `forms`. -/
theorem spellsAll_forms (trees : List StmtTree) :
    Form.SpellsAll (forms trees) (tokensAll trees) := by
  cases trees with
  | nil => rfl
  | cons tree trees => exact (spellsAll_forms trees).cons (spells_form tree)

end

end StmtTree

/-! ## The form of a derivation means what the derivation stands for -/

/-- `digitsValue`, which reads from the left, gives the `decimal` value of a number. -/
theorem Token.digitsValue_eq_decimal (token : Token) :
    digitsValue token.literal.toList = token.decimal := by
  rw [decimal, digitsValue, Nat.ofDigits_eq_foldr, List.foldr_map, List.foldr_reverse]
  refine congrArg (fun step => List.foldl step 0 token.literal.toList) ?_
  funext value c
  simp only [Nat.cast_id]
  omega

namespace ExprTree

/-- `Expr.ofForm` of the `form` of a value is what the tree denotes. -/
theorem ofForm_form (tree : ExprTree) : Expr.ofForm tree.form = .ok tree.denote := by
  cases tree with
  | number numeral =>
    obtain ⟨token, -, positive, bound⟩ := numeral
    have unsigned : ¬ token.literal.toList.head? = some '-' :=
      fun minus => positive (List.mem_of_mem_head? minus)
    have fits : token.decimal ≤ maxNumber := Nat.le_sub_one_of_lt bound
    simp only [form, denote, Expr.ofForm, Expr.ofNumber, if_neg unsigned,
      token.digitsValue_eq_decimal, if_pos fits, Token.line]
  | var name => rfl
  | distance opening word closing =>
    have construct := Construct.ofWord_of_mem_words word.property.2
    rw [form, Token.word, Expr.ofForm, construct]
    rfl

/-- `Expr.ofForms` of the forms of values is what the trees denote. -/
theorem ofForms_map_form (trees : List ExprTree) :
    Expr.ofForms (trees.map form) = .ok (trees.map denote) := by
  induction trees with
  | nil => rfl
  | cons tree trees ih =>
    rw [List.map_cons, Expr.ofForms, ofForm_form, ih]
    rfl

end ExprTree

namespace ConditionTree

/-- `denoteUnder` one more negation is the condition turned around by `negate`. -/
theorem denoteUnder_succ (tree : ConditionTree) (negations : Nat) :
    tree.denoteUnder (negations + 1) = (tree.denoteUnder negations).negate := by
  induction tree generalizing negations with
  | query opening kind word direction side closing =>
    have parity : decide ((negations + 1) % 2 = 1) = !decide (negations % 2 = 1) := by
      rw [← decide_not]
      exact decide_eq_decide.mpr (by omega)
    rw [denoteUnder, denoteUnder, Condition.negate, parity]
  | negation opening word inner closing ih => exact ih (negations + 1)

/-- `Condition.ofForm` of the `form` of a condition is what the tree denotes. -/
theorem ofForm_form (tree : ConditionTree) : Condition.ofForm tree.form = .ok tree.denote := by
  induction tree with
  | query opening kind word direction side closing =>
    obtain ⟨⟨_, _, place⟩, _, known⟩ := word
    obtain ⟨⟨_, _, mark⟩, _, there⟩ := side
    cases List.mem_singleton.mp known
    cases List.mem_singleton.mp there
    cases kind <;> cases direction <;> rfl
  | negation opening word inner closing ih =>
    obtain ⟨⟨_, _, place⟩, _, known⟩ := word
    cases List.mem_singleton.mp known
    have meaning : Condition.ofForm (.list [.symbol "not" place, inner.form] opening.val.mark) = (do
        let condition ← Condition.ofForm inner.form
        return condition.negate) := by
      rw [Condition.ofForm]
    rw [form, Token.word, meaning, ih]
    exact congrArg Except.ok (inner.denoteUnder_succ 0).symm

end ConditionTree

namespace StmtTree

/-- `Command.ofTurn` of a side. -/
theorem ofTurn_side (side : Word ["left", "right"]) (place : Mark) :
    Command.ofTurn place [side.val.word] =
      .ok (if side.val.literal = "left" then .turnLeft else .turnRight) := by
  obtain ⟨⟨_, _, mark⟩, _, known⟩ := side
  rcases List.mem_cons.mp known with left | right
  · cases left
    rfl
  · cases List.mem_singleton.mp right
    rfl

mutual

/-- **`Stmt.ofForm` of the `form` of a statement is what the tree denotes.** -/
theorem ofForm_form (tree : StmtTree) : Stmt.ofForm tree.form = .ok tree.denote := by
  -- The first word tells the phrase, and the forms of the parts mean the parts.
  cases tree with
  | command opening kind word closing =>
    have construct : Construct.ofWord word.val.literal = .command kind :=
      Construct.ofWord_of_mem_words word.property.2
    rw [form, Stmt.ofForm, Token.word, Stmt.ofItems.eq_def]
    dsimp only
    rw [construct]
    rfl
  | turn opening word side closing =>
    have construct := Construct.ofWord_of_mem_words word.property.2
    rw [form, Stmt.ofForm, Token.word, Stmt.ofItems.eq_def]
    dsimp only
    rw [construct]
    dsimp only
    rw [ofTurn_side]
    rfl
  | loop opening word count body closing =>
    have construct := Construct.ofWord_of_mem_words word.property.2
    rw [form, Stmt.ofForm, Token.word, Stmt.ofItems.eq_def]
    dsimp only
    rw [construct]
    dsimp only
    rw [count.ofForm_form, ofForms_forms body]
    rfl
  | branch opening word condition body closing =>
    have construct := Construct.ofWord_of_mem_words word.property.2
    rw [form, Stmt.ofForm, Token.word, Stmt.ofItems.eq_def]
    dsimp only
    rw [construct]
    dsimp only
    rw [condition.ofForm_form, ofForms_forms body]
    rfl
  | assign opening word name value closing =>
    have construct := Construct.ofWord_of_mem_words word.property.2
    rw [form, Stmt.ofForm, Token.word, Stmt.ofItems.eq_def]
    dsimp only
    rw [construct]
    dsimp only [Token.word]
    rw [value.ofForm_form]
    rfl
  | define opening word name left parameters right body closing =>
    have construct := Construct.ofWord_of_mem_words word.property.2
    have free := Construct.ofWord_eq_named_iff.mpr name.property.2
    have names : parametersOfForms name.val.literal [] (parameters.val.map Token.word) = .ok _ :=
      parametersOfForms_symbols name.val.literal Token.literal Token.mark parameters.property.2
        fun token _ => List.not_mem_nil
    rw [form, Stmt.ofForm, Token.word, Stmt.ofItems.eq_def]
    dsimp only
    rw [construct]
    dsimp only
    rw [Token.word, headerOfForms, free, if_neg (fun other => other rfl), names, ofForms_forms body]
    rfl
  | call opening word name arguments closing =>
    have construct := Construct.ofWord_of_mem_words word.property.2
    rw [form, Stmt.ofForm, Token.word, Stmt.ofItems.eq_def]
    dsimp only
    rw [construct]
    dsimp only [Token.word]
    rw [ExprTree.ofForms_map_form arguments]
    rfl
  | implicit opening name arguments closing =>
    have free := Construct.ofWord_eq_named_iff.mpr name.property.2
    rw [form, Stmt.ofForm, Token.word, Stmt.ofItems_of_named free,
      ExprTree.ofForms_map_form arguments]
    rfl

/-- `Stmt.ofForms` of the `forms` of statements is what the trees denote. -/
theorem ofForms_forms (trees : List StmtTree) :
    Stmt.ofForms (forms trees) = .ok (denoteAll trees) := by
  cases trees with
  | nil => rfl
  | cons tree trees =>
    rw [forms, Stmt.ofForms, ofForm_form tree, ofForms_forms trees]
    rfl

end

end StmtTree

/-! ## A form with a meaning comes from a derivation -/

/-- `Expr.ofNumber` reads only a number that has no sign and fits a word. -/
theorem Expr.ofNumber_eq_ok {text : String} {mark : Mark} {value : Expr}
    (found : ofNumber text mark = .ok value) :
    text.toList.head? ≠ some '-' ∧ digitsValue text.toList < wordBound ∧
      value = .number (digitsValue text.toList) mark.line := by
  rw [ofNumber] at found
  by_cases minus : text.toList.head? = some '-'
  · rw [if_pos minus] at found
    cases found
  · rw [if_neg minus] at found
    dsimp only at found
    by_cases fits : digitsValue text.toList ≤ maxNumber
    · rw [if_pos fits] at found
      cases found
      exact ⟨minus, Nat.lt_of_le_pred (by decide) fits, rfl⟩
    · rw [if_neg fits] at found
      cases found

/-- A form that `Expr.ofForm` reads comes from an `ExprTree` of the value. -/
theorem ExprTree.exists_of_ofForm {form : Form} {tokens : List Token} {value : Expr}
    (spelled : form.Spells tokens) (found : Expr.ofForm form = .ok value) :
    ∃ tree : ExprTree, tree.tokens = tokens ∧ tree.denote = value := by
  match form with
  | .symbol name mark =>
    cases spelled
    cases found
    exact ⟨.var ⟨⟨.symbol, name, mark⟩, rfl⟩, rfl, rfl⟩
  | .number text mark =>
    obtain ⟨rfl, tail⟩ := spelled
    obtain ⟨unsigned, bound, rfl⟩ := Expr.ofNumber_eq_ok found
    have value := Token.digitsValue_eq_decimal ⟨.number, text, mark⟩
    have positive : '-' ∉ text.toList := by
      intro minus
      cases chars : text.toList with
      | nil => simp [chars] at minus
      | cons first rest =>
        rw [chars] at minus unsigned tail
        rcases List.mem_cons.mp minus with same | later
        · exact unsigned (congrArg some same.symm)
        · exact tail later
    refine ⟨.number ⟨⟨.number, text, mark⟩, rfl, positive, value ▸ bound⟩, rfl, ?_⟩
    exact congrArg (fun n : Nat => Expr.number n mark.line) value.symm
  | .list [] mark => cases found
  | .list (.number text place :: rest) mark => cases found
  | .list (.list items place :: rest) mark => cases found
  | .list (.symbol head place :: rest) mark =>
    obtain ⟨opening, inner, closing, rfl, left, rfl, right, first, others, rfl, rfl, spelled⟩ :=
      spelled
    rw [Expr.ofForm] at found
    cases construct : Construct.ofWord head with
    | distance =>
      rw [construct] at found
      dsimp only at found
      cases rest with
      | cons form forms => cases found
      | nil =>
        cases found
        cases spelled
        have word := (Construct.ofWord_eq_iff (by decide)).mp construct
        exact ⟨.distance ⟨opening, left⟩ ⟨⟨.symbol, head, place⟩, rfl, word⟩ ⟨closing, right⟩,
          rfl, rfl⟩
    | _ =>
      rw [construct] at found
      cases found

/-- Forms that `Expr.ofForms` reads come from `ExprTree`s of the values. -/
theorem ExprTree.exists_of_ofForms {forms : List Form} {tokens : List Token} {values : List Expr}
    (spelled : Form.SpellsAll forms tokens) (found : Expr.ofForms forms = .ok values) :
    ∃ trees : List ExprTree, trees.flatMap ExprTree.tokens = tokens ∧
      trees.map denote = values := by
  induction forms generalizing tokens values with
  | nil =>
    cases spelled
    cases found
    exact ⟨[], rfl, rfl⟩
  | cons form forms ih =>
    obtain ⟨first, rest, rfl, one, spelled⟩ := spelled
    obtain ⟨value, head, found⟩ := bind_eq_ok_iff.mp found
    obtain ⟨others, tail, found⟩ := bind_eq_ok_iff.mp found
    cases found
    obtain ⟨tree, rfl, rfl⟩ := exists_of_ofForm one head
    obtain ⟨trees, rfl, rfl⟩ := ih spelled tail
    exact ⟨tree :: trees, rfl, rfl⟩

/-- `Direction.ofForms` reads only the one form that is the name of a direction. -/
theorem Direction.ofForms_eq_ok {head : String} {place : Mark} {forms : List Form}
    {direction : Direction} (found : ofForms head place forms = .ok direction) :
    ∃ mark, forms = [.symbol direction.name mark] := by
  match forms with
  | [] => cases found
  | [.number text mark] => cases found
  | [.list items mark] => cases found
  | [.symbol name mark] =>
    rw [ofForms] at found
    cases known : ofName? name with
    | none =>
      rw [known] at found
      cases found
    | some other =>
      rw [known] at found
      cases found
      have same : direction.name = name := by simpa using List.find?_some known
      exact ⟨mark, by rw [same]⟩
  | first :: second :: rest => simp only [ofForms] at found; cases found

/-- A form that `Condition.ofForm` reads comes from a `ConditionTree` of the condition. -/
theorem ConditionTree.exists_of_ofForm {tokens : List Token} {condition : Condition} :
    ∀ form : Form, form.Spells tokens → Condition.ofForm form = .ok condition →
      ∃ tree : ConditionTree, tree.tokens = tokens ∧ tree.denote = condition
  | .symbol name mark, _, found => by cases found
  | .number text mark, _, found => by cases found
  | .list [] mark, _, found => by cases found
  | .list (.number text place :: rest) mark, _, found => by cases found
  | .list (.list items place :: rest) mark, _, found => by cases found
  | .list (.symbol head place :: rest) mark, spelled, found => by
    obtain ⟨opening, inner, closing, rfl, left, rfl, right, first, others, rfl, rfl, spelled⟩ :=
      spelled
    rw [Condition.ofForm.eq_def] at found
    dsimp only at found
    split at found
    · obtain ⟨direction, read, found⟩ := bind_eq_ok_iff.mp found
      cases found
      obtain ⟨mark, rfl⟩ := Direction.ofForms_eq_ok read
      obtain ⟨one, none, rfl, rfl, rfl⟩ := spelled
      exact ⟨.query ⟨opening, left⟩ .sensor ⟨⟨.symbol, _, place⟩, rfl, List.mem_cons_self⟩ direction
        ⟨⟨.symbol, _, mark⟩, rfl, List.mem_cons_self⟩ ⟨closing, right⟩, rfl, rfl⟩
    · obtain ⟨direction, read, found⟩ := bind_eq_ok_iff.mp found
      cases found
      obtain ⟨mark, rfl⟩ := Direction.ofForms_eq_ok read
      obtain ⟨one, none, rfl, rfl, rfl⟩ := spelled
      exact ⟨.query ⟨opening, left⟩ .closer ⟨⟨.symbol, _, place⟩, rfl, List.mem_cons_self⟩ direction
        ⟨⟨.symbol, _, mark⟩, rfl, List.mem_cons_self⟩ ⟨closing, right⟩, rfl, rfl⟩
    · match rest with
      | [] => cases found
      | _ :: _ :: _ => cases found
      | [form] =>
        obtain ⟨condition, read, found⟩ := bind_eq_ok_iff.mp found
        cases found
        obtain ⟨one, none, rfl, inside, rfl⟩ := spelled
        obtain ⟨tree, rfl, rfl⟩ := exists_of_ofForm form inside read
        refine ⟨.negation ⟨opening, left⟩ ⟨⟨.symbol, _, place⟩, rfl, List.mem_cons_self⟩ tree
          ⟨closing, right⟩, by simp [ConditionTree.tokens], tree.denoteUnder_succ 0⟩
    · cases found

/-- `Command.ofTurn` reads only the one form that names a side. -/
theorem Command.ofTurn_eq_ok {place : Mark} {forms : List Form} {kind : Command}
    (found : ofTurn place forms = .ok kind) :
    ∃ name mark, forms = [.symbol name mark] ∧ name ∈ ["left", "right"] ∧
      (if name = "left" then turnLeft else turnRight) = kind := by
  match forms with
  | [] => cases found
  | [.number text mark] => cases found
  | [.list items mark] => cases found
  | [.symbol name mark] =>
    rw [ofTurn.eq_def] at found
    dsimp only at found
    split at found
    · cases found
      exact ⟨_, mark, rfl, by decide, rfl⟩
    · cases found
      exact ⟨_, mark, rfl, by decide, rfl⟩
    · cases found
  | first :: second :: rest =>
    simp only [ofTurn] at found
    cases found

/-- `parametersOfForms` reads the symbols of the tokens, which differ from each other and from those
before. -/
theorem parametersOfForms_eq_ok {function : String} {seen names : List String} {forms : List Form}
    {tokens : List Token} (spelled : Form.SpellsAll forms tokens)
    (found : parametersOfForms function seen forms = .ok names) :
    names = tokens.map Token.literal ∧ (∀ token ∈ tokens, token.cls = .symbol) ∧ names.Nodup ∧
      ∀ name ∈ names, name ∉ seen := by
  induction forms generalizing seen names tokens with
  | nil =>
    cases spelled
    cases found
    exact ⟨rfl, fun _ mem => (nomatch mem), List.nodup_nil, fun _ mem => (nomatch mem)⟩
  | cons form forms ih =>
    cases form with
    | number text mark => cases found
    | list items mark => cases found
    | symbol name mark =>
      obtain ⟨first, rest, rfl, rfl, spelled⟩ := spelled
      rw [parametersOfForms] at found
      by_cases again : name ∈ seen
      · rw [if_pos again] at found
        cases found
      · rw [if_neg again] at found
        obtain ⟨others, tail, found⟩ := bind_eq_ok_iff.mp found
        cases found
        obtain ⟨rfl, symbols, distinct, fresh⟩ := ih spelled tail
        refine ⟨rfl, ?_, List.nodup_cons.mpr ⟨fun mem => ?_, distinct⟩, ?_⟩
        · intro token mem
          rcases List.mem_cons.mp mem with rfl | later
          · rfl
          · exact symbols token later
        · exact fresh name mem List.mem_cons_self
        · intro other mem
          rcases List.mem_cons.mp mem with rfl | later
          · exact again
          · exact fun old => fresh other later (List.mem_cons_of_mem _ old)

namespace StmtTree

mutual

/-- **A form that `Stmt.ofForm` reads comes from a `StmtTree` of the statement.** -/
theorem exists_of_ofForm {form : Form} {tokens : List Token} {stmt : Stmt}
    (spelled : form.Spells tokens) (found : Stmt.ofForm form = .ok stmt) :
    ∃ tree : StmtTree, tree.tokens = tokens ∧ tree.denote = stmt := by
  match form with
  | .symbol name mark => cases found
  | .number text mark => cases found
  | .list items mark =>
    obtain ⟨opening, inner, closing, rfl, left, rfl, right, spelled⟩ := spelled
    rw [Stmt.ofForm] at found
    exact exists_of_ofItems ⟨opening, left⟩ ⟨closing, right⟩ spelled found

/-- The items of a list that `Stmt.ofItems` reads come from a `StmtTree` of the statement. -/
theorem exists_of_ofItems {mark : Mark} {items : List Form} {inner : List Token} {stmt : Stmt}
    (opening : Opening) (closing : Closing) (spelled : Form.SpellsAll items inner)
    (found : Stmt.ofItems mark items = .ok stmt) :
    ∃ tree : StmtTree, tree.tokens = opening.val :: (inner ++ [closing.val]) ∧
      tree.denote = stmt := by
  match items with
  | [] => cases found
  | .number text place :: rest => cases found
  | .list items place :: rest => cases found
  | .symbol head place :: rest =>
    obtain ⟨first, others, rfl, rfl, spelled⟩ := spelled
    rw [Stmt.ofItems.eq_def] at found
    dsimp only at found
    -- The first word is one of those of its phrase, and each part comes from a derivation of it.
    cases construct : Construct.ofWord head with
    | command kind =>
      rw [construct] at found
      have word : head ∈ kind.words := (Construct.ofWord_eq_iff (by simp)).mp construct
      match rest with
      | form :: forms => cases found
      | [] =>
        cases found
        cases spelled
        exact ⟨.command opening kind ⟨⟨.symbol, head, place⟩, rfl, word⟩ closing, rfl, rfl⟩
    | turn =>
      rw [construct] at found
      have word := (Construct.ofWord_eq_iff (by decide)).mp construct
      obtain ⟨kind, read, found⟩ := bind_eq_ok_iff.mp found
      cases found
      obtain ⟨name, mark, rfl, side, rfl⟩ := Command.ofTurn_eq_ok read
      obtain ⟨one, none, rfl, rfl, rfl⟩ := spelled
      exact ⟨.turn opening ⟨⟨.symbol, head, place⟩, rfl, word⟩ ⟨⟨.symbol, name, mark⟩, rfl, side⟩
        closing, rfl, rfl⟩
    | loop =>
      rw [construct] at found
      have word := (Construct.ofWord_eq_iff (by decide)).mp construct
      match rest with
      | [] => cases found
      | form :: forms =>
        obtain ⟨count, read, found⟩ := bind_eq_ok_iff.mp found
        obtain ⟨body, others, found⟩ := bind_eq_ok_iff.mp found
        cases found
        obtain ⟨one, more, rfl, inside, spelled⟩ := spelled
        obtain ⟨tree, rfl, rfl⟩ := ExprTree.exists_of_ofForm inside read
        obtain ⟨trees, rfl, rfl⟩ := exists_of_ofForms spelled others
        exact ⟨.loop opening ⟨⟨.symbol, head, place⟩, rfl, word⟩ tree trees closing, rfl, rfl⟩
    | branch =>
      rw [construct] at found
      have word := (Construct.ofWord_eq_iff (by decide)).mp construct
      match rest with
      | [] => cases found
      | form :: forms =>
        obtain ⟨condition, read, found⟩ := bind_eq_ok_iff.mp found
        obtain ⟨body, others, found⟩ := bind_eq_ok_iff.mp found
        cases found
        obtain ⟨one, more, rfl, inside, spelled⟩ := spelled
        obtain ⟨tree, rfl, rfl⟩ := ConditionTree.exists_of_ofForm form inside read
        obtain ⟨trees, rfl, rfl⟩ := exists_of_ofForms spelled others
        exact ⟨.branch opening ⟨⟨.symbol, head, place⟩, rfl, word⟩ tree trees closing, rfl, rfl⟩
    | assign =>
      rw [construct] at found
      have word := (Construct.ofWord_eq_iff (by decide)).mp construct
      dsimp only at found
      split at found
      · rename_i name mark form
        obtain ⟨value, read, found⟩ := bind_eq_ok_iff.mp found
        cases found
        obtain ⟨_, _, rfl, rfl, one, none, rfl, inside, rfl⟩ := spelled
        obtain ⟨tree, rfl, rfl⟩ := ExprTree.exists_of_ofForm inside read
        exact ⟨.assign opening ⟨⟨.symbol, head, place⟩, rfl, word⟩ ⟨⟨.symbol, name, mark⟩, rfl⟩ tree
          closing, by simp [tokens], rfl⟩
      · cases found
      · cases found
    | define =>
      rw [construct] at found
      have word := (Construct.ofWord_eq_iff (by decide)).mp construct
      obtain ⟨⟨function, parameters⟩, header, found⟩ := bind_eq_ok_iff.mp found
      -- The header takes the first two forms, and the body is what follows them.
      match rest with
      | [] => cases header
      | [first] => cases first <;> cases header
      | first :: second :: forms =>
        obtain ⟨mark, names, start, rfl, rfl, free, read⟩ := headerOfForms_eq_ok header
        obtain ⟨body, others, found⟩ := bind_eq_ok_iff.mp found
        cases found
        obtain ⟨_, _, rfl, rfl, _, _, rfl, ⟨left, between, right, rfl, opens, rfl, closes, inside⟩,
          spelled⟩ := spelled
        obtain ⟨rfl, symbols, distinct, -⟩ := parametersOfForms_eq_ok inside read
        obtain ⟨trees, rfl, rfl⟩ := exists_of_ofForms spelled others
        exact ⟨.define opening ⟨⟨.symbol, head, place⟩, rfl, word⟩
          ⟨⟨.symbol, function, mark⟩, rfl, Construct.ofWord_eq_named_iff.mp free⟩ ⟨left, opens⟩
          ⟨between, symbols, distinct⟩ ⟨right, closes⟩ trees closing, by simp [tokens], rfl⟩
    | call =>
      rw [construct] at found
      have word := (Construct.ofWord_eq_iff (by decide)).mp construct
      match rest with
      | [] => cases found
      | .number text mark :: forms => cases found
      | .list items mark :: forms => cases found
      | .symbol callee mark :: forms =>
        obtain ⟨arguments, read, found⟩ := bind_eq_ok_iff.mp found
        cases found
        obtain ⟨_, more, rfl, rfl, spelled⟩ := spelled
        obtain ⟨trees, rfl, rfl⟩ := ExprTree.exists_of_ofForms spelled read
        exact ⟨.call opening ⟨⟨.symbol, head, place⟩, rfl, word⟩ ⟨⟨.symbol, callee, mark⟩, rfl⟩
          trees closing, rfl, rfl⟩
    | condition =>
      rw [construct] at found
      cases found
    | distance =>
      rw [construct] at found
      cases found
    | named =>
      rw [construct] at found
      obtain ⟨arguments, read, found⟩ := bind_eq_ok_iff.mp found
      cases found
      obtain ⟨trees, rfl, rfl⟩ := ExprTree.exists_of_ofForms spelled read
      exact ⟨.implicit opening
        ⟨⟨.symbol, head, place⟩, rfl, Construct.ofWord_eq_named_iff.mp construct⟩ trees closing,
        rfl, rfl⟩

/-- Forms that `Stmt.ofForms` reads come from `StmtTree`s of the statements. -/
theorem exists_of_ofForms {forms : List Form} {tokens : List Token} {stmts : List Stmt}
    (spelled : Form.SpellsAll forms tokens) (found : Stmt.ofForms forms = .ok stmts) :
    ∃ trees : List StmtTree, tokensAll trees = tokens ∧ denoteAll trees = stmts := by
  match forms with
  | [] =>
    cases spelled
    cases found
    exact ⟨[], rfl, rfl⟩
  | form :: forms =>
    obtain ⟨first, rest, rfl, one, spelled⟩ := spelled
    rw [Stmt.ofForms] at found
    obtain ⟨stmt, head, found⟩ := bind_eq_ok_iff.mp found
    obtain ⟨others, tail, found⟩ := bind_eq_ok_iff.mp found
    cases found
    obtain ⟨tree, rfl, rfl⟩ := exists_of_ofForm one head
    obtain ⟨trees, rfl, rfl⟩ := exists_of_ofForms spelled tail
    exact ⟨tree :: trees, rfl, rfl⟩

end

end StmtTree

end MazeRobot
