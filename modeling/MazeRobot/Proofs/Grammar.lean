import Mathlib.Data.Nat.Digits.Defs
import MazeRobot.Proofs.Spelling

/-! # The grammar of programs

The derivations of the language as trees over tokens, apart from the reader. The terminals carry
that they are what the grammar asks for at their place, so every tree is a derivation.

* `Construct.words`, `keywords`: the words that start the phrases of the language.
* `ExprTree`, `ConditionTree`, `StmtTree`: the derivations; `tokens` is the text of one, and
  `denote` the syntax that it stands for. -/

namespace MazeRobot

/-! ## Words -/

/-- The words for a command. -/
def Command.words : Command → List String
  | forward => ["forward", "move", "move-forward"]
  | turnLeft => ["turn-left", "left"]
  | turnRight => ["turn-right", "right"]

namespace Construct

/-- The words that start a phrase. A call may start with any word that is not one of these. -/
def words : Construct → List String
  | command kind => kind.words
  | turn => ["turn"]
  | loop => ["repeat"]
  | branch => ["if"]
  | assign => ["set", "let"]
  | define => ["function", "def", "define", "func"]
  | call => ["call"]
  | condition => ["sensor", "closer", "not"]
  | distance => ["distance-to-end", "distance"]
  | named => []

/-- The phrases that start with words of their own. -/
def reserved : List Construct :=
  [command .forward, command .turnLeft, command .turnRight, turn, loop, branch, assign, define,
    call, condition, distance]

end Construct

/-- The words of the language. -/
def keywords : List String := Construct.reserved.flatMap Construct.words

namespace Construct

variable {word : String} {construct : Construct}

/-- Every phrase but the call by a name is `reserved`: it has words of its own. -/
theorem mem_reserved_iff : construct ∈ reserved ↔ construct ≠ named := by
  cases construct with
  | command kind => cases kind <;> decide
  | _ => decide

/-- `ofWord` of a word of a phrase is that phrase. -/
theorem ofWord_of_mem_words (member : word ∈ construct.words) : ofWord word = construct := by
  have each : ∀ construct ∈ reserved, ∀ word ∈ construct.words, ofWord word = construct := by
    decide +kernel
  refine each construct (mem_reserved_iff.mpr fun free => ?_) word member
  rw [free] at member
  cases member

/-- A word is among the `words` of the phrase that `ofWord` gives, if that has any. -/
theorem mem_words_ofWord (other : ofWord word ≠ named) : word ∈ (ofWord word).words := by
  unfold ofWord at other ⊢
  split <;> simp_all [words, Command.words]

/-- `ofWord` gives a phrase other than the call by a name exactly for its `words`. -/
theorem ofWord_eq_iff (other : construct ≠ named) :
    ofWord word = construct ↔ word ∈ construct.words := by
  refine ⟨fun same => ?_, ofWord_of_mem_words⟩
  subst same
  exact mem_words_ofWord other

/-- `ofWord` gives the call by a name exactly for the words that are no `keywords`. -/
theorem ofWord_eq_named_iff : ofWord word = named ↔ word ∉ keywords := by
  rw [keywords, List.mem_flatMap]
  constructor
  · rintro free ⟨construct, reserved, member⟩
    exact mem_reserved_iff.mp reserved ((ofWord_of_mem_words member).symm.trans free)
  · intro none
    by_contra other
    exact none ⟨_, mem_reserved_iff.mpr other, mem_words_ofWord other⟩

end Construct

/-! ## Terminals -/

/-- An opening parenthesis. -/
abbrev Opening := { token : Token // token.cls = .opening }

/-- A closing parenthesis. -/
abbrev Closing := { token : Token // token.cls = .closing }

/-- Any symbol. -/
abbrev Name := { token : Token // token.cls = .symbol }

/-- A symbol that is one of the given words. -/
abbrev Word (texts : List String) :=
  { token : Token // token.cls = .symbol ∧ token.literal ∈ texts }

/-- A symbol that is no word of the language. -/
abbrev FreeName := { token : Token // token.cls = .symbol ∧ token.literal ∉ keywords }

/-- The value of a number in decimal notation. -/
def Token.decimal (token : Token) : Nat :=
  Nat.ofDigits 10 (token.literal.toList.reverse.map fun c => c.toNat - 0x30)

/-- A number without a sign that fits a word; there may be zeros in front. -/
abbrev Numeral :=
  { token : Token // token.cls = .number ∧ '-' ∉ token.literal.toList ∧ token.decimal < wordBound }

/-- Symbols that differ from each other. -/
abbrev Parameters :=
  { tokens : List Token // (∀ token ∈ tokens, token.cls = .symbol) ∧
    (tokens.map Token.literal).Nodup }

/-! ## Derivations -/

/-- The derivations of values. -/
inductive ExprTree where
  /-- A number. -/
  | number (numeral : Numeral)
  /-- A variable. -/
  | var (name : Name)
  /-- The distance to the goal. -/
  | distance (opening : Opening) (word : Word Construct.distance.words) (closing : Closing)

/-- The derivations of conditions. -/
inductive ConditionTree where
  /-- A query in a direction. -/
  | query (opening : Opening) (kind : Query) (word : Word [kind.name]) (direction : Direction)
      (side : Word [direction.name]) (closing : Closing)
  /-- A negation. -/
  | negation (opening : Opening) (word : Word ["not"]) (inner : ConditionTree) (closing : Closing)

/-- The derivations of statements. -/
inductive StmtTree where
  /-- A command. -/
  | command (opening : Opening) (kind : Command) (word : Word kind.words) (closing : Closing)
  /-- A turn to a side. -/
  | turn (opening : Opening) (word : Word Construct.turn.words) (side : Word ["left", "right"])
      (closing : Closing)
  /-- A loop. -/
  | loop (opening : Opening) (word : Word Construct.loop.words) (count : ExprTree)
      (body : List StmtTree) (closing : Closing)
  /-- A conditional. -/
  | branch (opening : Opening) (word : Word Construct.branch.words) (condition : ConditionTree)
      (body : List StmtTree) (closing : Closing)
  /-- An assignment. -/
  | assign (opening : Opening) (word : Word Construct.assign.words) (name : Name)
      (value : ExprTree) (closing : Closing)
  /-- A function definition. -/
  | define (opening : Opening) (word : Word Construct.define.words) (name : FreeName)
      (left : Opening) (parameters : Parameters) (right : Closing) (body : List StmtTree)
      (closing : Closing)
  /-- A call by the word for it. -/
  | call (opening : Opening) (word : Word Construct.call.words) (name : Name)
      (arguments : List ExprTree) (closing : Closing)
  /-- A call by the name of the function alone. -/
  | implicit (opening : Opening) (name : FreeName) (arguments : List ExprTree) (closing : Closing)

/-! ## The text of a derivation -/

/-- The tokens of a value. -/
def ExprTree.tokens : ExprTree → List Token
  | number numeral => [numeral.val]
  | var name => [name.val]
  | distance opening word closing => [opening.val, word.val, closing.val]

/-- The tokens of a condition. -/
def ConditionTree.tokens : ConditionTree → List Token
  | query opening _ word _ side closing => [opening.val, word.val, side.val, closing.val]
  | negation opening word inner closing =>
    opening.val :: word.val :: (inner.tokens ++ [closing.val])

namespace StmtTree

mutual

/-- The tokens of a statement. -/
def tokens : StmtTree → List Token
  | command opening _ word closing => [opening.val, word.val, closing.val]
  | turn opening word side closing => [opening.val, word.val, side.val, closing.val]
  | loop opening word count body closing =>
    opening.val :: word.val :: (count.tokens ++ tokensAll body ++ [closing.val])
  | branch opening word condition body closing =>
    opening.val :: word.val :: (condition.tokens ++ tokensAll body ++ [closing.val])
  | assign opening word name value closing =>
    opening.val :: word.val :: name.val :: (value.tokens ++ [closing.val])
  | define opening word name left parameters right body closing =>
    opening.val :: word.val :: name.val :: left.val ::
      (parameters.val ++ right.val :: (tokensAll body ++ [closing.val]))
  | call opening word name arguments closing =>
    opening.val :: word.val :: name.val :: (arguments.flatMap ExprTree.tokens ++ [closing.val])
  | implicit opening name arguments closing =>
    opening.val :: name.val :: (arguments.flatMap ExprTree.tokens ++ [closing.val])

/-- The tokens of statements in a row. -/
def tokensAll : List StmtTree → List Token
  | [] => []
  | tree :: trees => tokens tree ++ tokensAll trees

end

end StmtTree

/-! ## The meaning of a derivation -/

/-- The line of a token, as syntax trees have it. -/
def Token.line (token : Token) : Int := token.mark.line

/-- The value that a derivation stands for. -/
def ExprTree.denote : ExprTree → Expr
  | number numeral => .number numeral.val.decimal numeral.val.line
  | var name => .var name.val.literal name.val.line
  | distance opening _ _ => .distance opening.val.line

/-- The condition that a derivation stands for inside some negations: it is negated if their number
is odd. -/
def ConditionTree.denoteUnder (negations : Nat) : ConditionTree → Condition
  | query _ kind word direction _ _ =>
    ⟨kind, decide (negations % 2 = 1), direction, word.val.line⟩
  | negation _ _ inner _ => inner.denoteUnder (negations + 1)

/-- The condition that a derivation stands for. -/
def ConditionTree.denote (tree : ConditionTree) : Condition := tree.denoteUnder 0

namespace StmtTree

mutual

/-- The statement that a derivation stands for. Its line is that of the first word. -/
def denote : StmtTree → Stmt
  | command _ kind word _ => .command kind word.val.line
  | turn _ word side _ =>
    .command (if side.val.literal = "left" then .turnLeft else .turnRight) word.val.line
  | loop _ word count body _ => .loop count.denote (denoteAll body) word.val.line
  | branch _ word condition body _ =>
    .branch (some condition.denote) (denoteAll body) word.val.line
  | assign _ word name value _ => .assign name.val.literal value.denote word.val.line
  | define _ word name _ parameters _ body _ =>
    .define name.val.literal (parameters.val.map Token.literal) (denoteAll body) word.val.line
  | call _ word name arguments _ =>
    .call name.val.literal (arguments.map ExprTree.denote) false word.val.line
  | implicit _ name arguments _ =>
    .call name.val.literal (arguments.map ExprTree.denote) true name.val.line

/-- The statements that derivations stand for. -/
def denoteAll : List StmtTree → List Stmt
  | [] => []
  | tree :: trees => denote tree :: denoteAll trees

end

end StmtTree

end MazeRobot
