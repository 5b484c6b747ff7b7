/-! # Tokens

The smallest meaningful pieces of a source: parentheses, numbers and symbols, and a mark at the end.

* `Mark`: a place of the source.
* `TokenClass`: the five classes of tokens.
* `Token`: a token with its text and its place. -/

namespace MazeRobot

/-- A place of the source. Lines and columns count from one, columns in bytes. -/
structure Mark where
  /-- One more than the number of line breaks before the place. -/
  line : Nat
  /-- One more than the number of bytes between the last line break and the place. -/
  column : Nat
  deriving DecidableEq, Repr

namespace Mark

/-- The place at which every source starts. -/
def start : Mark := ⟨1, 1⟩

/-- The place `n` bytes further on the same line. -/
def right (mark : Mark) (n : Nat) : Mark := ⟨mark.line, mark.column + n⟩

/-- The place after one byte: a line break starts the next line. -/
def after (mark : Mark) (b : UInt8) : Mark :=
  if b = 0x0a then ⟨mark.line + 1, 1⟩ else mark.right 1

end Mark

/-- The classes of tokens. -/
inductive TokenClass where
  /-- The end of the source. -/
  | endOfInput
  /-- An opening parenthesis. -/
  | opening
  /-- A closing parenthesis. -/
  | closing
  /-- A number. -/
  | number
  /-- A symbol. -/
  | symbol
  deriving DecidableEq, Repr

namespace TokenClass

/-- All classes, in the order of their numbers. -/
def all : List TokenClass := [endOfInput, opening, closing, number, symbol]

/-- The class with the given number. -/
def ofCode? (n : Int) : Option TokenClass := if n < 0 then none else all[n.toNat]?

/-- The name of a class. -/
def name : TokenClass → String
  | endOfInput => "EOF"
  | opening => "LPAREN"
  | closing => "RPAREN"
  | number => "NUMBER"
  | symbol => "SYMBOL"

/-- The name shown for a number, also one that numbers no class. -/
def nameOfCode (n : Int) : String :=
  match ofCode? n with
  | some cls => cls.name
  | none => s!"TokenType({n})"

/-- Whether the class is one of the two parentheses. -/
def isParenthesis (cls : TokenClass) : Bool := cls = opening || cls = closing

/-- How a token of the class with the given text is shown in a message. -/
def display (cls : TokenClass) (literal : String) : String :=
  if cls = endOfInput then "end of input" else s!"'{literal}'"

end TokenClass

/-- A token: a class, a text and the place where it starts. -/
structure Token where
  /-- The class of the token. -/
  cls : TokenClass
  /-- The text of the token, symbols in lower case. -/
  literal : String
  /-- The place where the token starts. -/
  mark : Mark
  deriving DecidableEq, Repr

namespace Token

/-- How the token is shown in a message. -/
def display (token : Token) : String := token.cls.display token.literal

end Token

end MazeRobot
