import MazeRobot.Yaml.Cursor

/-! # Tokens of a YAML text

The indicators, scalars and properties of a YAML text, with the starts and ends of the collections
that indentation implies.

* `Style`: how a scalar is written.
* `TokenKind`, `Token`: the tokens. -/

namespace MazeRobot.Yaml

/-- How a scalar is written. -/
inductive Style where
  /-- Without quotes. -/
  | plain
  /-- Between quotes, or as a block of lines. -/
  | quoted
  deriving DecidableEq, Repr

/-- What a token is. -/
inductive TokenKind where
  /-- The end of the text. -/
  | streamEnd
  /-- A place that cannot be read. -/
  | broken
  /-- A token of which it cannot be told whether it starts a key, as what follows is broken. -/
  | undecided
  /-- The directive that gives the version. -/
  | versionDirective (major minor : Nat)
  /-- The directive that gives a shorthand for tags. -/
  | tagDirective (handle expansion : String)
  /-- The marker that starts a document. -/
  | documentStart
  /-- The marker that ends a document. -/
  | documentEnd
  /-- The start of a sequence by indentation. -/
  | blockSequenceStart
  /-- The start of a mapping by indentation. -/
  | blockMappingStart
  /-- The end of a collection by indentation. -/
  | blockEnd
  /-- An opening square bracket. -/
  | flowSequenceStart
  /-- A closing square bracket. -/
  | flowSequenceEnd
  /-- An opening brace. -/
  | flowMappingStart
  /-- A closing brace. -/
  | flowMappingEnd
  /-- A dash that starts an item. -/
  | blockEntry
  /-- A comma. -/
  | flowEntry
  /-- The start of a key. -/
  | key
  /-- The start of a value. -/
  | value
  /-- A reference to an anchor. -/
  | reference (name : String)
  /-- The name of a node. -/
  | anchor (name : String)
  /-- The tag of a node. -/
  | tag (handle suffix : String)
  /-- A scalar. -/
  | scalar (text : String) (style : Style)
  deriving DecidableEq, Repr

/-- A token with the line on which it starts and the line on which it ends. -/
structure Token where
  /-- What the token is. -/
  kind : TokenKind
  /-- The line on which it starts. -/
  line : Nat
  /-- The line on which it ends. -/
  endLine : Nat
  deriving DecidableEq, Repr

end MazeRobot.Yaml
