import MazeRobot.Yaml.Token

/-! # Reading scalars

The three ways to write a scalar: plain, between quotes, and as a block of lines. In the first two,
blanks inside a line stand for themselves, one line break stands for a space, and further ones stand
for themselves; blanks around line breaks do not count. Every reader answers with the characters of
the scalar and the place after it, or with nothing where the text is malformed.

* `Gap`: the blanks and line breaks since the last character of a scalar.
* `plainScalar`, `singleQuoted`, `doubleQuoted`, `blockScalar`: the readers. -/

namespace MazeRobot.Yaml

/-- The blanks and line breaks since the last character of a scalar. -/
inductive Gap where
  /-- Blanks inside a line, newest first. -/
  | blanks (chars : List Char)
  /-- Line breaks: the first, if it counts, and the further ones, newest first. -/
  | breaks (first : Option Char) (more : List Char)
  deriving DecidableEq, Repr

namespace Gap

/-- No blank so far. -/
def none : Gap := blanks []

/-- The gap with one more blank, which counts only inside a line. -/
def addBlank (c : Char) : Gap → Gap
  | blanks chars => blanks (c :: chars)
  | breaks first more => breaks first more

/-- The gap with one more line break. -/
def addBreak (c : Char) : Gap → Gap
  | blanks _ => breaks (some (breakValue c)) []
  | breaks first more => breaks first (breakValue c :: more)

/-- Whether the gap holds a line break. -/
def broken : Gap → Bool
  | blanks _ => false
  | breaks _ _ => true

/-- What a first line break and further ones stand for, the further ones newest first. -/
def folded (first : Option Char) (more : List Char) : List Char :=
  match first with
  | some '\n' => if more.isEmpty then [' '] else more.reverse
  | some c => c :: more.reverse
  | Option.none => more.reverse

/-- What the gap stands for inside a scalar. -/
def chars : Gap → List Char
  | blanks chars => chars.reverse
  | breaks first more => folded first more

/-- The characters read so far, newest first, after the gap has been added to them. -/
def onto (gap : Gap) (text : List Char) : List Char := gap.chars.reverse ++ text

end Gap

/-- A scalar that has been read. -/
structure Scalar where
  /-- The text of the scalar. -/
  text : String
  /-- The cursor after the scalar. -/
  after : Cursor
  /-- Whether the scalar was followed by a line break that has been read with it. -/
  brokenOff : Bool
  deriving DecidableEq, Repr

/-- The scalar with the given characters, newest first. -/
def Scalar.ofReversed (text : List Char) (after : Cursor) (brokenOff : Bool) : Scalar :=
  ⟨String.ofList text.reverse, after, brokenOff⟩

/-! ## Plain scalars -/

/-- Whether a character ends a plain scalar inside brackets. -/
def isFlowIndicator (c : Char) : Bool :=
  c = ',' || c = '?' || c = '[' || c = ']' || c = '\x7b' || c = '\x7d'

/-- Reads a plain scalar. Outside brackets its further lines are indented by at least `indent`;
`gap` is what was read since its last character, and `text` its characters, newest first. -/
def plainFrom (inFlow : Bool) (indent : Nat) (gap : Gap) (text : List Char) (p : Place) :
    List Char → Option Scalar
  | [] => some (.ofReversed text ⟨p, []⟩ gap.broken)
  | '\r' :: '\n' :: rest => plainFrom inFlow indent (gap.addBreak '\n') text (p.down 2) rest
  | c :: rest =>
    if isBreak c then plainFrom inFlow indent (gap.addBreak c) text (p.down 1) rest
    else if isGap c then
      if gap.broken && p.column < indent && c = '\t' then Option.none
      else plainFrom inFlow indent (gap.addBlank c) text (p.right 1) rest
    else
      let here : Cursor := ⟨p, c :: rest⟩
      let fresh := gap ≠ .none
      if (fresh && (here.atDocumentMarker || c = '#')) ||
          (gap.broken && !inFlow && p.column < indent) ||
          (c = ':' && endsWord rest) || (inFlow && isFlowIndicator c) then
        some (.ofReversed text here gap.broken)
      else plainFrom inFlow indent .none (c :: gap.onto text) (p.right 1) rest

/-- Reads a plain scalar. -/
def plainScalar (inFlow : Bool) (indent : Nat) (cursor : Cursor) : Option Scalar :=
  plainFrom inFlow indent .none [] cursor.place cursor.rest

/-! ## Quoted scalars -/

/-- Reads a scalar after its opening single quote; a quote inside is written twice. -/
def singleFrom (gap : Gap) (text : List Char) (p : Place) : List Char → Option Scalar
  | [] => Option.none
  | '\r' :: '\n' :: rest => singleFrom (gap.addBreak '\n') text (p.down 2) rest
  | '\'' :: '\'' :: rest =>
    singleFrom .none ('\'' :: gap.onto text) (p.right 2) rest
  | c :: rest =>
    if isBreak c then singleFrom (gap.addBreak c) text (p.down 1) rest
    else if isGap c then singleFrom (gap.addBlank c) text (p.right 1) rest
    else if Cursor.atDocumentMarker ⟨p, c :: rest⟩ then Option.none
    else if c = '\'' then some (.ofReversed (gap.onto text) ⟨p.right 1, rest⟩ false)
    else singleFrom .none (c :: gap.onto text) (p.right 1) rest

/-- Reads a scalar at its opening single quote. -/
def singleQuoted (cursor : Cursor) : Option Scalar :=
  let inner := cursor.skip 1
  singleFrom .none [] inner.place inner.rest

/-- The character that an escape of one letter stands for. -/
def escapeValue? (c : Char) : Option Char :=
  match c with
  | '0' => some '\x00'
  | 'a' => some '\x07'
  | 'b' => some '\x08'
  | 't' | '\t' => some '\t'
  | 'n' => some '\n'
  | 'v' => some '\x0b'
  | 'f' => some '\x0c'
  | 'r' => some '\r'
  | 'e' => some '\x1b'
  | ' ' => some ' '
  | '"' => some '"'
  | '\'' => some '\''
  | '\\' => some '\\'
  | 'N' => some '\u0085'
  | '_' => some '\u00a0'
  | 'L' => some '\u2028'
  | 'P' => some '\u2029'
  | _ => Option.none

/-- The number of hexadecimal digits that follow the letter of an escape. -/
def escapeWidth? (c : Char) : Option Nat :=
  match c with
  | 'x' => some 2
  | 'u' => some 4
  | 'U' => some 8
  | _ => Option.none

/-- The value of a hexadecimal digit. -/
def hexValue? (c : Char) : Option Nat :=
  let n := c.toNat
  if 0x30 ≤ n && n ≤ 0x39 then some (n - 0x30)
  else if 0x41 ≤ n && n ≤ 0x46 then some (n - 0x41 + 10)
  else if 0x61 ≤ n && n ≤ 0x66 then some (n - 0x61 + 10)
  else Option.none

/-- The character with the given code point. -/
def charOfCode? (code : Nat) : Option Char :=
  if (0xd800 ≤ code && code ≤ 0xdfff) || 0x10ffff < code then Option.none
  else some (Char.ofNat code)

/-- What is expected next inside double quotes. -/
inductive Expecting where
  /-- Any character. -/
  | anything
  /-- The letter of an escape. -/
  | escape
  /-- The given number of further hexadecimal digits, after digits of the given value. -/
  | digits (count value : Nat)
  deriving DecidableEq, Repr

/-- Reads a scalar after its opening double quote. A backslash before a line break removes it. -/
def doubleFrom (expecting : Expecting) (gap : Gap) (text : List Char) (p : Place) :
    List Char → Option Scalar
  | [] => Option.none
  | '\r' :: '\n' :: rest =>
    match expecting with
    | .anything => doubleFrom .anything (gap.addBreak '\n') text (p.down 2) rest
    | .escape => doubleFrom .anything (.breaks Option.none []) text (p.down 2) rest
    | .digits _ _ => Option.none
  | c :: rest =>
    match expecting with
    | .digits count value =>
      match hexValue? c with
      | Option.none => Option.none
      | some digit =>
        let value := value * 16 + digit
        if count ≤ 1 then
          match charOfCode? value with
          | Option.none => Option.none
          | some c => doubleFrom .anything .none (c :: text) (p.right 1) rest
        else doubleFrom (.digits (count - 1) value) .none text (p.right 1) rest
    | .escape =>
      if isBreak c then doubleFrom .anything (.breaks Option.none []) text (p.down 1) rest
      else
        match escapeValue? c, escapeWidth? c with
        | some value, _ => doubleFrom .anything .none (value :: text) (p.right 1) rest
        | Option.none, some width => doubleFrom (.digits width 0) .none text (p.right 1) rest
        | Option.none, Option.none => Option.none
    | .anything =>
      if isBreak c then doubleFrom .anything (gap.addBreak c) text (p.down 1) rest
      else if isGap c then doubleFrom .anything (gap.addBlank c) text (p.right 1) rest
      else if Cursor.atDocumentMarker ⟨p, c :: rest⟩ then Option.none
      else if c = '"' then some (.ofReversed (gap.onto text) ⟨p.right 1, rest⟩ false)
      else if c = '\\' then doubleFrom .escape .none (gap.onto text) (p.right 1) rest
      else doubleFrom .anything .none (c :: gap.onto text) (p.right 1) rest

/-- Reads a scalar at its opening double quote. -/
def doubleQuoted (cursor : Cursor) : Option Scalar :=
  let inner := cursor.skip 1
  doubleFrom .anything .none [] inner.place inner.rest

/-! ## Block scalars -/

/-- What happens to the line breaks at the end of a block. -/
inductive Chomping where
  /-- All are dropped. -/
  | strip
  /-- The first is kept. -/
  | clip
  /-- All are kept. -/
  | keep
  deriving DecidableEq, Repr

/-- The lines before the first text of a block: their breaks, newest first, and the greatest column
reached. A tab cannot indent. -/
def blockLead (deepest : Nat) (breaks : List Char) (p : Place) :
    List Char → Option (Nat × List Char × Cursor)
  | [] => some (max deepest p.column, breaks, ⟨p, []⟩)
  | '\r' :: '\n' :: rest => blockLead (max deepest p.column) ('\n' :: breaks) (p.down 2) rest
  | c :: rest =>
    if c = ' ' then blockLead deepest breaks (p.right 1) rest
    else if c = '\t' then Option.none
    else if isBreak c then
      blockLead (max deepest p.column) (breakValue c :: breaks) (p.down 1) rest
    else some (max deepest p.column, breaks, ⟨p, c :: rest⟩)

/-- The state of reading a block of lines. -/
structure BlockState where
  /-- Whether the text of a line is being read, rather than its indentation. -/
  inLine : Bool
  /-- Whether the last line of text started with a blank. -/
  afterBlank : Bool
  /-- The break at the end of the last line of text. -/
  first : Option Char
  /-- The further line breaks, newest first. -/
  more : List Char
  /-- The characters so far, newest first. -/
  text : List Char
  deriving DecidableEq, Repr

namespace BlockState

/-- The state after a line break. -/
def addBreak (c : Char) (s : BlockState) : BlockState :=
  if s.inLine then { s with inLine := false, first := some (breakValue c), more := [] }
  else { s with more := breakValue c :: s.more }

/-- The state after the first character of a line of text. In a folded block the break before it
becomes a space or vanishes, unless a line at either side starts with a blank. -/
def startLine (folded : Bool) (c : Char) (s : BlockState) : BlockState :=
  let lead := match s.first with
    | some '\n' =>
      if folded && !s.afterBlank && !isGap c then (if s.more.isEmpty then [' '] else []) else ['\n']
    | some other => [other]
    | Option.none => []
  { s with
    inLine := true
    afterBlank := isGap c
    first := Option.none
    more := []
    text := c :: (s.more ++ lead.reverse ++ s.text) }

/-- The text of a finished block. -/
def finish (chomping : Chomping) (s : BlockState) : List Char :=
  match chomping with
  | .strip => s.text
  | .clip => s.first.toList ++ s.text
  | .keep => s.more ++ s.first.toList ++ s.text

end BlockState

/-- Reads the lines of a block that are indented by at least `indent`. -/
def blockLines (folded : Bool) (indent : Nat) (s : BlockState) (p : Place) :
    List Char → Option (BlockState × Cursor)
  | [] => some (s, ⟨p, []⟩)
  | '\r' :: '\n' :: rest => blockLines folded indent (s.addBreak '\n') (p.down 2) rest
  | c :: rest =>
    if isBreak c then blockLines folded indent (s.addBreak c) (p.down 1) rest
    else if s.inLine then
      blockLines folded indent { s with text := c :: s.text } (p.right 1) rest
    else if p.column < indent then
      if c = ' ' then blockLines folded indent s (p.right 1) rest
      else if c = '\t' then Option.none
      else some (s, ⟨p, c :: rest⟩)
    else blockLines folded indent (s.startLine folded c) (p.right 1) rest

/-- The chomping that a character asks for. -/
def chomping? (c : Char) : Option Chomping :=
  if c = '+' then some .keep else if c = '-' then some .strip else Option.none

/-- The indentation that a digit asks for. -/
def increment? (c : Char) : Option Nat :=
  if '1' ≤ c && c ≤ '9' then some (c.toNat - '0'.toNat) else Option.none

/-- The chomping and the indentation that stand after a block indicator, in either order, and how
many characters they take. -/
def blockHeader : List Char → Option (Chomping × Option Nat × Nat)
  | c :: d :: _ =>
    match chomping? c, increment? c with
    | some chomping, _ =>
      match increment? d with
      | some n => some (chomping, some n, 2)
      | Option.none => if d = '0' then Option.none else some (chomping, Option.none, 1)
    | Option.none, some n =>
      match chomping? d with
      | some chomping => some (chomping, some n, 2)
      | Option.none => some (.clip, some n, 1)
    | Option.none, Option.none => if c = '0' then Option.none else some (.clip, Option.none, 0)
  | [c] =>
    match chomping? c, increment? c with
    | some chomping, _ => some (chomping, Option.none, 1)
    | Option.none, some n => some (.clip, some n, 1)
    | Option.none, Option.none => if c = '0' then Option.none else some (.clip, Option.none, 0)
  | [] => some (.clip, Option.none, 0)

/-- Reads a block scalar at its indicator. `parent` is the indentation of the collection around it,
below zero where there is none. -/
def blockScalar (folded : Bool) (parent : Int) (cursor : Cursor) : Option Scalar := do
  let inner := cursor.skip 1
  let (chomping, increment, width) ← blockHeader inner.rest
  let line := (inner.skip width).skipWhile isGap
  let line := if line.rest.head? = some '#' then line.skipWhile (fun c => !isBreak c) else line
  guard (endsLine line.rest)
  let body := line.skipBreak
  let (indent, more, body) ← match increment with
    | some n => some ((if 0 ≤ parent then parent.toNat + n else n), [], body)
    | Option.none => do
      let (deepest, breaks, body) ← blockLead 0 [] body.place body.rest
      pure (max (max deepest (parent + 1).toNat) 1, breaks, body)
  let s : BlockState := ⟨false, false, Option.none, more, []⟩
  let (s, after) ← blockLines folded indent s body.place body.rest
  return .ofReversed (s.finish chomping) after true

end MazeRobot.Yaml
