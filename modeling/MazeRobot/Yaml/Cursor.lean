/-! # Places in a YAML text

Reading a YAML text goes from left to right; indentation and the place of line breaks carry meaning,
so every character is read together with its place.

* `Place`: a line and a column, counted from zero.
* `Cursor`: a place with the characters that follow it.
* `Cursor.skipGap`: past blanks, line breaks and comments. -/

namespace MazeRobot.Yaml

/-- Whether a character is a line break. -/
def isBreak (c : Char) : Bool :=
  c = '\n' || c = '\r' || c = '\u0085' || c = '\u2028' || c = '\u2029'

/-- The characters that have a meaning of their own wherever a value starts. -/
def indicators : List Char :=
  [',', '[', ']', '\x7b', '\x7d', '#', '&', '*', '!', '|', '>', '\'', '"', '%', '@', '\x60']

/-- Whether a character is a blank inside a line. -/
def isGap (c : Char) : Bool := c = ' ' || c = '\t'

/-- Whether the characters end a word: a blank, a line break or nothing. -/
def endsWord : List Char → Bool
  | [] => true
  | c :: _ => isGap c || isBreak c

/-- Whether the characters end a line: a line break or nothing. -/
def endsLine : List Char → Bool
  | [] => true
  | c :: _ => isBreak c

/-- What a line break stands for in a scalar: a line feed, except that the Unicode line and
paragraph separators stand for themselves. -/
def breakValue (c : Char) : Char := if c = '\u2028' || c = '\u2029' then c else '\n'

/-- The byte order mark. -/
def byteOrderMark : Char := '\ufeff'

/-- A place of a text. -/
structure Place where
  /-- The number of characters before the place. -/
  index : Nat
  /-- The number of line breaks before the place. -/
  line : Nat
  /-- The number of characters between the last line break and the place. -/
  column : Nat
  deriving DecidableEq, Repr

namespace Place

/-- The start of a text. -/
def start : Place := ⟨0, 0, 0⟩

/-- The place some characters further on the same line. -/
def right (p : Place) (n : Nat) : Place := ⟨p.index + n, p.line, p.column + n⟩

/-- The start of the next line, after a line break of some characters. -/
def down (p : Place) (n : Nat) : Place := ⟨p.index + n, p.line + 1, 0⟩

end Place

/-- A place with the characters that follow it. -/
structure Cursor where
  /-- The place. -/
  place : Place
  /-- The characters from the place on. -/
  rest : List Char
  deriving DecidableEq, Repr

namespace Cursor

/-- The start of a text; one byte order mark at the very start is no part of it. -/
def ofChars (cs : List Char) : Cursor :=
  match cs with
  | c :: rest => if c = byteOrderMark then ⟨.start, rest⟩ else ⟨.start, cs⟩
  | [] => ⟨.start, []⟩

/-- The cursor some characters further on the same line. -/
def skip (cursor : Cursor) (n : Nat) : Cursor := ⟨cursor.place.right n, cursor.rest.drop n⟩

/-- The cursor after the characters that satisfy a test, none of which is a line break. -/
def skipWhile (cursor : Cursor) (test : Char → Bool) : Cursor :=
  cursor.skip (cursor.rest.takeWhile test).length

/-- The cursor after the line break that follows, if one does. -/
def skipBreak (cursor : Cursor) : Cursor :=
  match cursor.rest with
  | '\r' :: '\n' :: rest => ⟨cursor.place.down 2, rest⟩
  | c :: rest => if isBreak c then ⟨cursor.place.down 1, rest⟩ else cursor
  | [] => cursor

/-- The column of the cursor. -/
def column (cursor : Cursor) : Nat := cursor.place.column

/-- Whether the cursor stands at the start of a line before a document marker, which is three times
the given character. -/
def atMarker (c : Char) (cursor : Cursor) : Bool :=
  cursor.column == 0 && cursor.rest.take 3 == [c, c, c] && endsWord (cursor.rest.drop 3)

/-- Whether the cursor stands before a marker that starts or ends a document. -/
def atDocumentMarker (cursor : Cursor) : Bool := cursor.atMarker '-' || cursor.atMarker '.'

end Cursor

/-- Where in a gap between two tokens a reader is. -/
inductive GapPart where
  /-- Among blanks and line breaks. -/
  | blank
  /-- Inside a comment. -/
  | comment
  /-- Between two comments with nothing but blanks and line breaks between them. -/
  | between
  deriving DecidableEq, Repr

/-- How far behind the end of a comment the next one is looked for. -/
def commentReach : Nat := 512

/-- Whether a comment starts among the first characters, after blanks and line breaks only. -/
def leadsToComment : Nat → List Char → Bool
  | 0, _ => false
  | _, [] => false
  | reach + 1, c :: rest =>
    c = '#' || ((isGap c || c = '\n' || c = '\r') && leadsToComment reach rest)

/-- The part of a gap after a line break, which takes `width` characters and has `rest` behind it.
Further comments belong to the one that the break ends. -/
def GapPart.afterBreak (part : GapPart) (c : Char) (width : Nat) (rest : List Char) : GapPart :=
  match part with
  | blank => blank
  | comment =>
    if (c = '\n' || c = '\r') && leadsToComment (commentReach - width) rest then between else blank
  | between => between

/-- Past blanks, line breaks and comments. Outside brackets a line break allows a key to start; a
tab counts as a blank only inside brackets, where no key may start and between two comments. Where
`marked` is set the first character of every line is passed over. The answer tells whether a key may
start. -/
def skipGapFrom (marked inFlow keyAllowed : Bool) (part : GapPart) (p : Place) :
    List Char → Bool × Cursor
  | [] => (keyAllowed, ⟨p, []⟩)
  | '\r' :: '\n' :: rest =>
    if marked && part = .blank && p.column = 0 then
      skipGapFrom marked inFlow keyAllowed part (p.right 1) ('\n' :: rest)
    else
      let part := part.afterBreak '\r' 2 rest
      skipGapFrom marked inFlow (keyAllowed || !inFlow) part (p.down 2) rest
  | c :: rest =>
    if marked && part = .blank && p.column = 0 then
      skipGapFrom marked inFlow keyAllowed part (p.right 1) rest
    else if isBreak c then
      skipGapFrom marked inFlow (keyAllowed || !inFlow) (part.afterBreak c 1 rest) (p.down 1) rest
    else
      match part with
      | .comment => skipGapFrom marked inFlow keyAllowed .comment (p.right 1) rest
      | .between =>
        let part := if c = '#' then .comment else .between
        skipGapFrom marked inFlow keyAllowed part (p.right 1) rest
      | .blank =>
        if c = ' ' || (c = '\t' && (inFlow || !keyAllowed)) then
          skipGapFrom marked inFlow keyAllowed .blank (p.right 1) rest
        else if c = '#' then skipGapFrom marked inFlow keyAllowed .comment (p.right 1) rest
        else (keyAllowed, ⟨p, c :: rest⟩)

/-- Past blanks, line breaks and comments. -/
def Cursor.skipGap (cursor : Cursor) (marked inFlow keyAllowed : Bool) : Bool × Cursor :=
  skipGapFrom marked inFlow keyAllowed .blank cursor.place cursor.rest

/-- Past a comment on the rest of the line, where only blanks stand before it. -/
def Cursor.skipLineComment (cursor : Cursor) : Cursor :=
  let inner := cursor.skipWhile isGap
  match inner.rest with
  | '#' :: _ => inner.skipWhile fun c => !isBreak c
  | _ => cursor

end MazeRobot.Yaml
