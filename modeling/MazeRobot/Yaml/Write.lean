import MazeRobot.Text.Base64
import MazeRobot.Text.Raw
import MazeRobot.Yaml.Cursor
import MazeRobot.Yaml.Resolve

/-! # Writing YAML scalars

How a text is written so that it reads back as the same text. A text with line breaks becomes a
block of lines; one that would be read as something else goes between double quotes; any other is
written plain where its characters allow it, and between single or double quotes where they do not.

* `Traits`: what in a text limits the ways to write it.
* `writeText`: a text as the value of a key.
* `writeRaw`: the same for texts with bytes that belong to no character. -/

namespace MazeRobot.Yaml

/-- What in a text limits the ways to write it. -/
structure Traits where
  /-- A character with a meaning of its own in plain scalars. -/
  indicator : Bool := false
  /-- A line break. -/
  multiline : Bool := false
  /-- A character that has to be escaped. -/
  special : Bool := false
  /-- A tab. -/
  tab : Bool := false
  /-- A space or a line break at the start or the end. -/
  padded : Bool := false
  /-- A space at the end. -/
  trailingSpace : Bool := false
  /-- A line break before a space. -/
  breakSpace : Bool := false
  /-- A space before a line break. -/
  spaceBreak : Bool := false
  deriving DecidableEq, Repr

/-- Whether a character can be written as it is. -/
def isShown (c : Char) : Bool :=
  let n := c.toNat
  n = 0x0a || (0x20 ≤ n && n ≤ 0x7e) ||
    (0xa0 ≤ n && n ≤ 0xfffd && n ≠ 0xfeff && !(0xd800 ≤ n && n ≤ 0xdfff))

/-- Whether a character that starts a text has a meaning of its own; `next` are those after it. -/
def startsIndicator (c : Char) (next : List Char) : Bool :=
  c ∈ indicators || (c ∈ ['?', ':', '-'] && (next.isEmpty || next.head?.any isGap))

/-- Whether a character inside a text has a meaning of its own; `next` are those after it. -/
def innerIndicator (afterBlank : Bool) (c : Char) (next : List Char) : Bool :=
  (c = ':' && (next.isEmpty || next.head?.any isGap)) || (c = '#' && afterBlank)

/-- The traits of the characters after `previous`, added to those found so far. -/
def traitsFrom (previous : Char) (t : Traits) : List Char → Traits
  | [] => t
  | c :: rest =>
    let t := { t with
      indicator := t.indicator || innerIndicator (isGap previous || isBreak previous) c rest
      multiline := t.multiline || isBreak c
      special := t.special || (c ≠ '\t' && !isShown c)
      tab := t.tab || c = '\t'
      padded := t.padded || (rest.isEmpty && (c = ' ' || isBreak c))
      trailingSpace := t.trailingSpace || (rest.isEmpty && c = ' ')
      breakSpace := t.breakSpace || (isBreak previous && c = ' ')
      spaceBreak := t.spaceBreak || (previous = ' ' && isBreak c) }
    traitsFrom c t rest

/-- The traits of a text. -/
def traits (cs : List Char) : Traits :=
  match cs with
  | [] => {}
  | c :: rest =>
    let marker := cs.take 3 = ['-', '-', '-'] || cs.take 3 = ['.', '.', '.']
    traitsFrom c
      { indicator := marker || startsIndicator c rest
        multiline := isBreak c
        special := c ≠ '\t' && !isShown c
        tab := c = '\t'
        padded := c = ' ' || isBreak c
        trailingSpace := rest.isEmpty && c = ' ' }
      rest

namespace Traits

/-- Whether the text may be written plain. -/
def allowsPlain (t : Traits) : Bool :=
  !(t.indicator || t.multiline || t.special || t.tab || t.padded || t.breakSpace || t.spaceBreak)

/-- Whether the text may be written between single quotes. -/
def allowsSingle (t : Traits) : Bool := !(t.special || t.tab || t.breakSpace || t.spaceBreak)

/-- Whether the text may be written as a block of lines. -/
def allowsBlock (t : Traits) : Bool := !(t.special || t.trailingSpace || t.spaceBreak)

end Traits

/-! ## Styles -/

/-- The last `width` hexadecimal digits of a number, in upper case. -/
def upperHex (width n : Nat) : List Char :=
  match width with
  | 0 => []
  | width + 1 =>
    let d := n % 16
    upperHex width (n / 16) ++ [Char.ofNat (if d < 10 then 0x30 + d else 0x41 + (d - 10))]

/-- A character between double quotes. Where `escaped` is set it is not written as it is. -/
def doubleChar (escaped : Bool) (c : Char) : List Char :=
  let n := c.toNat
  if c = '"' || c = '\\' then ['\\', c]
  else if !escaped && isShown c && !isBreak c then [c]
  else if n = 0x00 then ['\\', '0']
  else if n = 0x07 then ['\\', 'a']
  else if n = 0x08 then ['\\', 'b']
  else if n = 0x09 then ['\\', 't']
  else if n = 0x0a then ['\\', 'n']
  else if n = 0x0b then ['\\', 'v']
  else if n = 0x0c then ['\\', 'f']
  else if n = 0x0d then ['\\', 'r']
  else if n = 0x1b then ['\\', 'e']
  else if n = 0x85 then ['\\', 'N']
  else if n = 0xa0 then ['\\', '_']
  else if n = 0x2028 then ['\\', 'L']
  else if n = 0x2029 then ['\\', 'P']
  else if n ≤ 0xff then '\\' :: 'x' :: upperHex 2 n
  else if n ≤ 0xffff then '\\' :: 'u' :: upperHex 4 n
  else '\\' :: 'U' :: upperHex 8 n

/-- A text between double quotes. In one that starts with a byte order mark no character is written
as it is. -/
def writeDouble (cs : List Char) : List Char :=
  let escaped := cs.head? = some byteOrderMark
  '"' :: (cs.flatMap (doubleChar escaped) ++ ['"'])

/-- The characters of a text between single quotes; after a line break the next line is indented. -/
def singleChars (indent : Nat) (afterBreak : Bool) : List Char → List Char
  | [] => []
  | c :: rest =>
    if isBreak c then c :: singleChars indent true rest
    else
      let body := if c = '\'' then ['\'', '\''] else [c]
      let margin := if afterBreak then List.replicate indent ' ' else []
      margin ++ body ++ singleChars indent false rest

/-- A text between single quotes. -/
def writeSingle (indent : Nat) (cs : List Char) : List Char :=
  '\'' :: (singleChars indent false cs ++ ['\''])

/-- The lines of a block; each line that is not empty is indented. -/
def blockChars (indent : Nat) (lineStart : Bool) : List Char → List Char
  | [] => []
  | c :: rest =>
    if isBreak c then c :: blockChars indent true rest
    else (if lineStart then List.replicate indent ' ' else []) ++ c :: blockChars indent false rest

/-- What follows the sign of a block: the indentation, where the text starts with a blank, and what
happens to line breaks at its end. -/
def blockHints (indent : Nat) (cs : List Char) : List Char :=
  let lead := if cs.head?.any fun c => c = ' ' || isBreak c then (toString indent).toList else []
  let chomp := match cs.reverse with
    | [] => ['-']
    | c :: before =>
      if !isBreak c then ['-']
      else if before.isEmpty || before.head?.any isBreak then ['+']
      else []
  lead ++ chomp

/-- A text as a block of lines, with its own line break at the end. -/
def writeBlock (indent : Nat) (cs : List Char) : List Char :=
  let hints := '|' :: blockHints indent cs
  match cs with
  | c :: _ =>
    if isBreak c then hints ++ blockChars indent true cs
    else hints ++ '\n' :: blockChars indent true cs
  | [] => hints

/-! ## Texts -/

/-- Whether characters are a number of base sixty with colons, which older documents have. -/
def isSexagesimal (cs : List Char) : Bool :=
  let (_, body) := splitSign cs
  match body with
  | c :: rest =>
    let tail := rest.dropWhile fun c => c.isDigit || c = '_'
    c.isDigit && tail.head? = some ':' && groups tail.length tail
  | [] => false
where
  /-- Groups of at most two digits, each after a colon, and a fraction. -/
  groups : Nat → List Char → Bool
    | 0, _ => false
    | bound + 1, cs =>
      match cs with
      | ':' :: rest =>
        let digits := rest.takeWhile Char.isDigit
        let after := rest.drop digits.length
        let fits := match digits with
          | [_] => true
          | [a, _] => a ≤ '5'
          | _ => false
        fits && (after.isEmpty || groups bound after ||
          (after.head? = some '.' && after.tail.all fun c => c.isDigit || c = '_'))
      | _ => false

/-- Whether a plain scalar with these characters would be read as the text itself, also by older
readers. -/
def readsAsText (text : String) : Bool :=
  resolve text = .str text && !isSexagesimal text.toList && (oldBool? text).isNone

/-- A text as the value of a key at the top of a document, after the colon and up to the end of the
line. Further lines are indented by `indent`. -/
def writeText (indent : Nat) (text : String) : String :=
  let cs := text.toList
  let t := traits cs
  let line (cs : List Char) : List Char := ' ' :: (cs ++ ['\n'])
  let closed (cs : List Char) : List Char :=
    if cs.getLast?.any isBreak then cs else cs ++ ['\n']
  String.ofList <|
    if cs.contains '\n' then
      if t.allowsBlock then ' ' :: closed (writeBlock indent cs) else line (writeDouble cs)
    else if readsAsText text then
      if t.allowsPlain then line cs
      else if t.allowsSingle then line (writeSingle indent cs)
      else line (writeDouble cs)
    else line (writeDouble cs)

/-- The number of characters on a line of base 64. -/
def base64Width : Nat := 70

/-- Characters in lines of the given width, each with its line break. -/
def wrapped (width : Nat) (cs : List Char) : List Char := go width cs
where
  /-- The lines from a place on, with room for `room` more characters on the current one. -/
  go : Nat → List Char → List Char
    | _, [] => ['\n']
    | 0, c :: rest => '\n' :: c :: go (width - 1) rest
    | room + 1, c :: rest => c :: go room rest

/-- A raw text as the value of a key at the top of a document. One with bytes that belong to no
character is written in base 64, over several lines where one is too short. -/
def writeRaw (indent : Nat) (text : RawText) : String :=
  if text.hasStray then
    let cs := Text.encodeBase64 text.bytes
    " !!binary " ++ String.ofList
      (if cs.length < base64Width then cs ++ ['\n']
        else writeBlock indent (wrapped base64Width cs))
  else writeText indent text.shown

end MazeRobot.Yaml
