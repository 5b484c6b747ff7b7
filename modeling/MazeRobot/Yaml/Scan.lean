import MazeRobot.Text.Utf8
import MazeRobot.Yaml.Scalar

/-! # Scanning a YAML text

From the characters of a YAML text to its tokens. Indentation opens and closes collections, and what
looks like a scalar turns out to be a key when a colon follows it on the same line; the scanner
keeps track of both.

* `SimpleKey`: a token that may still turn out to be a key.
* `Scanner`: the state between two tokens.
* `Scanner.fetch`: the next token.
* `tokens`: all tokens of a text. Where it cannot be read they end with a broken one. -/

namespace MazeRobot.Yaml

/-- A token that may still turn out to be the key of a mapping. -/
structure SimpleKey where
  /-- Whether it must turn out to be one, as it stands where a key is due. -/
  required : Bool
  /-- The number of tokens before it. -/
  token : Nat
  /-- The place where it starts. -/
  place : Place
  deriving DecidableEq, Repr

/-- The state of scanning between two tokens. -/
structure Scanner where
  /-- The text still to be read. -/
  cursor : Cursor
  /-- The tokens so far. -/
  tokens : Array Token := #[]
  /-- The column of the innermost collection by indentation, `-1` where there is none. -/
  indent : Int := -1
  /-- The columns of the collections around it, innermost first. -/
  indents : List Int := []
  /-- What may turn out to be a key, at each level of brackets, innermost first. -/
  keys : List (Option SimpleKey) := [none]
  /-- Whether a key may start here. -/
  keyAllowed : Bool := true
  /-- Whether the text starts with a second byte order mark. It is not taken off, and as long as it
  is there the first character of every line is taken for one. -/
  marked : Bool := false
  deriving Repr

namespace Scanner

/-- Whether the scanner is inside brackets. -/
def inFlow (s : Scanner) : Bool := 1 < s.keys.length

/-- The scanner with one more token, which starts and ends at the given places. -/
def emit (s : Scanner) (kind : TokenKind) (start stop : Place) : Scanner :=
  { s with tokens := s.tokens.push ⟨kind, start.line, stop.line⟩ }

/-- The scanner with one more token of some characters, which are skipped. -/
def emitSkipping (s : Scanner) (kind : TokenKind) (n : Nat) : Scanner :=
  let after := s.cursor.skip n
  { s.emit kind s.cursor.place after.place with cursor := after }

/-! ## Indentation -/

/-- Ends the collections that are indented further than a column. -/
def unrollFrom (column : Int) (line : Nat) (tokens : Array Token) (indent : Int) :
    List Int → Array Token × Int × List Int
  | [] => (tokens, indent, [])
  | outer :: more =>
    if column < indent then unrollFrom column line (tokens.push ⟨.blockEnd, line, line⟩) outer more
    else (tokens, indent, outer :: more)

/-- Ends the collections that are indented further than a column; inside brackets nothing ends. -/
def unroll (s : Scanner) (column : Int) : Scanner :=
  if s.inFlow then s
  else
    let (tokens, indent, indents) :=
      unrollFrom column s.cursor.place.line s.tokens s.indent s.indents
    { s with tokens, indent, indents }

/-- Starts a collection at a column, if it is indented further than the innermost one. Its first
token goes before the given number of tokens, or to the end. -/
def roll (s : Scanner) (column : Nat) (before : Option Nat) (kind : TokenKind) (place : Place) :
    Scanner :=
  if s.inFlow || (column : Int) ≤ s.indent then s
  else
    let token : Token := ⟨kind, place.line, place.line⟩
    { s with
      tokens := s.tokens.insertIdxIfInBounds (before.getD s.tokens.size) token
      indent := column
      indents := s.indent :: s.indents }

/-! ## Keys -/

/-- Gives up what may turn out to be a key, unless it must. -/
def removeKey (s : Scanner) : Option Scanner :=
  match s.keys with
  | some key :: outer => if key.required then none else some { s with keys := none :: outer }
  | _ => some s

/-- Remembers the token that starts here as one that may turn out to be a key. -/
def saveKey (s : Scanner) : Option Scanner :=
  if s.keyAllowed then do
    let s ← s.removeKey
    let required := !s.inFlow && s.indent == (s.cursor.column : Int)
    return { s with keys := some ⟨required, s.tokens.size, s.cursor.place⟩ :: s.keys.tail }
  else some s

/-- Whether a key is still near enough for its colon: on the same line and within 1024
characters. -/
def keyInReach (s : Scanner) (key : SimpleKey) : Bool :=
  key.place.line == s.cursor.place.line && s.cursor.place.index ≤ key.place.index + 1024

/-! ## Directives, anchors and tags -/

/-- Whether a character can stand in the name of an anchor or a directive. -/
def isWordChar (c : Char) : Bool := c.isAlphanum || c = '_' || c = '-'

/-- Whether a character can stand in a tag. -/
def isTagChar (c : Char) : Bool :=
  isWordChar c || c ∈ [';', '/', '?', ':', '@', '&', '=', '+', '$', ',', '.', '!', '~', '*', '\'',
    '(', ')', '[', ']']

/-- The number of bytes of the character that starts with the given byte, as its first bits tell. -/
def octetWidth? (octet : Nat) : Option Nat :=
  if octet < 0x80 then some 1
  else if octet < 0xc0 then none
  else if octet < 0xe0 then some 2
  else if octet < 0xf0 then some 3
  else if octet < 0xf8 then some 4
  else none

/-- Reads the characters of a tag. A byte may be written as a percent sign and two hexadecimal
digits, and then all bytes of its character are. `due` is the number of bytes that still belong to
such a character, and `bytes` are those read so far, newest first. The answer has the bytes of the
tag and what follows it. -/
def tagFrom (due : Nat) (bytes : List UInt8) : List Char → Option (List UInt8 × List Char)
  | '%' :: a :: b :: rest => do
    let high ← hexValue? a
    let low ← hexValue? b
    let octet := high * 16 + low
    match due with
    | 0 =>
      let width ← octetWidth? octet
      tagFrom (width - 1) (UInt8.ofNat octet :: bytes) rest
    | due + 1 =>
      guard (0x80 ≤ octet && octet < 0xc0)
      tagFrom due (UInt8.ofNat octet :: bytes) rest
  | c :: rest =>
    if due = 0 && isTagChar c then tagFrom 0 (UInt8.ofNat c.toNat :: bytes) rest
    else if due = 0 && c ≠ '%' then some (bytes.reverse, c :: rest)
    else none
  | [] => if due = 0 then some (bytes.reverse, []) else none

/-- Reads the characters of a tag, and gives the cursor after it. -/
def tagText (cursor : Cursor) : Option (String × Cursor) := do
  let (bytes, rest) ← tagFrom 0 [] cursor.rest
  return (Text.readable bytes, cursor.skip (cursor.rest.length - rest.length))

/-- The number at the start of some characters, and how many of them it takes. -/
def versionNumber (cs : List Char) : Option (Nat × Nat) :=
  let digits := cs.takeWhile Char.isDigit
  if digits.isEmpty || 2 < digits.length then none
  else some (digits.foldl (fun n c => n * 10 + (c.toNat - '0'.toNat)) 0, digits.length)

/-- The handle of a tag and how many characters it takes: an exclamation mark, or a word between two
of them. -/
def tagHandle (cs : List Char) : List Char :=
  match cs with
  | '!' :: rest =>
    let word := rest.takeWhile isWordChar
    match rest.drop word.length with
    | '!' :: _ => '!' :: (word ++ ['!'])
    | _ => '!' :: word
  | _ => []

/-- Reads a directive at its percent sign, up to the end of its line. -/
def fetchDirective (s : Scanner) : Option Scanner := do
  let s ← (s.unroll (-1)).removeKey
  let start := s.cursor
  let name := (start.rest.drop 1).takeWhile isWordChar
  let body := start.skip (1 + name.length)
  guard (!name.isEmpty && endsWord body.rest)
  let argument := body.skipWhile isGap
  let (kind, after) ← (match String.ofList name with
    | "YAML" => do
      let (major, width) ← versionNumber argument.rest
      let point := argument.skip width
      guard (point.rest.head? == some '.')
      let (minor, width) ← versionNumber (point.rest.drop 1)
      pure (TokenKind.versionDirective major minor, point.skip (1 + width))
    | "TAG" => do
      let handle := tagHandle argument.rest
      guard (handle.getLast? == some '!')
      let gap := argument.skip handle.length
      guard (gap.rest.head?.any isGap)
      let target := gap.skipWhile isGap
      let (expansion, after) ← tagText target
      guard (!expansion.isEmpty && endsWord after.rest)
      pure (TokenKind.tagDirective (String.ofList handle) expansion, after)
    | _ => none)
  let line := after.skipWhile isGap
  let line := if line.rest.head? = some '#' then line.skipWhile (fun c => !isBreak c) else line
  guard (endsLine line.rest)
  return { s.emit kind start.place after.place with cursor := line.skipBreak, keyAllowed := false }

/-- Reads an anchor or a reference to one, at its sign. -/
def fetchAnchor (s : Scanner) (kind : String → TokenKind) : Option Scanner := do
  let s ← s.saveKey
  let name := (s.cursor.rest.drop 1).takeWhile isWordChar
  let after := s.cursor.skip (1 + name.length)
  guard (!name.isEmpty && (endsWord after.rest ||
    after.rest.head?.any fun c => c ∈ ['?', ':', ',', ']', '\x7d', '%', '@', '\x60']))
  let s := s.emit (kind (String.ofList name)) s.cursor.place after.place
  return { s with cursor := after, keyAllowed := false }

/-- The handle and the suffix of a tag at its exclamation mark, and the cursor after it. -/
def readTag (cursor : Cursor) : Option (String × String × Cursor) :=
  match cursor.rest with
  | _ :: '<' :: _ => do
    let (suffix, after) ← tagText (cursor.skip 2)
    guard (!suffix.isEmpty && after.rest.head? == some '>')
    return ("", suffix, after.skip 1)
  | cs => do
    let handle := tagHandle cs
    if 1 < handle.length && handle.getLast? == some '!' then
      let (suffix, after) ← tagText (cursor.skip handle.length)
      guard (!suffix.isEmpty)
      return (String.ofList handle, suffix, after)
    else
      let (suffix, after) ← tagText (cursor.skip 1)
      if suffix.isEmpty then return ("", "!", after)
      else return ("!", suffix, after)

/-- Reads a tag at its exclamation mark. -/
def fetchTag (s : Scanner) : Option Scanner := do
  let s ← s.saveKey
  let (handle, suffix, after) ← readTag s.cursor
  guard (endsWord after.rest)
  let s := s.emit (.tag handle suffix) s.cursor.place after.place
  return { s with cursor := after, keyAllowed := false }

/-! ## Indicators -/

/-- The end of the text. -/
def fetchStreamEnd (s : Scanner) : Option Scanner := do
  let s ← (s.unroll (-1)).removeKey
  return { s.emit .streamEnd s.cursor.place s.cursor.place with keyAllowed := false }

/-- The marker of the start or the end of a document. -/
def fetchMarker (s : Scanner) (kind : TokenKind) : Option Scanner := do
  let s ← (s.unroll (-1)).removeKey
  return { s.emitSkipping kind 3 with keyAllowed := false }

/-- An opening bracket. -/
def fetchFlowStart (s : Scanner) (kind : TokenKind) : Option Scanner := do
  let s ← s.saveKey
  return { s.emitSkipping kind 1 with keys := none :: s.keys, keyAllowed := true }

/-- A closing bracket. -/
def fetchFlowEnd (s : Scanner) (kind : TokenKind) : Option Scanner := do
  let s ← s.removeKey
  let keys := if s.inFlow then s.keys.tail else s.keys
  return { s.emitSkipping kind 1 with keys, keyAllowed := false }

/-- A comma. -/
def fetchFlowEntry (s : Scanner) : Option Scanner := do
  let s ← s.removeKey
  return { s.emitSkipping .flowEntry 1 with keyAllowed := true }

/-- A dash that starts an item. -/
def fetchBlockEntry (s : Scanner) : Option Scanner := do
  guard (s.inFlow || s.keyAllowed)
  let s := s.roll s.cursor.column none .blockSequenceStart s.cursor.place
  let s ← s.removeKey
  return { s.emitSkipping .blockEntry 1 with keyAllowed := true }

/-- A question mark that starts a key. -/
def fetchKey (s : Scanner) : Option Scanner := do
  guard (s.inFlow || s.keyAllowed)
  let s := s.roll s.cursor.column none .blockMappingStart s.cursor.place
  let s ← s.removeKey
  return { s.emitSkipping .key 1 with keyAllowed := !s.inFlow }

/-- A colon that starts a value. The token that may turn out to be a key now does, if it is in
reach; else the value belongs to a key that was marked as one, or to none. -/
def fetchValue (s : Scanner) : Option Scanner :=
  let unmarked : Option Scanner := do
    guard (s.inFlow || s.keyAllowed)
    let s := s.roll s.cursor.column none .blockMappingStart s.cursor.place
    return { s.emitSkipping .value 1 with keyAllowed := !s.inFlow }
  match s.keys with
  | some key :: outer =>
    if s.keyInReach key then
      let token : Token := ⟨.key, key.place.line, key.place.line⟩
      let s := { s with
        tokens := s.tokens.insertIdxIfInBounds key.token token
        keys := none :: outer }
      let s := s.roll key.place.column (some key.token) .blockMappingStart key.place
      some { s.emitSkipping .value 1 with keyAllowed := false }
    else if key.required then none
    else unmarked.map fun s => { s with keys := none :: outer }
  | _ => unmarked

/-! ## Scalars -/

/-- Past a comment on the rest of the line. -/
def skipComment (s : Scanner) : Scanner := { s with cursor := s.cursor.skipLineComment }

/-- The scanner after a scalar. -/
def emitScalar (s : Scanner) (scalar : Scalar) (style : Style) (keyAllowed : Bool) : Scanner :=
  { s.emit (.scalar scalar.text style) s.cursor.place scalar.after.place with
    cursor := scalar.after
    keyAllowed }

/-- A block scalar. -/
def fetchBlockScalar (s : Scanner) (folded : Bool) : Option Scanner := do
  let s ← s.removeKey
  let scalar ← blockScalar folded s.indent s.cursor
  return s.emitScalar scalar .quoted true

/-- A scalar between quotes. -/
def fetchQuoted (s : Scanner) (read : Cursor → Option Scalar) : Option Scanner := do
  let s ← s.saveKey
  let scalar ← read s.cursor
  return (s.emitScalar scalar .quoted false).skipComment

/-- A plain scalar. -/
def fetchPlain (s : Scanner) : Option Scanner := do
  let s ← s.saveKey
  let scalar ← plainScalar s.inFlow (s.indent + 1).toNat s.cursor
  let s := s.emitScalar scalar .plain scalar.brokenOff
  return if scalar.brokenOff then s else s.skipComment

/-! ## Tokens -/

/-- Whether a plain scalar can start with the given characters. -/
def startsPlain (inFlow : Bool) (c : Char) (rest : List Char) : Bool :=
  if isGap c then false
  else if c = '-' then !rest.head?.any isGap
  else if c = '?' || c = ':' then !inFlow && !endsWord rest
  else c ∉ indicators

/-- The token that starts with the given character, after blanks and comments, and the comment on
the rest of its line. After a dash a comment belongs to what follows. -/
def fetchAt (s : Scanner) (c : Char) (rest : List Char) : Option Scanner :=
  if c = '[' then (s.fetchFlowStart .flowSequenceStart).map skipComment
  else if c = '\x7b' then (s.fetchFlowStart .flowMappingStart).map skipComment
  else if c = ']' then (s.fetchFlowEnd .flowSequenceEnd).map skipComment
  else if c = '\x7d' then (s.fetchFlowEnd .flowMappingEnd).map skipComment
  else if c = ',' then s.fetchFlowEntry.map skipComment
  else if c = '-' && endsWord rest then s.fetchBlockEntry
  else if c = '?' && (s.inFlow || endsWord rest) then s.fetchKey.map skipComment
  else if c = ':' && (s.inFlow || endsWord rest) then s.fetchValue.map skipComment
  else if c = '*' then (s.fetchAnchor .reference).map skipComment
  else if c = '&' then (s.fetchAnchor .anchor).map skipComment
  else if c = '!' then s.fetchTag.map skipComment
  else if c = '|' && !s.inFlow then s.fetchBlockScalar false
  else if c = '>' && !s.inFlow then s.fetchBlockScalar true
  else if c = '\'' then s.fetchQuoted singleQuoted
  else if c = '"' then s.fetchQuoted doubleQuoted
  else if startsPlain s.inFlow c rest then s.fetchPlain
  else none

/-- The next token, together with the collections that start and end before it. -/
def fetch (s : Scanner) : Option Scanner :=
  let (keyAllowed, cursor) := s.cursor.skipGap s.marked s.inFlow s.keyAllowed
  let s := { s with keyAllowed, cursor }.unroll cursor.column
  match cursor.rest with
  | [] => s.fetchStreamEnd
  | c :: rest =>
    if c = '%' && cursor.column = 0 then s.fetchDirective
    else if cursor.atMarker '-' then s.fetchMarker .documentStart
    else if cursor.atMarker '.' then s.fetchMarker .documentEnd
    else s.fetchAt c rest

/-- Whether the text has been read to its end. -/
def finished (s : Scanner) : Bool := s.tokens.back?.any (·.kind = .streamEnd)

/-- The tokens where nothing more can be read. What may still turn out to be a key stays
undecided. -/
def broken (s : Scanner) : List Token :=
  let pending := (s.keys.filterMap id).filter s.keyInReach
  let tokens := pending.foldl (fun (tokens : Array Token) key =>
    tokens.modify key.token fun token => { token with kind := .undecided }) s.tokens
  tokens.toList ++ [⟨.broken, s.cursor.place.line, s.cursor.place.line⟩]

/-- The tokens from a state on, at most as many as the bound; every token takes some characters. -/
def run (s : Scanner) : Nat → List Token
  | 0 => s.broken
  | bound + 1 =>
    match s.fetch with
    | none => s.broken
    | some next => if next.finished then next.tokens.toList else next.run bound

end Scanner

/-- Whether a character may stand in a YAML text. -/
def isYamlChar (c : Char) : Bool :=
  let n := c.toNat
  n = 0x09 || n = 0x0a || n = 0x0d || (0x20 ≤ n && n ≤ 0x7e) || n = 0x85 ||
    (0xa0 ≤ n && n ≤ 0xd7ff) || (0xe000 ≤ n && n ≤ 0xfffd) || 0x10000 ≤ n

/-- The tokens of a text. Where it cannot be read they end with a broken one. -/
def tokens (text : String) : List Token :=
  let cs := text.toList
  if cs.all isYamlChar then
    Scanner.run { cursor := .ofChars cs, marked := cs.take 2 = [byteOrderMark, byteOrderMark] }
      (cs.length + 1)
  else [⟨.broken, 0, 0⟩]

end MazeRobot.Yaml
