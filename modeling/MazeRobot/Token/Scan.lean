import MazeRobot.Fault.Basic
import MazeRobot.Text.Utf8
import MazeRobot.Token.Basic

/-! # Scanning

From the bytes of a source to its tokens. White space and line comments separate tokens and are
skipped; a comment runs from `;`, `#` or `//` to the end of its line. Any other byte that starts no
token is a fault.

* `Lexer.skip`: past white space and comments.
* `lexeme?`: the token text at the start of some bytes, as long as it can be.
* `Lexer.read`: one token from a place of the source.
* `Token.scan`: all tokens of a source, ending with the end mark. -/

namespace MazeRobot

/-- Whether a byte is white space. -/
def isSpaceByte (b : UInt8) : Bool := b == 0x20 || (0x09 ≤ b && b ≤ 0x0d)

/-- Whether a byte is a decimal digit. -/
def isDigitByte (b : UInt8) : Bool := 0x30 ≤ b && b ≤ 0x39

/-- Whether a byte can start a symbol: an ASCII letter, `_` or `-`. -/
def isLetterByte (b : UInt8) : Bool :=
  (0x61 ≤ b && b ≤ 0x7a) || (0x41 ≤ b && b ≤ 0x5a) || b == 0x5f || b == 0x2d

/-- Whether a byte can continue a symbol. -/
def isSymbolByte (b : UInt8) : Bool := isLetterByte b || isDigitByte b

/-- Whether a byte, followed by the given ones, starts a comment. -/
def startsComment (b : UInt8) (rest : List UInt8) : Bool :=
  b == 0x3b || b == 0x23 || (b == 0x2f && rest.head? == some 0x2f)

/-- The ASCII lower case of a byte. -/
def lowerByte (b : UInt8) : UInt8 := if 0x41 ≤ b && b ≤ 0x5a then b + 0x20 else b

/-- The text of ASCII bytes, in lower case. -/
def foldedText (bytes : List UInt8) : String :=
  String.ofList (bytes.map fun b => Char.ofNat (lowerByte b).toNat)

/-! ## Lexemes -/

/-- The bytes of a token and the bytes after it. -/
structure Lexeme where
  /-- The class of the token. -/
  cls : TokenClass
  /-- The bytes of the token. -/
  bytes : List UInt8
  /-- The bytes after the token. -/
  rest : List UInt8
  deriving DecidableEq, Repr

/-- The token that starts with the byte `b`: numbers and symbols run as far as they can. A minus
sign belongs to a number when a digit follows it. -/
def lexeme? (b : UInt8) (rest : List UInt8) : Option Lexeme :=
  if b == 0x28 then some ⟨.opening, [b], rest⟩
  else if b == 0x29 then some ⟨.closing, [b], rest⟩
  else if isDigitByte b || (b == 0x2d && rest.head?.any isDigitByte) then
    some ⟨.number, b :: rest.takeWhile isDigitByte, rest.dropWhile isDigitByte⟩
  else if isLetterByte b then
    some ⟨.symbol, b :: rest.takeWhile isSymbolByte, rest.dropWhile isSymbolByte⟩
  else none

/-- `lexeme?` takes its bytes from the front and leaves the others. -/
theorem lexeme?_append {b : UInt8} {rest : List UInt8} {lex : Lexeme}
    (found : lexeme? b rest = some lex) : lex.bytes ++ lex.rest = b :: rest := by
  unfold lexeme? at found
  split at found
  · cases found; rfl
  · split at found
    · cases found; rfl
    · split at found
      · cases found; simp
      · split at found
        · cases found; simp
        · cases found

/-- `lexeme?` takes at least one byte. -/
theorem lexeme?_bytes_ne_nil {b : UInt8} {rest : List UInt8} {lex : Lexeme}
    (found : lexeme? b rest = some lex) : lex.bytes ≠ [] := by
  unfold lexeme? at found
  split at found
  · cases found; simp
  · split at found
    · cases found; simp
    · split at found
      · cases found; simp
      · split at found
        · cases found; simp
        · cases found

/-! ## Reading one token -/

/-- A place of a source together with the bytes that follow it. -/
structure Lexer where
  /-- The place. -/
  mark : Mark
  /-- The bytes from the place on. -/
  rest : List UInt8
  deriving DecidableEq, Repr

namespace Lexer

/-- The start of a source. -/
def ofBytes (bytes : List UInt8) : Lexer := ⟨Mark.start, bytes⟩

/-- The place after white space and comments, starting inside a comment or outside. -/
def skip (inComment : Bool) (mark : Mark) : List UInt8 → Lexer
  | [] => ⟨mark, []⟩
  | b :: rest =>
    if inComment then skip (b != 0x0a) (mark.after b) rest
    else if isSpaceByte b then skip false (mark.after b) rest
    else if startsComment b rest then skip true (mark.after b) rest
    else ⟨mark, b :: rest⟩

/-- `skip` never adds bytes. -/
theorem length_skip_le (inComment : Bool) (mark : Mark) (bytes : List UInt8) :
    (skip inComment mark bytes).rest.length ≤ bytes.length := by
  induction bytes generalizing inComment mark with
  | nil => simp [skip]
  | cons b rest ih =>
    unfold skip
    split
    · exact Nat.le_succ_of_le (ih _ _)
    · split
      · exact Nat.le_succ_of_le (ih _ _)
      · split
        · exact Nat.le_succ_of_le (ih _ _)
        · exact Nat.le_refl _

/-- What reading one token gives. -/
inductive Reading where
  /-- A token, and the place after it. -/
  | token (token : Token) (after : Lexer)
  /-- The end of the source, and its place. -/
  | finished (token : Token) (stop : Lexer)
  /-- A byte that starts no token, and its place. -/
  | stuck (fault : Fault) (stop : Lexer)
  deriving Repr

/-- Reads one token, past the white space and comments before it. -/
def read (lexer : Lexer) : Reading :=
  let start := skip false lexer.mark lexer.rest
  match start.rest with
  | [] => .finished ⟨.endOfInput, "", start.mark⟩ start
  | b :: rest =>
    match lexeme? b rest with
    | some lex =>
      .token ⟨lex.cls, foldedText lex.bytes, start.mark⟩
        ⟨start.mark.right lex.bytes.length, lex.rest⟩
    | none =>
      let c := (Text.leading (b :: rest)).1
      .stuck ⟨.strayCharacter c, start.mark.line, start.mark.column⟩ start

/-- `read` of a token leaves fewer bytes. -/
theorem length_rest_of_read_eq_token {lexer after : Lexer} {token : Token}
    (found : lexer.read = .token token after) : after.rest.length < lexer.rest.length := by
  unfold read at found
  have bound := length_skip_le false lexer.mark lexer.rest
  revert found bound
  generalize skip false lexer.mark lexer.rest = start
  intro found bound
  match hrest : start.rest with
  | [] => simp [hrest] at found
  | b :: rest =>
    simp only [hrest] at found
    match hlex : lexeme? b rest with
    | none => simp [hlex] at found
    | some lex =>
      simp only [hlex, Reading.token.injEq] at found
      have whole := congrArg List.length (lexeme?_append hlex)
      have some := List.length_pos_iff.mpr (lexeme?_bytes_ne_nil hlex)
      simp only [List.length_append, List.length_cons] at whole
      simp only [hrest, List.length_cons] at bound
      rw [← found.2]
      simp only
      omega

/-- The next token and the place to go on from; at the end and at a stray byte the place stays. -/
def next (lexer : Lexer) : Except Fault Token × Lexer :=
  match lexer.read with
  | .token token after => (.ok token, after)
  | .finished token stop => (.ok token, stop)
  | .stuck fault stop => (.error fault, stop)

/-- The results of reading `n` times in a row. -/
def nextTimes : Nat → Lexer → List (Except Fault Token)
  | 0, _ => []
  | n + 1, lexer =>
    let (result, after) := lexer.next
    result :: nextTimes n after

/-- The tokens from a place to the end of the source, ending with the end mark. -/
def scan (lexer : Lexer) : Except Fault (List Token) :=
  match _found : lexer.read with
  | .token token after =>
    match scan after with
    | .ok tokens => .ok (token :: tokens)
    | .error fault => .error fault
  | .finished token _ => .ok [token]
  | .stuck fault _ => .error fault
termination_by lexer.rest.length
decreasing_by exact length_rest_of_read_eq_token ‹_›

end Lexer

/-- The tokens of a source, ending with the end mark; the first stray character is the fault. -/
def Token.scan (source : List UInt8) : Except Fault (List Token) := (Lexer.ofBytes source).scan

end MazeRobot
