import MazeRobot.Token.Scan

/-! # Scanning, place by place

What the scanner reads does not depend on where the source stands. This module states which tokens
some bytes give, apart from their places, and builds that relation up from the front: white space, a
parenthesis, a number or a symbol, and then whatever follows.

* `Text.utf8_append`, `Text.utf8_ofList`: the bytes of a text, part by part.
* `isSymbolText`: the bytes that the scanner takes as one symbol.
* `IsName`: a text that the scanner reads as one symbol in lower case.
* `Reads`: the tokens that some bytes give from any place on.
* `isName_of_mem_scan`: every symbol that the scanner finds is a name. -/

namespace MazeRobot

/-! ## Texts as bytes -/

namespace Text

/-- `ByteArray.toList` from an index on adds exactly the bytes that are left. -/
theorem toList_loop {bytes : ByteArray} {left : List UInt8} {i : Nat} (found : List UInt8)
    (rest : bytes.data.toList.drop i = left) :
    ByteArray.toList.loop bytes i found = found.reverse ++ left := by
  induction left generalizing i found with
  | nil =>
    have outside : ¬ i < bytes.size := Nat.not_lt.mpr (List.drop_eq_nil_iff.mp rest)
    rw [ByteArray.toList.loop, if_neg outside, List.append_nil]
  | cons b left ih =>
    have inside : i < bytes.data.toList.length := by
      refine Nat.lt_of_not_le fun outside => ?_
      rw [List.drop_eq_nil_of_le outside] at rest
      cases rest
    rw [List.drop_eq_getElem_cons inside] at rest
    obtain ⟨byte, rest⟩ := List.cons.inj rest
    have get : bytes.get! i = b := (getElem!_pos bytes.data i inside).trans byte
    rw [ByteArray.toList.loop, if_pos (show i < bytes.size from inside), ih _ rest, get]
    simp

/-- `utf8` of a text is the bytes of its encoding. -/
theorem utf8_eq (s : String) : utf8 s = s.toUTF8.data.toList := by
  exact toList_loop [] rfl

/-- `utf8` of the empty text. -/
@[simp] theorem utf8_empty : utf8 "" = [] := by
  rw [utf8_eq]
  rfl

/-- `utf8` of two texts in a row. -/
@[simp] theorem utf8_append (s t : String) : utf8 (s ++ t) = utf8 s ++ utf8 t := by
  simp only [utf8_eq, String.toUTF8_eq_toByteArray, String.toByteArray_append,
    ByteArray.toList_data_append]

/-- `utf8` of a text, character by character. -/
theorem utf8_ofList (cs : List Char) :
    utf8 (String.ofList cs) = cs.flatMap String.utf8EncodeChar := by
  rw [utf8_eq, String.toUTF8_eq_toByteArray, String.toByteArray_ofList, List.utf8Encode,
    List.toList_data_toByteArray]

/-- `String.utf8EncodeChar` of the character with the number of a byte below 128 is the byte. -/
theorem utf8EncodeChar_ofNat {b : UInt8} (ascii : b < 0x80) :
    String.utf8EncodeChar (Char.ofNat b.toNat) = [b] := by
  have small : b.toNat < 0x80 := UInt8.lt_iff_toNat_lt.mp ascii
  have valid : b.toNat.isValidChar := Or.inl (by omega)
  have value : (Char.ofNat b.toNat).val.toNat = b.toNat := by
    rw [Char.ofNat, dif_pos valid]
    rfl
  unfold String.utf8EncodeChar
  simp only [value]
  rw [if_pos (by omega)]
  simp

/-- `utf8` of a text of ASCII characters. -/
theorem utf8_ofList_ascii {bytes : List UInt8} (ascii : ∀ b ∈ bytes, b < 0x80) :
    utf8 (String.ofList (bytes.map fun b => Char.ofNat b.toNat)) = bytes := by
  rw [utf8_ofList, List.flatMap_map]
  induction bytes with
  | nil => rfl
  | cons b rest ih =>
    rw [List.flatMap_cons, utf8EncodeChar_ofNat (ascii b List.mem_cons_self),
      ih fun c mem => ascii c (List.mem_cons_of_mem b mem)]
    rfl

end Text

/-! ## Classes of bytes -/

/-- `isLetterByte` does not depend on letter case. -/
theorem isLetterByte_lowerByte (b : UInt8) : isLetterByte (lowerByte b) = isLetterByte b := by
  unfold isLetterByte lowerByte
  grind

/-- `isDigitByte` does not depend on letter case. -/
theorem isDigitByte_lowerByte (b : UInt8) : isDigitByte (lowerByte b) = isDigitByte b := by
  unfold isDigitByte lowerByte
  grind

/-- `isSymbolByte` does not depend on letter case. -/
theorem isSymbolByte_lowerByte (b : UInt8) : isSymbolByte (lowerByte b) = isSymbolByte b := by
  simp only [isSymbolByte, isLetterByte_lowerByte, isDigitByte_lowerByte]

/-- `lowerByte` is a minus sign only for a minus sign. -/
theorem lowerByte_beq_minus (b : UInt8) : (lowerByte b == 0x2d) = (b == 0x2d) := by
  unfold lowerByte
  grind

/-- `lowerByte` is idempotent. -/
theorem lowerByte_lowerByte (b : UInt8) : lowerByte (lowerByte b) = lowerByte b := by
  unfold lowerByte
  grind

/-- `lowerByte` keeps digits. -/
theorem lowerByte_of_isDigitByte {b : UInt8} (digit : isDigitByte b) : lowerByte b = b := by
  unfold isDigitByte at digit
  unfold lowerByte
  grind

/-- `isSymbolByte` holds of digits. -/
theorem isSymbolByte_of_isDigitByte {b : UInt8} (digit : isDigitByte b) : isSymbolByte b := by
  simp [isSymbolByte, digit]

/-- `isSymbolByte` holds of ASCII bytes only. -/
theorem isSymbolByte_ascii {b : UInt8} (symbol : isSymbolByte b) : b < 0x80 := by
  unfold isSymbolByte isLetterByte isDigitByte at symbol
  grind

/-- `lowerByte` of an ASCII byte is an ASCII byte. -/
theorem lowerByte_ascii {b : UInt8} (ascii : b < 0x80) : lowerByte b < 0x80 := by
  unfold lowerByte
  grind

/-- `foldedText` of ASCII bytes has those bytes, in lower case. -/
theorem utf8_foldedText_of_ascii {bytes : List UInt8} (ascii : ∀ b ∈ bytes, b < 0x80) :
    Text.utf8 (foldedText bytes) = bytes.map lowerByte := by
  have lower : ∀ b ∈ bytes.map lowerByte, b < 0x80 := by
    intro b mem
    obtain ⟨c, inside, rfl⟩ := List.mem_map.mp mem
    exact lowerByte_ascii (ascii c inside)
  have text : foldedText bytes =
      String.ofList ((bytes.map lowerByte).map fun b => Char.ofNat b.toNat) := by
    rw [foldedText, List.map_map]
    rfl
  rw [text, Text.utf8_ofList_ascii lower]

/-- `foldedText` of bytes of symbols and numbers has those bytes, in lower case. -/
theorem utf8_foldedText {bytes : List UInt8} (symbols : bytes.all isSymbolByte) :
    Text.utf8 (foldedText bytes) = bytes.map lowerByte :=
  utf8_foldedText_of_ascii fun b mem => isSymbolByte_ascii (List.all_eq_true.mp symbols b mem)

/-! ## Lexemes with what follows them -/

/-- Whether bytes are one symbol, from the first to the last. -/
def isSymbolText : List UInt8 → Bool
  | [] => false
  | b :: rest =>
    isLetterByte b && !(b == 0x2d && rest.head?.any isDigitByte) && rest.all isSymbolByte

/-- Whether the bytes go on neither with a symbol nor with a number. -/
def isDelimited (rest : List UInt8) : Bool := rest.head?.all fun b => !isSymbolByte b

/-- Bytes of a class that stops at the rest are taken as a whole. -/
theorem takeWhile_append_of_stop {p : UInt8 → Bool} {bytes rest : List UInt8} (all : bytes.all p)
    (stop : rest.head?.any p = false) :
    (bytes ++ rest).takeWhile p = bytes ∧ (bytes ++ rest).dropWhile p = rest := by
  have every : ∀ b ∈ bytes, p b := List.all_eq_true.mp all
  rw [List.takeWhile_append_of_pos every, List.dropWhile_append_of_pos every]
  cases rest with
  | nil => simp
  | cons b rest =>
    have stop : ¬ p b = true := Bool.eq_false_iff.mp stop
    rw [List.takeWhile_cons_of_neg stop, List.dropWhile_cons_of_neg stop, List.append_nil]
    exact ⟨rfl, rfl⟩

/-- Bytes of symbols stop at a rest that `isDelimited`. -/
theorem takeWhile_append_of_isDelimited {p : UInt8 → Bool} {bytes rest : List UInt8}
    (all : bytes.all p) (symbols : ∀ b, p b = true → isSymbolByte b = true)
    (delimited : isDelimited rest) :
    (bytes ++ rest).takeWhile p = bytes ∧ (bytes ++ rest).dropWhile p = rest := by
  refine takeWhile_append_of_stop all ?_
  cases rest with
  | nil => rfl
  | cons b rest =>
    refine Bool.eq_false_iff.mpr fun goes => ?_
    simp [isDelimited, symbols b goes] at delimited

/-- `lexeme?` reads a symbol that is delimited as it stands. -/
theorem lexeme?_of_isSymbolText {b : UInt8} {bytes rest : List UInt8}
    (symbol : isSymbolText (b :: bytes)) (delimited : isDelimited rest) :
    lexeme? b (bytes ++ rest) = some ⟨.symbol, b :: bytes, rest⟩ := by
  simp only [isSymbolText, Bool.and_eq_true, Bool.not_eq_true'] at symbol
  obtain ⟨⟨letter, noNumber⟩, symbols⟩ := symbol
  have notNumber :
      (isDigitByte b || (b == 0x2d && (bytes ++ rest).head?.any isDigitByte)) = false := by
    have noDigit : isDigitByte b = false := by
      unfold isLetterByte at letter
      unfold isDigitByte
      grind
    rw [noDigit, Bool.false_or]
    cases bytes with
    | nil =>
      cases rest with
      | nil => simp
      | cons c rest =>
        have stop : isDigitByte c = false := by
          simp only [isDelimited, List.head?_cons, Option.all_some, isSymbolByte, Bool.not_or,
            Bool.and_eq_true, Bool.not_eq_true'] at delimited
          exact delimited.2
        simp [stop]
    | cons c bytes => exact noNumber
  have noParenthesis : (b == 0x28) = false ∧ (b == 0x29) = false := by
    unfold isLetterByte at letter
    grind
  obtain ⟨taken, left⟩ := takeWhile_append_of_isDelimited symbols (fun _ holds => holds) delimited
  unfold lexeme?
  rw [noParenthesis.1, noParenthesis.2, notNumber, letter, taken, left]
  rfl

/-- `lexeme?` reads a number that is delimited as it stands. -/
theorem lexeme?_of_digits {b : UInt8} {bytes rest : List UInt8}
    (digits : (b :: bytes).all isDigitByte) (delimited : isDelimited rest) :
    lexeme? b (bytes ++ rest) = some ⟨.number, b :: bytes, rest⟩ := by
  simp only [List.all_cons, Bool.and_eq_true] at digits
  have noParenthesis : (b == 0x28) = false ∧ (b == 0x29) = false := by
    have digit := digits.1
    unfold isDigitByte at digit
    grind
  obtain ⟨taken, left⟩ :=
    takeWhile_append_of_isDelimited digits.2 (fun _ => isSymbolByte_of_isDigitByte) delimited
  unfold lexeme?
  rw [noParenthesis.1, noParenthesis.2, digits.1, taken, left]
  rfl

/-- The bytes of a symbol that `lexeme?` reads are one symbol. -/
theorem isSymbolText_of_lexeme? {b : UInt8} {rest : List UInt8} {lex : Lexeme}
    (found : lexeme? b rest = some lex) (symbol : lex.cls = .symbol) : isSymbolText lex.bytes := by
  unfold lexeme? at found
  split at found
  · cases found; cases symbol
  · split at found
    · cases found; cases symbol
    · split at found
      · cases found; cases symbol
      · split at found
        · rename_i noNumber letter
          cases found
          have noMinus : ¬ (b == 0x2d && rest.head?.any isDigitByte) = true := fun minus =>
            noNumber (by rw [minus, Bool.or_true])
          -- a digit after a minus sign would have been taken, so the two heads agree
          have heads : (rest.takeWhile isSymbolByte).head?.any isDigitByte =
              rest.head?.any isDigitByte := by
            cases rest with
            | nil => rfl
            | cons c rest =>
              rw [List.takeWhile_cons]
              split
              · rfl
              · rename_i stop
                have noDigit : isDigitByte c = false :=
                  Bool.eq_false_iff.mpr fun digit => stop (isSymbolByte_of_isDigitByte digit)
                simp [noDigit]
          simp only [isSymbolText, letter, heads, Bool.eq_false_iff.mpr noMinus,
            List.all_takeWhile, Bool.not_false, Bool.and_self]
        · cases found

/-- `isSymbolText` holds of bytes of symbols only. -/
theorem all_of_isSymbolText {bytes : List UInt8} (symbol : isSymbolText bytes) :
    bytes.all isSymbolByte := by
  cases bytes with
  | nil => rfl
  | cons b rest =>
    simp only [isSymbolText, Bool.and_eq_true] at symbol
    simp [isSymbolByte, symbol.1.1, symbol.2]

/-- `isSymbolText` does not depend on letter case. -/
theorem isSymbolText_map_lowerByte (bytes : List UInt8) :
    isSymbolText (bytes.map lowerByte) = isSymbolText bytes := by
  cases bytes with
  | nil => rfl
  | cons b rest =>
    have symbols : isSymbolByte ∘ lowerByte = isSymbolByte := funext isSymbolByte_lowerByte
    simp only [List.map_cons, isSymbolText, isLetterByte_lowerByte, isDigitByte_lowerByte,
      lowerByte_beq_minus, List.head?_map, Option.any_map, List.all_map, symbols]

/-! ## Tokens without places -/

/-- The place that stands for no place. -/
def Mark.nowhere : Mark := ⟨0, 0⟩

/-- The token without its place. -/
def Token.unplaced (token : Token) : Token := { token with mark := Mark.nowhere }

/-- A token of a class and a text, without a place. -/
def Token.plain (cls : TokenClass) (literal : String) : Token := ⟨cls, literal, Mark.nowhere⟩

namespace Lexer

/-- `scan` reads one token and goes on from the place after it. -/
theorem scan_eq (lexer : Lexer) :
    lexer.scan = match lexer.read with
      | .token token after => (token :: ·) <$> after.scan
      | .finished token _ => .ok [token]
      | .stuck fault _ => .error fault := by
  rw [scan]
  split
  · rename_i token after found
    simp only [found]
    cases after.scan <;> rfl
  · rename_i token stop found
    rw [found]
  · rename_i fault stop found
    rw [found]

/-- `skip` stops at a byte that starts a token: it is neither white space nor the start of a
comment. -/
theorem skip_of_lexeme? {b : UInt8} {rest : List UInt8} {lex : Lexeme} (mark : Mark)
    (found : lexeme? b rest = some lex) : skip false mark (b :: rest) = ⟨mark, b :: rest⟩ := by
  have start : b = 0x28 ∨ b = 0x29 ∨ isSymbolByte b := by
    unfold lexeme? at found
    unfold isSymbolByte isLetterByte isDigitByte at *
    grind
  unfold isSymbolByte isLetterByte isDigitByte at start
  have noSpace : isSpaceByte b = false := by
    unfold isSpaceByte
    grind
  have noComment : startsComment b rest = false := by
    -- Comments start with a semicolon, a hash or a slash.
    have others : b ≠ 0x3b ∧ b ≠ 0x23 ∧ b ≠ 0x2f := by grind
    simp [startsComment, others]
  unfold skip
  rw [if_neg Bool.false_ne_true, noSpace, noComment]
  rfl

/-- `read` of a lexeme gives its token. -/
theorem read_of_lexeme? {b : UInt8} {rest : List UInt8} {lex : Lexeme} (mark : Mark)
    (found : lexeme? b rest = some lex) :
    read ⟨mark, b :: rest⟩ = .token ⟨lex.cls, foldedText lex.bytes, mark⟩
      ⟨mark.right lex.bytes.length, lex.rest⟩ := by
  unfold read
  simp only [skip_of_lexeme? mark found, found]

/-- `read` does not see white space in front. -/
theorem read_of_isSpaceByte {b : UInt8} (rest : List UInt8) (mark : Mark) (space : isSpaceByte b) :
    read ⟨mark, b :: rest⟩ = read ⟨mark.after b, rest⟩ := by
  unfold read
  simp only [skip, space, if_true, Bool.false_eq_true, if_false]

end Lexer

/-- Bytes that give the tokens, wherever they stand. -/
def Reads (bytes : List UInt8) (tokens : List Token) : Prop :=
  ∀ mark, ∃ found, Lexer.scan ⟨mark, bytes⟩ = .ok found ∧ found.map Token.unplaced = tokens

namespace Reads

/-- `Reads` of no bytes is the end mark. -/
theorem nil : Reads [] [.plain .endOfInput ""] := by
  intro mark
  refine ⟨[⟨.endOfInput, "", mark⟩], ?_, rfl⟩
  rw [Lexer.scan_eq]
  rfl

/-- `Reads` is as without white space in front. -/
theorem space {b : UInt8} {bytes : List UInt8} {tokens : List Token} (space : isSpaceByte b)
    (rest : Reads bytes tokens) : Reads (b :: bytes) tokens := by
  intro mark
  obtain ⟨found, scanned, plain⟩ := rest (mark.after b)
  refine ⟨found, ?_, plain⟩
  rw [Lexer.scan_eq, Lexer.read_of_isSpaceByte bytes mark space, ← Lexer.scan_eq, scanned]

/-- `Reads` of a lexeme is its token, and then what follows gives the others. -/
theorem lexeme {b : UInt8} {bytes : List UInt8} {lex : Lexeme} {tokens : List Token}
    (found : lexeme? b bytes = some lex) (rest : Reads lex.rest tokens) :
    Reads (b :: bytes) (.plain lex.cls (foldedText lex.bytes) :: tokens) := by
  intro mark
  obtain ⟨others, scanned, plain⟩ := rest (mark.right lex.bytes.length)
  refine ⟨⟨lex.cls, foldedText lex.bytes, mark⟩ :: others, ?_, ?_⟩
  · rw [Lexer.scan_eq, Lexer.read_of_lexeme? mark found]
    simp only [scanned]
    rfl
  · rw [List.map_cons, plain]
    rfl

/-- `Reads` of an opening parenthesis. -/
theorem opening {bytes : List UInt8} {tokens : List Token} (rest : Reads bytes tokens) :
    Reads (0x28 :: bytes) (.plain .opening "(" :: tokens) :=
  have found : lexeme? 0x28 bytes = some ⟨.opening, [0x28], bytes⟩ := rfl
  lexeme found rest

/-- `Reads` of a closing parenthesis. -/
theorem closing {bytes : List UInt8} {tokens : List Token} (rest : Reads bytes tokens) :
    Reads (0x29 :: bytes) (.plain .closing ")" :: tokens) :=
  have found : lexeme? 0x29 bytes = some ⟨.closing, [0x29], bytes⟩ := rfl
  lexeme found rest

end Reads

/-! ## Names -/

/-- A text that the scanner reads as one symbol, in lower case as it stands. -/
def IsName (text : String) : Prop :=
  ∃ mark stop, Token.scan (Text.utf8 text) = .ok [⟨.symbol, text, mark⟩, ⟨.endOfInput, "", stop⟩]

/-- A token of `Lexer.read` is that of a lexeme. -/
theorem Lexer.exists_lexeme? {lexer after : Lexer} {token : Token}
    (found : lexer.read = .token token after) :
    ∃ b rest lex, lexeme? b rest = some lex ∧ token.cls = lex.cls ∧
      token.literal = foldedText lex.bytes := by
  simp only [read] at found
  split at found
  · cases found
  · rename_i b rest _
    split at found
    · rename_i lex lexed
      cases found
      exact ⟨b, rest, lex, lexed, rfl, rfl⟩
    · cases found

/-- What `Lexer.read` gives at the end of a source is the end mark. -/
theorem Lexer.cls_of_read_eq_finished {lexer stop : Lexer} {token : Token}
    (found : lexer.read = .finished token stop) : token.cls = .endOfInput := by
  simp only [read] at found
  split at found
  · cases found
    rfl
  · split at found
    · cases found
    · cases found

/-- Every symbol of `Lexer.scan` is the text of some bytes that are one symbol. -/
theorem Lexer.exists_isSymbolText {lexer : Lexer} {tokens : List Token}
    (scanned : lexer.scan = .ok tokens)
    {token : Token} (mem : token ∈ tokens) (symbol : token.cls = .symbol) :
    ∃ bytes, isSymbolText bytes ∧ token.literal = foldedText bytes := by
  induction lexer using Lexer.scan.induct generalizing tokens with
  | case1 lexer first after found others rest ih =>
    rw [Lexer.scan_eq, found] at scanned
    simp only [rest] at scanned
    cases scanned
    rcases List.mem_cons.mp mem with rfl | mem
    · obtain ⟨b, bytes, lex, lexed, cls, literal⟩ := Lexer.exists_lexeme? found
      exact ⟨lex.bytes, isSymbolText_of_lexeme? lexed (cls.symm.trans symbol), literal⟩
    · exact ih rest mem
  | case2 lexer first after found fault rest ih =>
    rw [Lexer.scan_eq, found] at scanned
    simp only [rest] at scanned
    cases scanned
  | case3 lexer last stop found =>
    rw [Lexer.scan_eq, found] at scanned
    cases scanned
    cases List.mem_singleton.mp mem
    rw [Lexer.cls_of_read_eq_finished found] at symbol
    cases symbol
  | case4 lexer fault stop found =>
    rw [Lexer.scan_eq, found] at scanned
    cases scanned

/-- `Reads` of a symbol that is delimited is its text in lower case. -/
theorem Reads.symbolText {bytes rest : List UInt8} {tokens : List Token}
    (symbol : isSymbolText bytes) (delimited : isDelimited rest) (others : Reads rest tokens) :
    Reads (bytes ++ rest) (.plain .symbol (foldedText bytes) :: tokens) := by
  cases bytes with
  | nil => cases symbol
  | cons b bytes => exact Reads.lexeme (lexeme?_of_isSymbolText symbol delimited) others

/-- `foldedText` does not depend on letter case. -/
theorem foldedText_map_lowerByte (bytes : List UInt8) :
    foldedText (bytes.map lowerByte) = foldedText bytes := by
  simp only [foldedText, List.map_map, Function.comp_def, lowerByte_lowerByte]

/-- `foldedText` of a symbol is a name. -/
theorem isName_foldedText {bytes : List UInt8} (symbol : isSymbolText bytes) :
    IsName (foldedText bytes) := by
  have lower : isSymbolText (bytes.map lowerByte) := by rw [isSymbolText_map_lowerByte, symbol]
  obtain ⟨found, scanned, plain⟩ := Reads.symbolText lower rfl Reads.nil Mark.start
  rw [List.append_nil] at scanned
  rw [foldedText_map_lowerByte] at plain
  -- One symbol and the end of the source are all there is.
  match found, plain with
  | [⟨cls, literal, mark⟩, ⟨cls', literal', stop⟩], plain =>
    simp only [List.map_cons, List.map_nil, Token.unplaced, Token.plain, List.cons.injEq,
      Token.mk.injEq, and_true] at plain
    obtain ⟨⟨rfl, rfl⟩, rfl, rfl⟩ := plain
    refine ⟨mark, stop, ?_⟩
    rw [utf8_foldedText (all_of_isSymbolText symbol)]
    exact scanned

/-- A text that `IsName` is the text of its own bytes, which are one symbol. -/
theorem IsName.bytes {text : String} (name : IsName text) :
    isSymbolText (Text.utf8 text) ∧ foldedText (Text.utf8 text) = text := by
  obtain ⟨mark, stop, scanned⟩ := name
  obtain ⟨bytes, symbol, literal⟩ := Lexer.exists_isSymbolText scanned List.mem_cons_self rfl
  have literal : text = foldedText bytes := literal
  rw [literal, utf8_foldedText (all_of_isSymbolText symbol), isSymbolText_map_lowerByte,
    foldedText_map_lowerByte]
  exact ⟨symbol, rfl⟩

/-- All characters of a name have the property `p` if the lower case of each byte that
`isSymbolByte` accepts has it. For a given property that is a computation. -/
theorem IsName.forall_mem {name : String} (isName : IsName name) {p : Char → Bool}
    (each : ∀ n < 256, isSymbolByte (UInt8.ofNat n) →
      p (Char.ofNat (lowerByte (UInt8.ofNat n)).toNat) = true) : ∀ c ∈ name.toList, p c = true := by
  obtain ⟨symbol, folded⟩ := isName.bytes
  intro c member
  rw [← folded, foldedText, String.toList_ofList] at member
  obtain ⟨b, found, rfl⟩ := List.mem_map.mp member
  have letter := each b.toNat b.toNat_lt
  rw [UInt8.ofNat_toNat] at letter
  exact letter (List.all_eq_true.mp (all_of_isSymbolText symbol) b found)

/-- `IsName` holds of the texts in lower case whose bytes are one symbol. -/
theorem isName_iff (text : String) :
    IsName text ↔
      isSymbolText text.toUTF8.data.toList ∧ foldedText text.toUTF8.data.toList = text := by
  rw [← Text.utf8_eq]
  refine ⟨IsName.bytes, fun ⟨symbol, folded⟩ => ?_⟩
  rw [← folded]
  exact isName_foldedText symbol

instance (text : String) : Decidable (IsName text) := decidable_of_iff _ (isName_iff text).symm

/-- Every symbol of `Token.scan` is a name. -/
theorem isName_of_mem_scan {source : List UInt8} {tokens : List Token} {token : Token}
    (scanned : Token.scan source = .ok tokens) (mem : token ∈ tokens)
    (symbol : token.cls = .symbol) : IsName token.literal := by
  obtain ⟨bytes, text, literal⟩ := Lexer.exists_isSymbolText scanned mem symbol
  rw [literal]
  exact isName_foldedText text

/-- `Reads` of a name that is delimited is the name. -/
theorem Reads.symbol {name : String} {rest : List UInt8} {tokens : List Token}
    (isName : IsName name) (delimited : isDelimited rest) (others : Reads rest tokens) :
    Reads (Text.utf8 name ++ rest) (.plain .symbol name :: tokens) := by
  obtain ⟨symbol, folded⟩ := isName.bytes
  have reads := Reads.symbolText symbol delimited others
  rwa [folded] at reads

/-! ## Numbers -/

/-- Digits are the characters of bytes with `isDigitByte`. -/
theorem exists_digit_bytes {cs : List Char} (digits : ∀ c ∈ cs, c.isDigit) :
    ∃ bytes : List UInt8, bytes.all isDigitByte ∧ bytes.map (fun b => Char.ofNat b.toNat) = cs := by
  induction cs with
  | nil => exact ⟨[], rfl, rfl⟩
  | cons c cs ih =>
    obtain ⟨bytes, all, text⟩ := ih fun d mem => digits d (List.mem_cons_of_mem c mem)
    have digit : 0x30 ≤ c.toNat ∧ c.toNat ≤ 0x39 :=
      Char.isDigit_iff_toNat.mp (digits c List.mem_cons_self)
    have number : (UInt8.ofNat c.toNat).toNat = c.toNat := by
      rw [UInt8.toNat_ofNat', Nat.mod_eq_of_lt (by omega)]
    refine ⟨UInt8.ofNat c.toNat :: bytes, ?_, ?_⟩
    · simp only [List.all_cons, all, Bool.and_true, isDigitByte, UInt8.le_iff_toNat_le, number,
        Bool.and_eq_true, decide_eq_true_eq]
      exact digit
    · rw [List.map_cons, text, number, Char.ofNat_toNat]

/-- `foldedText` keeps digits, which have no upper case. -/
theorem foldedText_of_digits {bytes : List UInt8} (digits : bytes.all isDigitByte) :
    foldedText bytes = String.ofList (bytes.map fun b => Char.ofNat b.toNat) := by
  refine congrArg String.ofList (List.map_congr_left fun b mem => ?_)
  rw [lowerByte_of_isDigitByte (List.all_eq_true.mp digits b mem)]

/-- `Reads` of a natural number that is delimited is its decimal digits. -/
theorem Reads.number (n : Nat) {rest : List UInt8} {tokens : List Token}
    (delimited : isDelimited rest) (others : Reads rest tokens) :
    Reads (Text.utf8 n.repr ++ rest) (.plain .number n.repr :: tokens) := by
  have decimal : ∀ c ∈ Nat.toDigits 10 n, c.isDigit := fun c mem =>
    Nat.isDigit_of_mem_toDigits (by decide) (by decide) mem
  obtain ⟨bytes, digits, text⟩ := exists_digit_bytes decimal
  have ascii : ∀ b ∈ bytes, b < 0x80 := fun b mem =>
    isSymbolByte_ascii (isSymbolByte_of_isDigitByte (List.all_eq_true.mp digits b mem))
  rw [Nat.repr_eq_ofList_toDigits, ← text, Text.utf8_ofList_ascii ascii,
    ← foldedText_of_digits digits]
  cases bytes with
  | nil => exact absurd text.symm Nat.toDigits_ne_nil
  | cons b bytes => exact Reads.lexeme (lexeme?_of_digits digits delimited) others

end MazeRobot
