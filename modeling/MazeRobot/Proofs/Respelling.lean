import MazeRobot.Proofs.Places
import MazeRobot.Proofs.TokenPlaces

/-! # Layout and letter case

The tokens of a source can be written out again with other white space, with comments between them
and with letters in another case. The scanner then finds the same tokens at other places, and so the
program is the same up to lines, or its fault is the same up to the place.

* `Separator`: white space and comments that end with their line.
* `Written`: tokens written out with separators between them.
* `Laid.reads`: the tokens of a source are found again where they are written out.
* `Program.parse_respelled`: the program of a source that is written in another way. -/

namespace MazeRobot

/-! ## Separators -/

/-- What opens a comment. -/
def commentOpeners : List (List UInt8) := [[0x3b], [0x23], [0x2f, 0x2f]]

/-- White space and comments that end with their line. -/
inductive Separator : List UInt8 → Prop where
  | nil : Separator []
  | space {b : UInt8} {rest : List UInt8} (space : isSpaceByte b = true) (more : Separator rest) :
      Separator (b :: rest)
  | comment {opener text rest : List UInt8} (opens : opener ∈ commentOpeners)
      (unbroken : 0x0a ∉ text) (more : Separator rest) :
      Separator (opener ++ text ++ 0x0a :: rest)

/-- `skip` passes the rest of a comment up to the end of its line. -/
theorem Lexer.exists_skip_comment {text : List UInt8} (unbroken : 0x0a ∉ text) (rest : List UInt8)
    (mark : Mark) :
    ∃ after, skip true mark (text ++ 0x0a :: rest) = skip false after rest := by
  induction text generalizing mark with
  | nil => exact ⟨mark.after 0x0a, rfl⟩
  | cons b text ih =>
    obtain ⟨first, others⟩ := not_or.mp (mt List.mem_cons.mpr unbroken)
    obtain ⟨after, skipped⟩ := ih others (mark.after b)
    have inside : (b != 0x0a) = true := bne_iff_ne.mpr (Ne.symm first)
    refine ⟨after, ?_⟩
    rw [List.cons_append, skip, if_pos rfl, inside]
    exact skipped

/-- What `skip` passes in front makes no difference for `read` but for the place. -/
theorem Lexer.read_of_skip_eq {mark after : Mark} {bytes rest : List UInt8}
    (same : skip false mark bytes = skip false after rest) :
    read ⟨mark, bytes⟩ = read ⟨after, rest⟩ := by
  unfold read
  rw [same]

/-- What is among the `commentOpeners` starts a comment, whatever comes after it. -/
theorem exists_of_mem_commentOpeners {opener : List UInt8} (opens : opener ∈ commentOpeners) :
    ∃ b more, opener = b :: more ∧ 0x0a ∉ more ∧ isSpaceByte b = false ∧ isSymbolByte b = false ∧
      ∀ rest, startsComment b (more ++ rest) = true := by
  simp only [commentOpeners, List.mem_cons, List.not_mem_nil, or_false] at opens
  rcases opens with rfl | rfl | rfl
  · exact ⟨_, _, rfl, by decide, by decide, by decide, fun _ => rfl⟩
  · exact ⟨_, _, rfl, by decide, by decide, by decide, fun _ => rfl⟩
  · exact ⟨_, _, rfl, by decide, by decide, by decide, fun _ => rfl⟩

/-- A comment gives no token, so `Reads` is as without it. -/
theorem Reads.comment {opener text bytes : List UInt8} {tokens : List Token}
    (opens : opener ∈ commentOpeners) (unbroken : 0x0a ∉ text) (rest : Reads bytes tokens) :
    Reads (opener ++ text ++ 0x0a :: bytes) tokens := by
  intro mark
  obtain ⟨b, more, rfl, alone, noSpace, -, starts⟩ := exists_of_mem_commentOpeners opens
  -- The second slash of an opener belongs to what is skipped in the comment.
  have whole : 0x0a ∉ more ++ text := by simp [unbroken, alone]
  obtain ⟨after, skipped⟩ := Lexer.exists_skip_comment whole bytes (mark.after b)
  obtain ⟨found, scanned, plain⟩ := rest after
  refine ⟨found, ?_, plain⟩
  have same : Lexer.skip false mark (b :: more ++ text ++ 0x0a :: bytes) =
      Lexer.skip false after bytes := by
    rw [List.append_assoc] at skipped ⊢
    rw [List.cons_append, Lexer.skip, if_neg Bool.false_ne_true,
      if_neg (Bool.eq_false_iff.mp noSpace), if_pos (starts _), skipped]
  rw [Lexer.scan_eq, Lexer.read_of_skip_eq same, ← Lexer.scan_eq, scanned]

namespace Separator

variable {gap : List UInt8}

/-- A `Separator` gives no token. -/
theorem reads (separator : Separator gap) {bytes : List UInt8} {tokens : List Token}
    (rest : Reads bytes tokens) : Reads (gap ++ bytes) tokens := by
  induction separator with
  | nil => exact rest
  | space space more ih => exact .space space ih
  | comment opens unbroken more ih =>
    rw [List.append_assoc, List.cons_append]
    exact .comment opens unbroken ih

/-- No token goes on into a `Separator`. -/
theorem stops (separator : Separator gap) (some : gap ≠ []) (cls : TokenClass)
    (rest : List UInt8) : (gap ++ rest).head?.any cls.extendedBy = false := by
  have other : ∀ {b : UInt8}, isSymbolByte b = false → cls.extendedBy b = false := by
    intro b noSymbol
    cases cls with
    | number => exact Bool.eq_false_iff.mpr fun digit =>
        Bool.eq_false_iff.mp noSymbol (isSymbolByte_of_isDigitByte digit)
    | symbol => exact noSymbol
    | _ => rfl
  cases separator with
  | nil => exact absurd rfl some
  | @space b rest space more =>
    refine other (Bool.eq_false_iff.mpr fun symbol => ?_)
    have token : isTokenByte b = true := by rw [isTokenByte, symbol, Bool.or_true]
    cases space.symm.trans (not_blank_of_isTokenByte token).1
  | comment opens unbroken more =>
    obtain ⟨b, more, rfl, -, -, noSymbol, -⟩ := exists_of_mem_commentOpeners opens
    exact other noSymbol

end Separator

/-! ## Tokens in another spelling -/

/-- Bytes that differ in the case of letters only. -/
def SameLetters (first second : List UInt8) : Prop := first.map lowerByte = second.map lowerByte

instance (first second : List UInt8) : Decidable (SameLetters first second) :=
  inferInstanceAs (Decidable (_ = _))

/-- Tokens written out in their order, the end mark last. Each is spelled by its text with letters
in any case, and there is a separator after it, which is empty only where nothing follows. -/
inductive Written : List Token → List UInt8 → Prop where
  | stop {token : Token} (ended : token.cls = .endOfInput) : Written [token] []
  | token {token : Token} {tokens : List Token} {text gap bytes : List UInt8}
      (spelled : SameLetters text (Text.utf8 token.literal)) (separator : Separator gap)
      (apart : gap = [] → bytes = []) (rest : Written tokens bytes) :
      Written (token :: tokens) (text ++ gap ++ bytes)

/-- `lowerByte` gives a byte below the letters for that byte only. -/
theorem lowerByte_eq_iff {b c : UInt8} (other : c < 0x41) : lowerByte b = c ↔ b = c := by
  unfold lowerByte
  grind

/-- `TokenClass.accepts` does not depend on letter case. -/
theorem TokenClass.accepts_map_lowerByte (cls : TokenClass) (bytes : List UInt8) :
    cls.accepts (bytes.map lowerByte) = cls.accepts bytes := by
  have single : ∀ {c : UInt8}, c < 0x41 → (bytes.map lowerByte == [c]) = (bytes == [c]) := by
    intro c other
    cases bytes with
    | nil => rfl
    | cons b rest =>
      rw [Bool.eq_iff_iff]
      simp [lowerByte_eq_iff other]
  cases cls with
  | endOfInput => simp [accepts]
  | opening => exact single (by decide)
  | closing => exact single (by decide)
  | symbol => exact isSymbolText_map_lowerByte bytes
  | number =>
    cases bytes with
    | nil => rfl
    | cons b rest =>
      have digits : isDigitByte ∘ lowerByte = isDigitByte := funext isDigitByte_lowerByte
      simp only [accepts, List.map_cons, isNumberText, isDigitByte_lowerByte, lowerByte_beq_minus,
        List.isEmpty_map, List.all_map, digits]

/-- A text is known by its `utf8` bytes. -/
theorem Text.eq_of_utf8_eq {s t : String} (same : utf8 s = utf8 t) : s = t := by
  rw [utf8_eq, utf8_eq] at same
  exact String.toByteArray_inj.mp (ByteArray.ext (Array.toList_inj.mp same))

/-- A token that `StandsAt` an offset is also spelled by any bytes that differ from those there in
the case of letters only. -/
theorem Token.StandsAt.respelled {source text : List UInt8} {token : Token} {q : Nat}
    (stands : token.StandsAt source q) (spelled : SameLetters text (Text.utf8 token.literal)) :
    token.cls.accepts text ∧ foldedText text = token.literal := by
  have lower : text.map lowerByte = Text.utf8 token.literal := by
    rw [spelled, ← stands.spelled, List.map_map]
    exact List.map_congr_left fun b _ => lowerByte_lowerByte b
  have accepted : token.cls.accepts text := by
    rw [← TokenClass.accepts_map_lowerByte, lower, ← stands.spelled,
      TokenClass.accepts_map_lowerByte]
    exact stands.accepted
  refine ⟨accepted, Text.eq_of_utf8_eq ?_⟩
  rw [← lower, utf8_foldedText_of_ascii fun b member =>
    isTokenByte_ascii (TokenClass.isTokenByte_of_accepts accepted b member)]

/-- **The tokens of a source are found again where they are `Written` out.** -/
theorem Laid.reads {source : List UInt8} {p : Nat} {places : List (Token × Nat)}
    (laid : Laid source p places) {bytes : List UInt8}
    (written : Written (places.map Prod.fst) bytes) :
    Reads bytes ((places.map Prod.fst).map Token.unplaced) := by
  induction laid generalizing bytes with
  | stop next =>
    cases written with
    | stop ended => exact .nil
    | token spelled separator apart rest => cases rest
  | @token p q token places next stands some rest ih =>
    rw [List.map_cons] at written ⊢
    generalize places.map Prod.fst = tokens at written ih ⊢
    cases written with
    | stop ended => exact absurd ended some
    | @token _ _ text gap bytes spelled separator apart others =>
      obtain ⟨accepted, literal⟩ := stands.respelled spelled
      have found := separator.reads (ih others)
      -- The token ends here: a separator comes next, or nothing at all.
      have maximal : (gap ++ bytes).head?.any token.cls.extendedBy = false := by
        rcases Decidable.em (gap = []) with none | more
        · rw [none, apart none]
          rfl
        · exact separator.stops more token.cls bytes
      cases text with
      | nil => exact absurd rfl (TokenClass.ne_nil_of_accepts accepted some)
      | cons b text =>
        have reads := Reads.lexeme (lexeme?_of_accepts accepted maximal) found
        rw [List.append_assoc]
        rw [literal] at reads
        exact reads

/-- **Layout and letter case carry no meaning.** Where the tokens of a source are `Written` out in
another way, both sources have programs, which are equal up to lines, or both have faults of one
kind, with one message and one hint. -/
theorem Program.parse_respelled {source lead bytes : List UInt8} {tokens : List Token}
    (scanned : Token.scan source = .ok tokens) (separator : Separator lead)
    (written : Written tokens bytes) :
    (∃ program other, parse source = .ok program ∧ parse (lead ++ bytes) = .ok other ∧
      program.eraseLines = other.eraseLines) ∨
    (∃ fault other, parse source = .error fault ∧ parse (lead ++ bytes) = .error other ∧
      fault.kind = other.kind ∧ fault.message = other.message ∧ fault.hint? = other.hint?) := by
  obtain ⟨places, rfl, laid⟩ := Laid.of_scan scanned
  have reads := separator.reads (laid.reads written)
  have same := (parse_of_scan scanned).trans reads.parse.symm
  cases first : parse source with
  | ok program =>
    cases second : parse (lead ++ bytes) with
    | ok other =>
      rw [first, second] at same
      exact .inl ⟨program, other, rfl, rfl, Except.ok.inj same⟩
    | error other =>
      rw [first, second] at same
      cases same
  | error fault =>
    cases second : parse (lead ++ bytes) with
    | ok other =>
      rw [first, second] at same
      cases same
    | error other =>
      rw [first, second] at same
      injection same with unplaced
      have cause : fault.cause = other.cause := (congrArg Fault.cause unplaced :)
      exact .inr ⟨fault, other, rfl, rfl, by rw [Fault.kind, cause, Fault.kind],
        by rw [Fault.message, cause, Fault.message], by rw [Fault.hint?, cause, Fault.hint?]⟩

/-- A source that walks one step. -/
def plainSource : List UInt8 := Text.utf8 "(forward)"

/-- The tokens of that source. -/
def plainTokens : List Token :=
  [⟨.opening, "(", ⟨1, 1⟩⟩, ⟨.symbol, "forward", ⟨1, 2⟩⟩, ⟨.closing, ")", ⟨1, 9⟩⟩,
    ⟨.endOfInput, "", ⟨1, 10⟩⟩]

/-- The same tokens in another spelling. -/
def looseSource : List UInt8 := Text.utf8 "( FORward//(\n\t)"

/-- `looseSource` is `plainTokens` written out in another way. -/
theorem written_looseSource : Written plainTokens looseSource := by
  have parts : looseSource =
      [0x28] ++ [0x20] ++ ([0x46, 0x4f, 0x52, 0x77, 0x61, 0x72, 0x64] ++
        ([0x2f, 0x2f] ++ [0x28] ++ [0x0a, 0x09]) ++ ([0x29] ++ [] ++ [])) := by
    decide +kernel
  have comment : Separator ([0x2f, 0x2f] ++ [0x28] ++ [0x0a, 0x09]) :=
    .comment (by decide) (by decide) (.space rfl .nil)
  rw [parts]
  refine .token (by decide +kernel) (.space rfl .nil) (fun none => absurd none (by decide)) ?_
  refine .token (by decide +kernel) comment (fun none => absurd none (by decide)) ?_
  exact .token (by decide +kernel) .nil (fun _ => rfl) (.stop rfl)

/-- The program of `looseSource` is that of `plainSource` up to lines. -/
theorem Program.parse_respelled_loose :
    Token.scan plainSource = .ok plainTokens ∧ Separator [] ∧ Written plainTokens looseSource ∧
      ∃ program other, parse plainSource = .ok program ∧ parse looseSource = .ok other ∧
        program.eraseLines = other.eraseLines := by
  have scanned : Token.scan plainSource = .ok plainTokens := eq_ok_of_toOption (by decide +kernel)
  have parsed : parse plainSource = .ok ⟨[.command .forward 1], 1⟩ :=
    eq_ok_of_toOption (by decide +kernel)
  refine ⟨scanned, .nil, written_looseSource, ?_⟩
  rcases parse_respelled scanned .nil written_looseSource with both | ⟨fault, other, failed, -⟩
  · exact both
  · cases parsed.symm.trans failed

end MazeRobot
