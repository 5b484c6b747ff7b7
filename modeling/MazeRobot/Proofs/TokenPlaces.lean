import MazeRobot.Proofs.WellFormed

/-! # The places of tokens

A scanner goes through a source once, from the left, and keeps a line and a column as it goes. This
module says what it finds without going through the source: which bytes are in comments, which line
and column an offset has, and what it takes for a token to stand at an offset. The tokens of a
source then account for all of its bytes.

* `TokenClass.accepts`, `TokenClass.extendedBy`: the texts of a class, and the bytes that would make
  them longer.
* `accepts_of_lexeme?`, `lexeme?_of_accepts`: a lexeme is a text of its class, as long as it can be.
* `Mark.ofOffset`: the line and the column of an offset.
* `InComment`, `Blank`, `Stray`: the bytes of a source that belong to no token.
* `Token.StandsAt`: a token at an offset.
* `Laid`: tokens from an offset to the end, with nothing but blanks between them.
* `Token.scan_accounts`: what scanning finds. -/

namespace MazeRobot

/-! ## Classes of texts -/

/-- Whether bytes are one number: digits, perhaps after a minus sign. -/
def isNumberText : List UInt8 → Bool
  | [] => false
  | b :: rest => (isDigitByte b || (b == 0x2d && !rest.isEmpty)) && rest.all isDigitByte

/-- Whether a byte can stand in a token: a parenthesis, a digit, an ASCII letter, `_` or `-`. -/
def isTokenByte (b : UInt8) : Bool := b == 0x28 || b == 0x29 || isSymbolByte b

namespace TokenClass

/-- Whether bytes are the text of a token of the class. -/
def accepts : TokenClass → List UInt8 → Bool
  | endOfInput, bytes => bytes == []
  | opening, bytes => bytes == [0x28]
  | closing, bytes => bytes == [0x29]
  | number, bytes => isNumberText bytes
  | symbol, bytes => isSymbolText bytes

/-- Whether a byte after a token of the class would belong to the token. -/
def extendedBy : TokenClass → UInt8 → Bool
  | number, b => isDigitByte b
  | symbol, b => isSymbolByte b
  | _, _ => false

/-- `accepts` takes the empty text for the end mark only. -/
theorem ne_nil_of_accepts {cls : TokenClass} {bytes : List UInt8} (accepted : cls.accepts bytes)
    (some : cls ≠ endOfInput) : bytes ≠ [] := by
  rintro rfl
  cases cls with
  | endOfInput => exact some rfl
  | _ => cases accepted

/-- The texts that a class `accepts` consist of bytes with `isTokenByte`. -/
theorem isTokenByte_of_accepts {cls : TokenClass} {bytes : List UInt8}
    (accepted : cls.accepts bytes) : ∀ b ∈ bytes, isTokenByte b := by
  have symbols : bytes.all isSymbolByte → ∀ b ∈ bytes, isTokenByte b := fun all b member => by
    simp [isTokenByte, List.all_eq_true.mp all b member]
  cases cls with
  | endOfInput => simp [beq_iff_eq.mp accepted]
  | opening => simp [beq_iff_eq.mp accepted, isTokenByte]
  | closing => simp [beq_iff_eq.mp accepted, isTokenByte]
  | symbol => exact symbols (all_of_isSymbolText accepted)
  | number =>
    refine symbols ?_
    cases bytes with
    | nil => rfl
    | cons b rest =>
      simp only [accepts, isNumberText, Bool.and_eq_true, Bool.or_eq_true, beq_iff_eq] at accepted
      obtain ⟨first, digits⟩ := accepted
      have head : isSymbolByte b := by
        rcases first with digit | ⟨rfl, -⟩
        · exact isSymbolByte_of_isDigitByte digit
        · decide
      have tail : rest.all isSymbolByte := List.all_eq_true.mpr fun c member =>
        isSymbolByte_of_isDigitByte (List.all_eq_true.mp digits c member)
      rw [List.all_cons, head, tail]
      rfl

end TokenClass

/-- `isTokenByte` holds of ASCII bytes only. -/
theorem isTokenByte_ascii {b : UInt8} (token : isTokenByte b) : b < 0x80 := by
  simp only [isTokenByte, Bool.or_eq_true, beq_iff_eq] at token
  rcases token with (rfl | rfl) | symbol
  · decide
  · decide
  · exact isSymbolByte_ascii symbol

/-- A byte with `isTokenByte` is no white space and opens no comment. -/
theorem not_blank_of_isTokenByte {b : UInt8} (token : isTokenByte b) :
    isSpaceByte b = false ∧ b ≠ 0x0a ∧ b ≠ 0x3b ∧ b ≠ 0x23 ∧ b ≠ 0x2f := by
  have other : ∀ {c : UInt8}, isTokenByte c = false → b ≠ c := by
    rintro c no rfl
    cases no.symm.trans token
  refine ⟨?_, other rfl, other rfl, other rfl, other rfl⟩
  unfold isTokenByte isSymbolByte isLetterByte isDigitByte at token
  unfold isSpaceByte
  grind

/-- What follows the bytes of a class from the front on does not belong to it. -/
theorem head?_dropWhile_any (p : UInt8 → Bool) (bytes : List UInt8) :
    (bytes.dropWhile p).head?.any p = false := by
  have stop := List.head?_dropWhile_not p bytes
  cases found : (bytes.dropWhile p).head? with
  | none => rfl
  | some b =>
    rw [found] at stop
    simpa using stop

/-- A lexeme that `lexeme?` finds is a text of its class, and as long as it can be. -/
theorem accepts_of_lexeme? {b : UInt8} {rest : List UInt8} {lex : Lexeme}
    (found : lexeme? b rest = some lex) :
    lex.cls ≠ .endOfInput ∧ lex.cls.accepts lex.bytes ∧
      lex.rest.head?.any lex.cls.extendedBy = false := by
  have symbol := isSymbolText_of_lexeme? found
  unfold lexeme? at found
  split at found
  · next paren =>
    cases found
    exact ⟨TokenClass.noConfusion, by simpa [TokenClass.accepts] using paren, by cases rest <;> rfl⟩
  · split at found
    · next paren =>
      cases found
      exact ⟨TokenClass.noConfusion, by simpa [TokenClass.accepts] using paren,
        by cases rest <;> rfl⟩
    · split at found
      · next number =>
        cases found
        refine ⟨TokenClass.noConfusion, ?_, head?_dropWhile_any isDigitByte rest⟩
        have digits : (rest.takeWhile isDigitByte).all isDigitByte := List.all_takeWhile
        rw [TokenClass.accepts, isNumberText, digits, Bool.and_true]
        simp only [Bool.or_eq_true, Bool.and_eq_true] at number ⊢
        -- After a minus sign there is at least one digit.
        refine number.imp_right (And.imp_right fun digit => ?_)
        cases rest with
        | nil => cases digit
        | cons c rest =>
          rw [List.takeWhile_cons_of_pos (show isDigitByte c = true from digit)]
          rfl
      · split at found
        · cases found
          exact ⟨TokenClass.noConfusion, symbol rfl, head?_dropWhile_any isSymbolByte rest⟩
        · cases found

/-- `lexeme?` reads bytes that a class `accepts` as they stand if what follows cannot belong to
them. -/
theorem lexeme?_of_accepts {cls : TokenClass} {b : UInt8} {bytes rest : List UInt8}
    (accepted : cls.accepts (b :: bytes)) (maximal : rest.head?.any cls.extendedBy = false) :
    lexeme? b (bytes ++ rest) = some ⟨cls, b :: bytes, rest⟩ := by
  cases cls with
  | endOfInput => cases accepted
  | opening =>
    cases beq_iff_eq.mp accepted
    rfl
  | closing =>
    cases beq_iff_eq.mp accepted
    rfl
  | symbol =>
    refine lexeme?_of_isSymbolText accepted ?_
    cases rest with
    | nil => rfl
    | cons c rest => simpa [isDelimited, TokenClass.extendedBy] using maximal
  | number =>
    simp only [TokenClass.accepts, isNumberText, Bool.and_eq_true] at accepted
    obtain ⟨first, digits⟩ := accepted
    have noParenthesis : (b == 0x28) = false ∧ (b == 0x29) = false := by
      unfold isDigitByte at first
      grind
    have number :
        (isDigitByte b || (b == 0x2d && (bytes ++ rest).head?.any isDigitByte)) = true := by
      simp only [Bool.or_eq_true, Bool.and_eq_true] at first ⊢
      refine first.imp_right (And.imp_right fun more => ?_)
      cases bytes with
      | nil => cases more
      | cons c bytes => exact List.all_eq_true.mp digits c List.mem_cons_self
    obtain ⟨taken, left⟩ := takeWhile_append_of_stop digits maximal
    unfold lexeme?
    rw [noParenthesis.1, noParenthesis.2, number, taken, left]
    rfl

/-- `lexeme?` finds nothing at a byte exactly if it cannot stand in a token. -/
theorem lexeme?_eq_none_iff {b : UInt8} {rest : List UInt8} :
    lexeme? b rest = none ↔ isTokenByte b = false := by
  constructor
  · intro none
    unfold lexeme? at none
    unfold isTokenByte isSymbolByte
    grind
  · intro other
    cases found : lexeme? b rest with
    | none => rfl
    | some lex =>
      have front := lexeme?_append found
      obtain ⟨-, accepted, -⟩ := accepts_of_lexeme? found
      cases bytes : lex.bytes with
      | nil => exact absurd bytes (lexeme?_bytes_ne_nil found)
      | cons c others =>
        rw [bytes] at front accepted
        have token := TokenClass.isTokenByte_of_accepts accepted c List.mem_cons_self
        rw [(List.cons.inj front).1, other] at token
        cases token

/-! ## Lines and columns -/

namespace Mark

/-- The place after some bytes. -/
def past (before : List UInt8) : Mark :=
  ⟨1 + before.count 0x0a, 1 + (before.reverse.takeWhile (· != 0x0a)).length⟩

/-- The place of an offset: its line is one more than the number of line breaks before it, its
column one more than the number of bytes since the last of them. -/
def ofOffset (source : List UInt8) (offset : Nat) : Mark := past (source.take offset)

/-- `past` one byte more. -/
theorem past_append_singleton (before : List UInt8) (b : UInt8) :
    past (before ++ [b]) = (past before).after b := by
  unfold after
  split
  · next same =>
    subst same
    simp [past, Nat.add_assoc]
  · next other =>
    have kept : (b != 0x0a) = true := bne_iff_ne.mpr other
    simp [past, right, List.count_append, other, kept, Nat.add_assoc]

/-- `past` bytes without a line break only the column moves. -/
theorem past_append_of_notMem (before : List UInt8) {bytes : List UInt8} (none : 0x0a ∉ bytes) :
    past (before ++ bytes) = (past before).right bytes.length := by
  induction bytes generalizing before with
  | nil => simp [right]
  | cons b bytes ih =>
    obtain ⟨first, rest⟩ := not_or.mp (mt List.mem_cons.mpr none)
    have moved : (past before).after b = (past before).right 1 := if_neg (Ne.symm first)
    rw [← List.singleton_append, ← List.append_assoc, ih _ rest, past_append_singleton, moved]
    simp [right, Nat.add_assoc, Nat.add_comm 1]

variable {source : List UInt8} {p : Nat}

/-- `ofOffset` of the next offset. -/
theorem ofOffset_succ {b : UInt8} (found : source[p]? = some b) :
    ofOffset source (p + 1) = (ofOffset source p).after b := by
  rw [ofOffset, List.take_add_one, found]
  exact past_append_singleton _ b

/-- `ofOffset` after bytes without a line break. -/
theorem ofOffset_add {bytes rest : List UInt8} (front : source.drop p = bytes ++ rest)
    (none : 0x0a ∉ bytes) :
    ofOffset source (p + bytes.length) = (ofOffset source p).right bytes.length := by
  rw [ofOffset, List.take_add, front, List.take_left]
  exact past_append_of_notMem _ none

end Mark

/-! ## Comments and blanks -/

/-- The first of the bytes from an offset on stands at the offset. -/
theorem getElem?_of_drop_eq_cons {source rest : List UInt8} {i : Nat} {b : UInt8}
    (front : source.drop i = b :: rest) : source[i]? = some b ∧ source.drop (i + 1) = rest := by
  constructor
  · rw [← List.head?_drop, front]
    rfl
  · rw [← List.drop_drop, front]
    rfl

section Blanks

variable (source : List UInt8)

/-- A comment is opened by `;`, by `#` and by `//`. -/
def OpensComment (i : Nat) : Prop :=
  source[i]? = some 0x3b ∨ source[i]? = some 0x23 ∨
    source[i]? = some 0x2f ∧ source[i + 1]? = some 0x2f

/-- A byte is in a comment if one was opened at it or before it, with no line break since. -/
def InComment (i : Nat) : Prop :=
  ∃ j ≤ i, OpensComment source j ∧ ∀ k ≤ i, j ≤ k → source[k]? ≠ some 0x0a

/-- A comment that goes on from the byte before an offset. -/
def CommentAt : Nat → Prop
  | 0 => False
  | i + 1 => InComment source i

/-- White space, or a byte of a comment. -/
def Blank (i : Nat) : Prop :=
  InComment source i ∨ ∃ b, source[i]? = some b ∧ isSpaceByte b = true

/-- A byte outside comments that is no white space and cannot stand in a token. -/
def Stray (i : Nat) : Prop :=
  ∃ b, source[i]? = some b ∧ ¬ InComment source i ∧ isSpaceByte b = false ∧ isTokenByte b = false

instance (i : Nat) : Decidable (OpensComment source i) := inferInstanceAs (Decidable (_ ∨ _))

instance (i : Nat) : Decidable (InComment source i) :=
  inferInstanceAs (Decidable (∃ j, j ≤ i ∧ _))

instance (i : Nat) : Decidable (Stray source i) :=
  decidable_of_iff
    (source[i]?.any (fun b => !isSpaceByte b && !isTokenByte b) = true ∧ ¬ InComment source i) (by
      cases found : source[i]? <;> simp [Stray, found, and_comm])

variable {source} {i : Nat}

/-- A byte is `InComment` if the comment goes on to it or is opened at it. -/
theorem inComment_iff :
    InComment source i ↔
      source[i]? ≠ some 0x0a ∧ (CommentAt source i ∨ OpensComment source i) := by
  constructor
  · rintro ⟨j, le, opened, unbroken⟩
    refine ⟨unbroken i (Nat.le_refl i) le, ?_⟩
    rcases Nat.eq_or_lt_of_le le with rfl | lt
    · exact .inr opened
    · obtain ⟨i, rfl⟩ := Nat.exists_eq_succ_of_ne_zero (Nat.ne_of_gt (Nat.zero_lt_of_lt lt))
      exact .inl ⟨j, Nat.le_of_lt_succ lt, opened,
        fun k below => unbroken k (Nat.le_succ_of_le below)⟩
  · rintro ⟨unbroken, before | opened⟩
    · cases i with
      | zero => cases before
      | succ i =>
        obtain ⟨j, le, opened, earlier⟩ := before
        refine ⟨j, Nat.le_succ_of_le le, opened, fun k below since => ?_⟩
        rcases Nat.eq_or_lt_of_le below with rfl | lt
        · exact unbroken
        · exact earlier k (Nat.le_of_lt_succ lt) since
    · refine ⟨i, Nat.le_refl i, opened, fun k below since => ?_⟩
      rw [Nat.le_antisymm below since]
      exact unbroken

/-- `OpensComment` holds where the scanner sees a comment start, as told by `startsComment`. -/
theorem opensComment_iff {b : UInt8} {rest : List UInt8} (front : source.drop i = b :: rest) :
    OpensComment source i ↔ startsComment b rest = true := by
  obtain ⟨first, next⟩ := getElem?_of_drop_eq_cons front
  have second : source[i + 1]? = rest.head? := by rw [← List.head?_drop, next]
  rw [OpensComment, first, second]
  simp [startsComment, or_assoc]

/-- A byte that is `Blank` is not `Stray`. -/
theorem Blank.not_stray (blank : Blank source i) : ¬ Stray source i := by
  rintro ⟨b, found, outside, noSpace, -⟩
  rcases blank with inside | ⟨c, same, space⟩
  · exact outside inside
  · cases found.symm.trans same
    cases noSpace.symm.trans space

/-- Where a byte is not `Blank` there is no `CommentAt` it. -/
theorem not_commentAt_of_not_blank (bare : ¬ Blank source i) : ¬ CommentAt source i := by
  intro before
  have unbroken : source[i]? ≠ some 0x0a := fun same => bare (.inr ⟨0x0a, same, rfl⟩)
  exact bare (.inl (inComment_iff.mpr ⟨unbroken, .inl before⟩))

/-- There is no `CommentAt` the offset after a byte of a token. -/
theorem not_commentAt_succ {b : UInt8} (found : source[i]? = some b) (token : isTokenByte b)
    (before : ¬ CommentAt source i) : ¬ CommentAt source (i + 1) := by
  obtain ⟨-, -, semicolon, hash, slash⟩ := not_blank_of_isTokenByte token
  intro inside
  rcases (inComment_iff.mp inside).2 with goesOn | opened
  · exact before goesOn
  · simp [OpensComment, found, semicolon, hash, slash] at opened

/-- There is no `CommentAt` an offset inside a token or right after it. -/
theorem not_commentAt_add {bytes rest : List UInt8} (front : source.drop i = bytes ++ rest)
    (token : ∀ b ∈ bytes, isTokenByte b) (before : ¬ CommentAt source i) :
    ∀ k ≤ bytes.length, ¬ CommentAt source (i + k) := by
  intro k le
  induction k with
  | zero => exact before
  | succ k ih =>
    have found : source[i + k]? = some bytes[k] := by
      rw [← List.getElem?_drop, front, List.getElem?_append_left le]
      exact List.getElem?_eq_getElem le
    exact not_commentAt_succ found (token _ (List.getElem_mem le)) (ih (Nat.le_of_succ_le le))

/-- The first byte from an offset on that is not blank, or the end of the source. -/
structure NextBare (source : List UInt8) (p q : Nat) : Prop where
  above : p ≤ q
  below : q ≤ source.length
  blank : ∀ i, p ≤ i → i < q → Blank source i
  bare : q < source.length → ¬ Blank source q

/-- A byte that is not blank is the `NextBare` one from its own offset on. -/
theorem NextBare.here {p : Nat} (le : p ≤ source.length)
    (bare : p < source.length → ¬ Blank source p) : NextBare source p p :=
  ⟨Nat.le_refl p, le, fun _ above below => absurd above (Nat.not_le_of_lt below), bare⟩

/-- A byte that is `Blank` is passed on the way to the `NextBare` one. -/
theorem NextBare.pass {p q : Nat} (blank : Blank source p) (next : NextBare source (p + 1) q) :
    NextBare source p q := by
  refine ⟨Nat.le_of_succ_le next.above, next.below, fun i above below => ?_, next.bare⟩
  rcases Nat.eq_or_lt_of_le above with rfl | later
  · exact blank
  · exact next.blank i later below

end Blanks

/-- `startsComment` is false of white space. -/
theorem startsComment_of_isSpaceByte {b : UInt8} (space : isSpaceByte b) (rest : List UInt8) :
    startsComment b rest = false := by
  have others : b ≠ 0x3b ∧ b ≠ 0x23 ∧ b ≠ 0x2f := by
    unfold isSpaceByte at space
    grind
  simp [startsComment, others]

namespace Lexer

/-- The scanner at an offset of a source. -/
def atOffset (source : List UInt8) (p : Nat) : Lexer := ⟨.ofOffset source p, source.drop p⟩

/-- **`skip` goes to the next byte that is not blank.** -/
theorem exists_skip {source : List UInt8} {inComment : Bool} {p : Nat} (le : p ≤ source.length)
    (state : inComment = true ↔ CommentAt source p) :
    ∃ q, NextBare source p q ∧
      skip inComment (.ofOffset source p) (source.drop p) = atOffset source q := by
  induction front : source.drop p generalizing inComment p with
  | nil =>
    have ended := List.drop_eq_nil_iff.mp front
    refine ⟨p, .here le fun more => absurd ended (Nat.not_le_of_lt more), ?_⟩
    rw [atOffset, front]
    rfl
  | cons b rest ih =>
    obtain ⟨found, next⟩ := getElem?_of_drop_eq_cons front
    have opens := opensComment_iff front
    have comment : InComment source p ↔ b ≠ 0x0a ∧ (inComment = true ∨ startsComment b rest) := by
      rw [inComment_iff, found, state, opens, ne_eq, Option.some_inj]
    -- The state of the scanner after the byte says whether the byte is in a comment.
    have pass : ∀ {after : Bool}, (after = true ↔ InComment source p) → Blank source p →
        ∃ q, NextBare source p q ∧
          skip after ((Mark.ofOffset source p).after b) rest = atOffset source q := by
      intro after state blank
      obtain ⟨q, bare, skipped⟩ := ih (List.getElem?_eq_some_iff.mp found).1 state next
      exact ⟨q, bare.pass blank, Mark.ofOffset_succ found ▸ skipped⟩
    cases inComment with
    | true =>
      have state : (b != 0x0a) = true ↔ InComment source p := by simp [comment]
      rw [skip, if_pos rfl]
      refine pass state ?_
      cases broken : b != 0x0a with
      | true => exact .inl (state.mp broken)
      | false => exact .inr ⟨b, found, by rw [bne_eq_false_iff_eq.mp broken]; rfl⟩
    | false =>
      rw [skip, if_neg Bool.false_ne_true]
      split
      · next space =>
        refine pass ?_ (.inr ⟨b, found, space⟩)
        simp [comment, startsComment_of_isSpaceByte space]
      · next noSpace =>
        have unbroken : b ≠ 0x0a := by
          rintro rfl
          exact noSpace rfl
        split
        · next starts =>
          have inside : InComment source p := comment.mpr ⟨unbroken, .inr starts⟩
          exact pass (iff_of_true rfl inside) (.inl inside)
        · next none =>
          refine ⟨p, .here le fun _ blank => ?_, by rw [atOffset, front]⟩
          rcases blank with inside | ⟨c, same, space⟩
          · simp [comment, none] at inside
          · cases found.symm.trans same
            exact noSpace space

end Lexer

/-! ## Tokens at offsets -/

namespace Token

/-- The number of bytes of a token. -/
def size (token : Token) : Nat := (Text.utf8 token.literal).length

/-- A token at an offset of a source. The bytes from there on are its text, up to letter case; they
are a text of its class, outside comments, and the byte after them would not belong to it. Its place
is that of the offset. -/
structure StandsAt (source : List UInt8) (token : Token) (offset : Nat) : Prop where
  spelled : ((source.drop offset).take token.size).map lowerByte = Text.utf8 token.literal
  accepted : token.cls.accepts ((source.drop offset).take token.size) = true
  outside : ∀ i, offset ≤ i → i < offset + token.size → ¬ InComment source i
  maximal : source[offset + token.size]?.any token.cls.extendedBy = false
  placed : token.mark = .ofOffset source offset

variable {source : List UInt8} {q : Nat}

/-- The end mark `StandsAt` the end. -/
theorem standsAt_end (source : List UInt8) :
    StandsAt source ⟨.endOfInput, "", .ofOffset source source.length⟩ source.length where
  spelled := by simp
  accepted := by simp [TokenClass.accepts]
  outside i above below := absurd above (Nat.not_le_of_lt (by simpa [size] using below))
  maximal := by simp [size]
  placed := rfl

/-- The `size` of the token of a lexeme is the number of its bytes. -/
theorem size_of_accepts {cls : TokenClass} {bytes : List UInt8} (accepted : cls.accepts bytes)
    (mark : Mark) : size ⟨cls, foldedText bytes, mark⟩ = bytes.length := by
  have ascii : ∀ b ∈ bytes, b < 0x80 := fun b member =>
    isTokenByte_ascii (TokenClass.isTokenByte_of_accepts accepted b member)
  rw [size, utf8_foldedText_of_ascii ascii, List.length_map]

/-- The token of a lexeme outside comments `StandsAt` the offset where it was found. -/
theorem standsAt_of_accepts {lex : Lexeme} (front : source.drop q = lex.bytes ++ lex.rest)
    (accepted : lex.cls.accepts lex.bytes)
    (maximal : lex.rest.head?.any lex.cls.extendedBy = false) (clear : ¬ CommentAt source q) :
    StandsAt source ⟨lex.cls, foldedText lex.bytes, .ofOffset source q⟩ q := by
  have tokens := TokenClass.isTokenByte_of_accepts accepted
  have size := size_of_accepts accepted (.ofOffset source q)
  have after : source[q + lex.bytes.length]? = lex.rest.head? := by
    rw [← List.head?_drop, ← List.drop_drop, front, List.drop_left]
  -- As the bytes are ASCII, the text in lower case has as many bytes.
  constructor
  · rw [size, front, List.take_left]
    exact (utf8_foldedText_of_ascii fun b member => isTokenByte_ascii (tokens b member)).symm
  · rw [size, front, List.take_left]
    exact accepted
  · intro i above below
    rw [size] at below
    obtain ⟨k, rfl⟩ := Nat.exists_eq_add_of_le above
    exact not_commentAt_add front tokens clear (k + 1) (by omega)
  · rw [size, after]
    exact maximal
  · rfl

/-- The bytes of a token that `StandsAt` an offset are not `Stray`. -/
theorem StandsAt.not_stray {token : Token} (stands : token.StandsAt source q) {i : Nat}
    (above : q ≤ i) (below : i < q + token.size) : ¬ Stray source i := by
  rintro ⟨b, found, -, -, other⟩
  obtain ⟨k, rfl⟩ := Nat.exists_eq_add_of_le above
  have member : b ∈ (source.drop q).take token.size := by
    refine List.mem_of_getElem? (i := k) ?_
    rw [List.getElem?_take_of_lt (by omega), List.getElem?_drop]
    exact found
  cases (TokenClass.isTokenByte_of_accepts stands.accepted b member).symm.trans other

/-- The `size` of a token that is not the end mark is positive. -/
theorem StandsAt.size_pos {token : Token} (stands : token.StandsAt source q)
    (some : token.cls ≠ .endOfInput) : 0 < token.size := by
  refine Nat.pos_of_ne_zero fun zero => ?_
  refine TokenClass.ne_nil_of_accepts stands.accepted some ?_
  rw [zero, List.take_zero]

end Token

namespace Lexer

variable {source : List UInt8} {p : Nat}

/-- The fault of a stray byte: the character there, at its place. -/
def strayFault (source : List UInt8) (i : Nat) : Fault :=
  ⟨.strayCharacter (Text.leading (source.drop i)).1, (Mark.ofOffset source i).line,
    (Mark.ofOffset source i).column⟩

/-- What reading finds at an offset. -/
inductive Finds (source : List UInt8) (q : Nat) : Reading → Prop where
  | token {token : Token} (stands : token.StandsAt source q) (some : token.cls ≠ .endOfInput)
      (below : q + token.size ≤ source.length) (clear : ¬ CommentAt source (q + token.size)) :
      Finds source q (.token token (atOffset source (q + token.size)))
  | finished (ended : q = source.length) :
      Finds source q (.finished ⟨.endOfInput, "", .ofOffset source q⟩ (atOffset source q))
  | stuck (stray : Stray source q) :
      Finds source q (.stuck (strayFault source q) (atOffset source q))

/-- `Finds` holds of a lexeme outside comments and its token. -/
theorem finds_lexeme {q : Nat} {lex : Lexeme} (below : q ≤ source.length)
    (front : source.drop q = lex.bytes ++ lex.rest) (some : lex.cls ≠ .endOfInput)
    (accepted : lex.cls.accepts lex.bytes)
    (maximal : lex.rest.head?.any lex.cls.extendedBy = false) (clear : ¬ CommentAt source q) :
    Finds source q (.token ⟨lex.cls, foldedText lex.bytes, .ofOffset source q⟩
      ⟨(Mark.ofOffset source q).right lex.bytes.length, lex.rest⟩) := by
  have tokens := TokenClass.isTokenByte_of_accepts accepted
  have size := Token.size_of_accepts accepted (.ofOffset source q)
  have fits : q + lex.bytes.length ≤ source.length := by
    have lengths := congrArg List.length front
    rw [List.length_drop, List.length_append] at lengths
    omega
  -- A token stays on its line, so the scanner only moves the column.
  have after : atOffset source (q + lex.bytes.length) =
      ⟨(Mark.ofOffset source q).right lex.bytes.length, lex.rest⟩ := by
    have unbroken : 0x0a ∉ lex.bytes := fun member =>
      (not_blank_of_isTokenByte (tokens _ member)).2.1 rfl
    rw [atOffset, Mark.ofOffset_add front unbroken, ← List.drop_drop, front, List.drop_left]
  have finds := Finds.token (Token.standsAt_of_accepts front accepted maximal clear) some
    (size ▸ fits) (size ▸ not_commentAt_add front tokens clear _ (Nat.le_refl _))
  rw [size, after] at finds
  exact finds

/-- **`read` goes to the next byte that is not blank and `Finds` the token there.** -/
theorem exists_finds (le : p ≤ source.length) (clear : ¬ CommentAt source p) :
    ∃ q, NextBare source p q ∧ Finds source q (atOffset source p).read := by
  obtain ⟨q, next, skipped⟩ := exists_skip le (iff_of_false Bool.false_ne_true clear)
  have start : skip false (atOffset source p).mark (atOffset source p).rest =
      ⟨.ofOffset source q, source.drop q⟩ := skipped
  refine ⟨q, next, ?_⟩
  unfold read
  simp only [start]
  cases front : source.drop q with
  | nil =>
    have finds := Finds.finished (Nat.le_antisymm next.below (List.drop_eq_nil_iff.mp front))
    rw [atOffset, front] at finds
    exact finds
  | cons b rest =>
    obtain ⟨found, -⟩ := getElem?_of_drop_eq_cons front
    have bare := next.bare (List.getElem?_eq_some_iff.mp found).1
    cases lexed : lexeme? b rest with
    | none =>
      have noSpace : isSpaceByte b = false := Bool.eq_false_iff.mpr fun space =>
        bare (.inr ⟨b, found, space⟩)
      have finds := Finds.stuck
        ⟨b, found, fun inside => bare (.inl inside), noSpace, lexeme?_eq_none_iff.mp lexed⟩
      rw [strayFault, atOffset, front] at finds
      simp only [lexed]
      exact finds
    | some lex =>
      obtain ⟨some, accepted, maximal⟩ := accepts_of_lexeme? lexed
      simp only [lexed]
      exact finds_lexeme next.below (front.trans (lexeme?_append lexed).symm) some accepted maximal
        (not_commentAt_of_not_blank bare)

end Lexer

/-! ## All tokens of a source -/

/-- Tokens with their offsets, from an offset to the end of the source and with nothing but blanks
between them. The end mark comes last. -/
inductive Laid (source : List UInt8) : Nat → List (Token × Nat) → Prop where
  | stop {p : Nat} (next : NextBare source p source.length) :
      Laid source p [(⟨.endOfInput, "", .ofOffset source source.length⟩, source.length)]
  | token {p q : Nat} {token : Token} {places : List (Token × Nat)} (next : NextBare source p q)
      (stands : token.StandsAt source q) (some : token.cls ≠ .endOfInput)
      (rest : Laid source (q + token.size) places) : Laid source p ((token, q) :: places)

/-- **`scan` from an offset gives the tokens as they are `Laid` out from there on**, or stops at the
first `Stray` byte. -/
theorem Lexer.scan_atOffset {source : List UInt8} {p : Nat} (le : p ≤ source.length)
    (clear : ¬ CommentAt source p) :
    (∃ places, (atOffset source p).scan = .ok (places.map Prod.fst) ∧ Laid source p places) ∨
    ∃ i, Stray source i ∧ (∀ j, p ≤ j → j < i → ¬ Stray source j) ∧
      (atOffset source p).scan = .error (strayFault source i) := by
  -- Every token has at least one byte, so fewer bytes are left after it.
  induction remaining : source.length - p using Nat.strongRecOn generalizing p with
  | _ left ih =>
    obtain ⟨q, next, finds⟩ := exists_finds le clear
    rw [scan_eq]
    generalize (atOffset source p).read = reading at finds
    cases finds with
    | finished ended =>
      subst ended
      exact .inl ⟨_, rfl, .stop next⟩
    | stuck stray =>
      exact .inr ⟨q, stray, fun j above below => (next.blank j above below).not_stray, rfl⟩
    | @token token stands some below clear =>
      have fewer : source.length - (q + token.size) < left := by
        have := stands.size_pos some
        have := next.above
        omega
      dsimp only
      rcases ih _ fewer below clear rfl with ⟨places, scanned, laid⟩ | ⟨i, stray, first, failed⟩
      · refine .inl ⟨(token, q) :: places, ?_, .token next stands some laid⟩
        rw [scanned]
        rfl
      · -- What lies before the rest is blank or in the token, so no stray byte comes earlier.
        refine .inr ⟨i, stray, fun j above below => ?_, by rw [failed]; rfl⟩
        rcases Nat.lt_or_ge j q with before | after
        · exact (next.blank j above before).not_stray
        · rcases Nat.lt_or_ge j (q + token.size) with inside | later
          · exact stands.not_stray after inside
          · exact first j later below

/-- A source that does not `scan` has a `Stray` byte, and the fault is that of the first one. -/
theorem Token.exists_stray_of_scan {source : List UInt8} {fault : Fault}
    (failed : scan source = .error fault) :
    ∃ i, Stray source i ∧ (∀ j < i, ¬ Stray source j) ∧ fault = Lexer.strayFault source i := by
  rcases Lexer.scan_atOffset (Nat.zero_le source.length) id with
    ⟨places, scanned, -⟩ | ⟨i, stray, first, found⟩
  · cases scanned.symm.trans failed
  · exact ⟨i, stray, fun j below => first j (Nat.zero_le j) below,
      Except.error.inj (failed.symm.trans found)⟩

namespace Laid

variable {source : List UInt8} {p : Nat} {places : List (Token × Nat)}

/-- The tokens that `Token.scan` gives are `Laid` out in the source. -/
theorem of_scan {tokens : List Token} (scanned : Token.scan source = .ok tokens) :
    ∃ places : List (Token × Nat), places.map Prod.fst = tokens ∧ Laid source 0 places := by
  rcases Lexer.scan_atOffset (Nat.zero_le source.length) id with
    ⟨places, found, laid⟩ | ⟨i, -, -, failed⟩
  · exact ⟨places, Except.ok.inj (found.symm.trans scanned), laid⟩
  · cases failed.symm.trans scanned

/-- Tokens that are `Laid` out from an offset on come after it. -/
theorem above (laid : Laid source p places) : ∀ place ∈ places, p ≤ place.2 := by
  induction laid with
  | stop next =>
    intro place member
    rw [List.mem_singleton.mp member]
    exact next.above
  | token next stands some rest ih =>
    intro place member
    rcases List.mem_cons.mp member with rfl | later
    · exact next.above
    · exact Nat.le_trans next.above (Nat.le_trans (Nat.le_add_right _ _) (ih place later))

/-- Each token that is `Laid` out `StandsAt` its offset. -/
theorem standsAt (laid : Laid source p places) :
    ∀ place ∈ places, place.1.StandsAt source place.2 := by
  induction laid with
  | stop next =>
    intro place member
    rw [List.mem_singleton.mp member]
    exact Token.standsAt_end source
  | token next stands some rest ih =>
    intro place member
    rcases List.mem_cons.mp member with rfl | later
    · exact stands
    · exact ih place later

/-- Each token that is `Laid` out ends where the next one starts, or before that. -/
theorem apart (laid : Laid source p places) :
    places.Pairwise fun first second => first.2 < second.2 ∧ first.2 + first.1.size ≤ second.2 := by
  induction laid with
  | stop next => exact List.pairwise_singleton _ _
  | token next stands some rest ih =>
    refine List.pairwise_cons.mpr ⟨fun place later => ?_, ih⟩
    have after := rest.above place later
    exact ⟨Nat.lt_of_lt_of_le (Nat.lt_add_of_pos_right (stands.size_pos some)) after, after⟩

/-- Where tokens are `Laid` out every byte from the offset on is `Blank` or in a token. -/
theorem covers (laid : Laid source p places) :
    ∀ i, p ≤ i → i < source.length →
      Blank source i ∨ ∃ place ∈ places, place.2 ≤ i ∧ i < place.2 + place.1.size := by
  induction laid with
  | stop next => exact fun i above below => .inl (next.blank i above below)
  | @token p q token places next stands some rest ih =>
    intro i above below
    rcases Nat.lt_or_ge i q with before | after
    · exact .inl (next.blank i above before)
    · rcases Nat.lt_or_ge i (q + token.size) with inside | later
      · exact .inr ⟨_, List.mem_cons_self, after, inside⟩
      · refine (ih i later below).imp_right ?_
        rintro ⟨place, member, covered⟩
        exact ⟨place, List.mem_cons_of_mem _ member, covered⟩

/-- The only end mark of tokens that are `Laid` out stands last, at the end. -/
theorem last (laid : Laid source p places) :
    ∃ before, places =
        before ++ [(⟨.endOfInput, "", .ofOffset source source.length⟩, source.length)] ∧
      ∀ place ∈ before, place.1.cls ≠ .endOfInput := by
  induction laid with
  | stop next => exact ⟨[], rfl, List.forall_mem_nil _⟩
  | token next stands some rest ih =>
    obtain ⟨before, rfl, marks⟩ := ih
    exact ⟨_ :: before, rfl, List.forall_mem_cons.mpr ⟨some, marks⟩⟩

end Laid

/-- Tokens with offsets that account for every byte of a source. -/
structure Accounts (source : List UInt8) (places : List (Token × Nat)) : Prop where
  /-- The offsets increase. -/
  increasing : places.Pairwise fun first second => first.2 < second.2
  /-- No token reaches into the next one. -/
  apart : places.Pairwise fun first second => first.2 + first.1.size ≤ second.2
  /-- Each token stands at its offset. -/
  standing : ∀ place ∈ places, place.1.StandsAt source place.2
  /-- Before, between and after the tokens there are only white space and comments. -/
  others : ∀ i < source.length,
    (¬ ∃ place ∈ places, place.2 ≤ i ∧ i < place.2 + place.1.size) → Blank source i
  /-- The last token, and only that, is the end mark, at the end of the source. -/
  last : ∃ before, places =
      before ++ [(⟨.endOfInput, "", .ofOffset source source.length⟩, source.length)] ∧
    ∀ place ∈ before, place.1.cls ≠ .endOfInput

/-- Tokens that are `Laid` out from the start on are `Accounts` of every byte. -/
theorem Laid.accounts {source : List UInt8} {places : List (Token × Nat)}
    (laid : Laid source 0 places) : Accounts source places where
  increasing := laid.apart.imp And.left
  apart := laid.apart.imp And.right
  standing := laid.standsAt
  others i below outside := (laid.covers i (Nat.zero_le i) below).resolve_right outside
  last := laid.last

/-- Where there are `Accounts` of every byte, none is `Stray`. -/
theorem Accounts.not_stray {source : List UInt8} {places : List (Token × Nat)}
    (accounts : Accounts source places) (i : Nat) : ¬ Stray source i := by
  intro stray
  obtain ⟨b, found, -⟩ := id stray
  have blank := accounts.others i (List.getElem?_eq_some_iff.mp found).1 ?_
  · exact blank.not_stray stray
  · rintro ⟨place, member, above, below⟩
    exact (accounts.standing place member).not_stray above below stray

/-- **`scan` accounts for every byte of a source.** It succeeds exactly if no byte is `Stray`. Then
each token has an offset, in increasing order, at which it stands in the source, with white space
and comments in between, as `Accounts` says. Otherwise the fault is that of the first stray byte, at
its place. -/
theorem Token.scan_accounts (source : List UInt8) :
    ((∃ tokens, scan source = .ok tokens) ↔ ∀ i, ¬ Stray source i) ∧
    (∀ tokens, scan source = .ok tokens →
      ∃ places : List (Token × Nat), places.map Prod.fst = tokens ∧ Accounts source places) ∧
    (∀ fault, scan source = .error fault →
      ∃ i, Stray source i ∧ (∀ j < i, ¬ Stray source j) ∧
        fault = ⟨.strayCharacter (Text.leading (source.drop i)).1,
          (Mark.ofOffset source i).line, (Mark.ofOffset source i).column⟩) := by
  have accounts : ∀ tokens, scan source = .ok tokens →
      ∃ places : List (Token × Nat), places.map Prod.fst = tokens ∧ Accounts source places := by
    intro tokens scanned
    obtain ⟨places, all, laid⟩ := Laid.of_scan scanned
    exact ⟨places, all, laid.accounts⟩
  refine ⟨⟨?_, fun none => ?_⟩, accounts, fun fault failed => ?_⟩
  · rintro ⟨tokens, scanned⟩
    obtain ⟨places, -, accounts⟩ := accounts tokens scanned
    exact accounts.not_stray
  · rcases Lexer.scan_atOffset (Nat.zero_le source.length) id with
      ⟨places, scanned, -⟩ | ⟨i, stray, -⟩
    · exact ⟨_, scanned⟩
    · exact absurd stray (none i)
  · rcases Lexer.scan_atOffset (Nat.zero_le source.length) id with
      ⟨places, scanned, -⟩ | ⟨i, stray, first, found⟩
    · cases scanned.symm.trans failed
    · refine ⟨i, stray, fun j below => first j (Nat.zero_le j) below, ?_⟩
      exact Except.error.inj (failed.symm.trans found)

/-- A source in which tokens touch each other and comments. -/
def touchingSource : List UInt8 := Text.utf8 "(Go -2b);/\n#("

/-- Its tokens. The minus sign belongs to the number, and the letter after that is a symbol. -/
def touchingTokens : List Token :=
  [⟨.opening, "(", ⟨1, 1⟩⟩, ⟨.symbol, "go", ⟨1, 2⟩⟩, ⟨.number, "-2", ⟨1, 5⟩⟩,
    ⟨.symbol, "b", ⟨1, 7⟩⟩, ⟨.closing, ")", ⟨1, 8⟩⟩, ⟨.endOfInput, "", ⟨2, 3⟩⟩]

/-- The tokens of `touchingSource` account for every byte, also for the parenthesis in the
comment. -/
theorem Token.scan_accounts_touching :
    scan touchingSource = .ok touchingTokens ∧
      ∃ places : List (Token × Nat), places.map Prod.fst = touchingTokens ∧
        Accounts touchingSource places := by
  have scanned : scan touchingSource = .ok touchingTokens := eq_ok_of_toOption (by decide +kernel)
  obtain ⟨-, accounts, -⟩ := Token.scan_accounts touchingSource
  exact ⟨scanned, accounts _ scanned⟩

example : Stray (Text.utf8 "a ;/\n/") 5 ∧ ∀ i < 5, ¬ Stray (Text.utf8 "a ;/\n/") i := by
  decide +kernel

end MazeRobot
