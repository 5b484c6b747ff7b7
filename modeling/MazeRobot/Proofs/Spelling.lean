import MazeRobot.Proofs.Canonical

/-! # Forms and the tokens that spell them

Grouping keeps open lists on a stack and gives up at a parenthesis without a partner. It gives some
forms exactly if the tokens spell them: a symbol and a number by one token each, and a list by an
opening parenthesis, the tokens of its items and a closing one.

* `Form.Spells`: the tokens that spell a form.
* `Lexer.exists_stop_of_scan`: the tokens of a source end with the only end mark.
* `Form.groupFrom_of_spells`: grouping tokens that spell a form finishes the form.
* `Form.Grouping.Holds`: the tokens that a state of grouping has taken in.
* `Form.GroupsTo`: how grouping can end, at a stray closing parenthesis or with all tokens taken in.
* `Form.read_eq_ok_iff`: the forms of a source are those that its tokens spell. -/

namespace MazeRobot

/-! ## Spelling -/

namespace Form

mutual

/-- The tokens that spell a form. A minus sign can only come first in a number. -/
def Spells : Form → List Token → Prop
  | symbol name mark, tokens => tokens = [⟨.symbol, name, mark⟩]
  | number text mark, tokens => tokens = [⟨.number, text, mark⟩] ∧ '-' ∉ text.toList.tail
  | list items mark, tokens =>
    ∃ opening inner closing, tokens = opening :: (inner ++ [closing]) ∧ opening.cls = .opening ∧
      opening.mark = mark ∧ closing.cls = .closing ∧ SpellsAll items inner

/-- The tokens that spell forms in a row. -/
def SpellsAll : List Form → List Token → Prop
  | [], tokens => tokens = []
  | form :: forms, tokens =>
    ∃ first rest, tokens = first ++ rest ∧ Spells form first ∧ SpellsAll forms rest

end

/-- `SpellsAll` holds of forms in a row with their tokens in a row. -/
theorem SpellsAll.append {forms others : List Form} {tokens more : List Token}
    (spelled : SpellsAll forms tokens) (after : SpellsAll others more) :
    SpellsAll (forms ++ others) (tokens ++ more) := by
  induction forms generalizing tokens with
  | nil =>
    cases spelled
    exact after
  | cons form forms ih =>
    obtain ⟨first, rest, rfl, one, spelled⟩ := spelled
    exact ⟨first, rest ++ more, List.append_assoc _ _ _, one, ih spelled⟩

/-- Tokens that spell one form, as in `Spells`, spell it in the sense of `SpellsAll`. -/
theorem Spells.singleton {form : Form} {tokens : List Token} (spelled : form.Spells tokens) :
    SpellsAll [form] tokens :=
  ⟨tokens, [], (List.append_nil _).symm, spelled, rfl⟩

/-! ## Tokens that spell forms are grouped into these -/

mutual

/-- **`groupFrom` of tokens that spell a form finishes the form.** -/
theorem groupFrom_of_spells (state : Grouping) (rest : List Token) (form : Form)
    {tokens : List Token} (spelled : form.Spells tokens) :
    groupFrom state (tokens ++ rest) = groupFrom (state.push form) rest := by
  match form with
  | symbol name mark =>
    cases spelled
    rfl
  | number text mark =>
    obtain ⟨rfl, -⟩ := spelled
    rfl
  | list items mark =>
    obtain ⟨⟨_, left, start⟩, inner, ⟨_, right, place⟩, rfl, rfl, rfl, rfl, spelled⟩ := spelled
    have opened := groupFrom_of_spellsAll (state.openAt start) (⟨.closing, right, place⟩ :: rest)
      items spelled
    rw [List.cons_append, List.append_assoc, List.singleton_append, groupFrom]
    dsimp only
    -- The open list collects its items in reverse, and closing it turns them round.
    rw [opened, Grouping.openAt, Grouping.pushAll_pending, List.append_nil, groupFrom]
    simp only [Grouping.closeAt, OpenList.close, List.reverse_reverse]

/-- `groupFrom` of tokens that spell forms finishes the forms one after the other. -/
theorem groupFrom_of_spellsAll (state : Grouping) (rest : List Token) (forms : List Form)
    {tokens : List Token} (spelled : SpellsAll forms tokens) :
    groupFrom state (tokens ++ rest) = groupFrom (state.pushAll forms) rest := by
  match forms with
  | [] =>
    cases spelled
    rfl
  | form :: forms =>
    obtain ⟨first, others, rfl, one, spelled⟩ := spelled
    rw [List.append_assoc, groupFrom_of_spells state _ form one,
      groupFrom_of_spellsAll (state.push form) rest forms spelled]
    rfl

end

/-- `group` of tokens that spell forms, with an end mark after them, gives the forms. -/
theorem group_of_spellsAll {forms : List Form} {tokens : List Token} {stop : Token}
    (spelled : SpellsAll forms tokens) (ended : stop.cls = .endOfInput) :
    group (tokens ++ [stop]) = .ok forms := by
  rw [group, groupFrom_of_spellsAll _ _ forms spelled, Grouping.empty, Grouping.pushAll_finished,
    List.append_nil, groupFrom, ended]
  exact congrArg Except.ok (List.reverse_reverse _)

/-! ## Tokens that are grouped spell the forms -/

namespace Grouping

/-- The tokens that a state of grouping has taken in: those of the finished forms, and then, for
each open list from the outside in, its opening parenthesis and those of its items. -/
def Holds : List OpenList → List Form → List Token → Prop
  | [], finished, tokens => SpellsAll finished.reverse tokens
  | inner :: outer, finished, tokens =>
    ∃ before opening items, tokens = before ++ opening :: items ∧ Holds outer finished before ∧
      opening.cls = .opening ∧ opening.mark = inner.mark ∧ SpellsAll inner.items.reverse items

/-- `push` of a form takes in the tokens that spell it. -/
theorem Holds.push {state : Grouping} {tokens more : List Token} {form : Form}
    (holds : Holds state.pending state.finished tokens) (spelled : form.Spells more) :
    Holds (state.push form).pending (state.push form).finished (tokens ++ more) := by
  match state with
  | ⟨[], finished⟩ =>
    show SpellsAll (form :: finished).reverse _
    rw [List.reverse_cons]
    exact SpellsAll.append holds spelled.singleton
  | ⟨inner :: outer, finished⟩ =>
    obtain ⟨before, opening, items, rfl, outside, cls, mark, inside⟩ := holds
    refine ⟨before, opening, items ++ more, by simp, outside, cls, mark, ?_⟩
    show SpellsAll (form :: inner.items).reverse _
    rw [List.reverse_cons]
    exact SpellsAll.append inside spelled.singleton

/-- `openAt` takes in the parenthesis. -/
theorem Holds.openAt {state : Grouping} {tokens : List Token} {opening : Token}
    (holds : Holds state.pending state.finished tokens) (cls : opening.cls = .opening) :
    Holds (state.openAt opening.mark).pending (state.openAt opening.mark).finished
      (tokens ++ [opening]) :=
  ⟨tokens, opening, [], rfl, holds, cls, rfl, rfl⟩

/-- `closeAt` takes in the parenthesis. -/
theorem Holds.closeAt {state closed : Grouping} {tokens : List Token} {closing : Token}
    (holds : Holds state.pending state.finished tokens) (cls : closing.cls = .closing)
    (closes : state.closeAt closing.mark = .ok closed) :
    Holds closed.pending closed.finished (tokens ++ [closing]) := by
  match state with
  | ⟨[], finished⟩ => cases closes
  | ⟨inner :: outer, finished⟩ =>
    cases closes
    obtain ⟨before, opening, items, rfl, outside, left, mark, inside⟩ := holds
    have spelled : inner.close.Spells (opening :: (items ++ [closing])) :=
      ⟨opening, items, closing, rfl, left, mark, cls, inside⟩
    have pushed := @Holds.push ⟨outer, finished⟩ _ _ _ outside spelled
    rwa [List.append_assoc, List.cons_append]

end Grouping

/-- How grouping some tokens can end. -/
inductive GroupsTo (tokens : List Token) : Except Fault (List Form) → Prop where
  /-- A closing parenthesis comes while no list is open: the tokens before it spell forms. -/
  | stray {before after : List Token} {closing : Token} {forms : List Form}
      (parts : tokens = before ++ closing :: after) (cls : closing.cls = .closing)
      (spelled : SpellsAll forms before) :
      GroupsTo tokens (.error (Cause.strayClose.placed closing.mark))
  /-- All tokens are taken in. -/
  | taken {last : Grouping} (holds : Grouping.Holds last.pending last.finished tokens) :
      GroupsTo tokens last.finish

/-- **`groupFrom` ends at a stray closing parenthesis, or in a state that `Holds` all tokens.** At
the start the state holds the tokens before. -/
theorem groupsTo_groupFrom {state : Grouping} {before tokens : List Token} {stop : Token}
    (holds : Grouping.Holds state.pending state.finished before)
    (proper : ∀ token ∈ tokens, token.cls ≠ .endOfInput)
    (signs : ∀ token ∈ tokens, token.cls = .number → '-' ∉ token.literal.toList.tail)
    (ended : stop.cls = .endOfInput) :
    GroupsTo (before ++ tokens) (groupFrom state (tokens ++ [stop])) := by
  -- Each token moves from those that are left to those that the state holds.
  induction tokens generalizing state before with
  | nil =>
    rw [List.append_nil, List.nil_append, groupFrom, ended]
    exact .taken holds
  | cons token tokens ih =>
    have others : ∀ token ∈ tokens, token.cls ≠ .endOfInput :=
      fun other mem => proper other (List.mem_cons_of_mem _ mem)
    have otherSigns : ∀ token ∈ tokens, token.cls = .number → '-' ∉ token.literal.toList.tail :=
      fun other mem => signs other (List.mem_cons_of_mem _ mem)
    obtain ⟨cls, literal, mark⟩ := token
    rw [List.append_cons, List.cons_append, groupFrom]
    cases cls with
    | endOfInput => exact absurd rfl (proper _ List.mem_cons_self)
    | opening => exact ih (Grouping.Holds.openAt holds rfl) others otherSigns
    | closing =>
      dsimp only
      match state with
      | ⟨[], finished⟩ => exact .stray (List.append_cons ..).symm rfl holds
      | ⟨inner :: outer, finished⟩ =>
        exact ih (Grouping.Holds.closeAt holds rfl rfl) others otherSigns
    | number =>
      have spelled : (number literal mark).Spells [⟨.number, literal, mark⟩] :=
        ⟨rfl, signs _ List.mem_cons_self rfl⟩
      exact ih (Grouping.Holds.push holds spelled) others otherSigns
    | symbol =>
      have spelled : (symbol literal mark).Spells [⟨.symbol, literal, mark⟩] := rfl
      exact ih (Grouping.Holds.push holds spelled) others otherSigns

/-- Tokens that are grouped into forms spell them: `GroupsTo` gives `SpellsAll`. -/
theorem GroupsTo.spellsAll {tokens : List Token} {result : Except Fault (List Form)}
    {forms : List Form} (groups : GroupsTo tokens result) (grouped : result = .ok forms) :
    SpellsAll forms tokens := by
  cases groups with
  | stray parts cls spelled => cases grouped
  | @taken last holds =>
    match last with
    | ⟨[], finished⟩ =>
      cases grouped
      exact holds
    | ⟨inner :: outer, finished⟩ => cases grouped

end Form

/-! ## The tokens of a source -/

/-- A byte with `isDigitByte` is not a minus sign. -/
theorem ofNat_ne_minus_of_isDigitByte {b : UInt8} (digit : isDigitByte b) :
    Char.ofNat (lowerByte b).toNat ≠ '-' := by
  rw [lowerByte_of_isDigitByte digit]
  intro minus
  have bounds : 0x30 ≤ b.toNat ∧ b.toNat ≤ 0x39 := by
    simpa [isDigitByte, UInt8.le_iff_toNat_le] using digit
  have valid : b.toNat.isValidChar := Or.inl (by omega)
  have value : (Char.ofNat b.toNat).toNat = b.toNat := by
    rw [Char.ofNat, dif_pos valid]
    rfl
  rw [minus] at value
  have code : '-'.toNat = 0x2d := rfl
  omega

/-- `lexeme?` gives no end mark, and a minus sign can only come first in a number. -/
theorem cls_and_sign_of_lexeme? {b : UInt8} {rest : List UInt8} {lex : Lexeme}
    (found : lexeme? b rest = some lex) :
    lex.cls ≠ .endOfInput ∧
      (lex.cls = .number → '-' ∉ (foldedText lex.bytes).toList.tail) := by
  unfold lexeme? at found
  split at found
  · cases found
    exact ⟨by simp, by simp⟩
  · split at found
    · cases found
      exact ⟨by simp, by simp⟩
    · split at found
      · cases found
        refine ⟨by simp, fun _ member => ?_⟩
        rw [foldedText, String.toList_ofList, List.map_cons, List.tail_cons] at member
        obtain ⟨other, inside, minus⟩ := List.mem_map.mp member
        have digit := List.all_eq_true.mp List.all_takeWhile other inside
        exact ofNat_ne_minus_of_isDigitByte digit minus
      · split at found
        · cases found
          exact ⟨by simp, by simp⟩
        · cases found

/-- `Lexer.scan` ends with an end mark; the tokens before it are no end marks, and a minus sign can
only come first in their numbers. -/
theorem Lexer.exists_stop_of_scan {lexer : Lexer} {tokens : List Token}
    (scanned : lexer.scan = .ok tokens) :
    ∃ before stop, tokens = before ++ [stop] ∧ stop.cls = .endOfInput ∧
      ∀ token ∈ before, token.cls ≠ .endOfInput ∧
        (token.cls = .number → '-' ∉ token.literal.toList.tail) := by
  induction lexer using Lexer.scan.induct generalizing tokens with
  | case1 lexer first after found others rest ih =>
    rw [Lexer.scan_eq, found] at scanned
    simp only [rest] at scanned
    cases scanned
    obtain ⟨before, stop, rfl, ended, each⟩ := ih rest
    refine ⟨first :: before, stop, rfl, ended, fun token member => ?_⟩
    rcases List.mem_cons.mp member with rfl | later
    · obtain ⟨b, bytes, lex, lexed, cls, literal⟩ := Lexer.exists_lexeme? found
      rw [cls, literal]
      exact cls_and_sign_of_lexeme? lexed
    · exact each token later
  | case2 lexer first after found fault rest ih =>
    rw [Lexer.scan_eq, found] at scanned
    simp only [rest] at scanned
    cases scanned
  | case3 lexer last stop found =>
    rw [Lexer.scan_eq, found] at scanned
    cases scanned
    exact ⟨[], last, rfl, Lexer.cls_of_read_eq_finished found, List.forall_mem_nil _⟩
  | case4 lexer fault stop found =>
    rw [Lexer.scan_eq, found] at scanned
    cases scanned

/-- `Form.group` of what `Token.scan` gives ends at a stray closing parenthesis, or in a state that
holds all tokens but the end mark. -/
theorem Form.exists_groupsTo_of_scan {source : List UInt8} {tokens : List Token}
    (scanned : Token.scan source = .ok tokens) :
    ∃ before stop, tokens = before ++ [stop] ∧ stop.cls = .endOfInput ∧
      GroupsTo before (group tokens) := by
  obtain ⟨before, stop, rfl, ended, each⟩ := Lexer.exists_stop_of_scan scanned
  have nothing : Grouping.Holds Grouping.empty.pending Grouping.empty.finished [] := rfl
  exact ⟨before, stop, rfl, ended, groupsTo_groupFrom nothing
    (fun token member => (each token member).1) (fun token member => (each token member).2) ended⟩

/-- **`Form.read` of a source gives the forms that its tokens spell.** -/
theorem Form.read_eq_ok_iff {source : List UInt8} {forms : List Form} :
    read source = .ok forms ↔
      ∃ tokens stop, Token.scan source = .ok (tokens ++ [stop]) ∧ stop.cls = .endOfInput ∧
        SpellsAll forms tokens := by
  constructor
  · intro found
    rw [read] at found
    cases scanned : Token.scan source with
    | error fault =>
      rw [scanned] at found
      cases found
    | ok tokens =>
      rw [scanned] at found
      obtain ⟨before, stop, rfl, ended, groups⟩ := exists_groupsTo_of_scan scanned
      exact ⟨before, stop, rfl, ended, groups.spellsAll found⟩
  · rintro ⟨tokens, stop, scanned, ended, spelled⟩
    rw [read, scanned]
    exact group_of_spellsAll spelled ended

end MazeRobot
