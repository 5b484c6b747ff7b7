import MazeRobot.Proofs.Language
import MazeRobot.Proofs.Respelling

/-! # Sources in a row

A line break ends whatever a source can end with: a comment, a number, a symbol or white space.
After it the scanner is where it was at the start, but for the line. So the tokens of two sources
with a line break between them are those of the first, without its end mark, and then those of the
second, some lines further down. Where the first source is a program all its lists are closed, and
the forms of the second come after those of the first.

* `Lexer.follows_scan_down`: scanning further down finds the same tokens further down.
* `Lexer.skip_append`, `Lexer.scan_append`: scanning past a line break.
* `Form.group_append`: grouping goes on after forms that are finished.
* `Program.parse_append_lineBreak`: the program of two sources in a row. -/

namespace MazeRobot

/-! ## Further down -/

/-- `Mark.after` a byte and `Relocation.down` can be swapped. -/
theorem Mark.after_down (n : Nat) (mark : Mark) (b : UInt8) :
    ((Relocation.down n).mark mark).after b = (Relocation.down n).mark (mark.after b) := by
  unfold after
  split
  · simp only [Relocation.down, Nat.add_right_comm]
  · rfl

namespace Lexer

/-- The scanner some lines further down, with the same bytes ahead. -/
def down (n : Nat) (lexer : Lexer) : Lexer := ⟨(Relocation.down n).mark lexer.mark, lexer.rest⟩

/-- What was read, some lines further down. -/
def Reading.down (n : Nat) : Reading → Reading
  | .token next after => .token (next.moved (.down n)) (after.down n)
  | .finished last stop => .finished (last.moved (.down n)) (stop.down n)
  | .stuck fault stop => .stuck (fault.moved (.down n)) (stop.down n)

/-- `skip` from further down skips the same, further down. -/
theorem skip_down (n : Nat) (inComment : Bool) (mark : Mark) (bytes : List UInt8) :
    skip inComment ((Relocation.down n).mark mark) bytes = (skip inComment mark bytes).down n := by
  induction bytes generalizing inComment mark with
  | nil => rfl
  | cons b rest ih =>
    unfold skip
    rw [Mark.after_down, ih, ih, ih]
    simp only [apply_ite (down n)]
    rfl

/-- `read` from further down reads the same, further down. -/
theorem read_down (n : Nat) (lexer : Lexer) : (lexer.down n).read = lexer.read.down n := by
  unfold read
  simp only [down, skip_down]
  generalize skip false lexer.mark lexer.rest = start
  obtain ⟨mark, bytes⟩ := start
  cases bytes with
  | nil => rfl
  | cons b rest =>
    dsimp only
    cases lexeme? b rest <;> rfl

/-- Where `read` is `stuck` the fault is found without running anything. -/
theorem static_of_read_eq_stuck {lexer stop : Lexer} {fault : Fault}
    (found : lexer.read = .stuck fault stop) : fault.kind.isRuntime = false := by
  simp only [read] at found
  split at found
  · cases found
  · split at found
    · cases found
    · cases found
      rfl

/-- **`scan` from further down finds the same tokens further down.** -/
theorem follows_scan_down (n : Nat) (lexer : Lexer) :
    Follows (.down n) (List.map (Token.moved (.down n))) lexer.scan (lexer.down n).scan := by
  induction lexer using scan.induct with
  | case1 lexer token after found tokens scanned ih =>
    rw [scan_eq, scan_eq (lexer.down n), read_down, found]
    simp only [Reading.down, ih.eq_ok scanned, scanned]
    exact .value (token :: tokens)
  | case2 lexer token after found fault failed ih =>
    obtain ⟨moved, static⟩ := ih.eq_error failed
    rw [scan_eq, scan_eq (lexer.down n), read_down, found]
    simp only [Reading.down, moved, failed]
    exact .fault static
  | case3 lexer token stop found =>
    rw [scan_eq, scan_eq (lexer.down n), read_down, found]
    exact .of_eq rfl
  | case4 lexer fault stop found =>
    rw [scan_eq, scan_eq (lexer.down n), read_down, found]
    exact Follows.fault (static_of_read_eq_stuck found)

/-! ## Past a line break -/

/-- The scanner with a line break and more bytes after those that it has ahead. -/
def continued (lexer : Lexer) (more : List UInt8) : Lexer :=
  ⟨lexer.mark, lexer.rest ++ 0x0a :: more⟩

/-- `startsComment` is not changed by a line break behind. -/
theorem startsComment_append (b : UInt8) (rest more : List UInt8) :
    startsComment b (rest ++ 0x0a :: more) = startsComment b rest := by
  cases rest <;> simp [startsComment]

/-- **A line break ends what `skip` skips.** It stops where it stopped before, and goes on from
there if it was at the end. -/
theorem skip_append (inComment : Bool) (mark : Mark) (bytes more : List UInt8) :
    skip inComment mark (bytes ++ 0x0a :: more) =
      skip false (skip inComment mark bytes).mark
        ((skip inComment mark bytes).rest ++ 0x0a :: more) := by
  induction bytes generalizing inComment mark with
  | nil => cases inComment <;> rfl
  | cons b rest ih =>
    rw [List.cons_append]
    simp only [skip, startsComment_append]
    by_cases comment : inComment = true
    · simp only [if_pos comment]
      exact ih _ _
    · simp only [if_neg comment]
      by_cases space : isSpaceByte b = true
      · simp only [if_pos space]
        exact ih _ _
      · simp only [if_neg space]
        by_cases starts : startsComment b rest = true
        · simp only [if_pos starts]
          exact ih _ _
        · simp [skip, space, starts, startsComment_append]

/-- `lexeme?` ends at a line break if it did not end before. -/
theorem lexeme?_append_lineBreak {b : UInt8} {rest : List UInt8} {lex : Lexeme}
    (found : lexeme? b rest = some lex) (more : List UInt8) :
    lexeme? b (rest ++ 0x0a :: more) =
      some ⟨lex.cls, lex.bytes, lex.rest ++ 0x0a :: more⟩ := by
  obtain ⟨cls, bytes, left⟩ := lex
  obtain ⟨-, accepted, maximal⟩ := accepts_of_lexeme? found
  have front := lexeme?_append found
  dsimp only at front maximal accepted
  cases bytes with
  | nil => exact absurd rfl (lexeme?_bytes_ne_nil found)
  | cons c bytes =>
    rw [List.cons_append] at front
    obtain ⟨rfl, rfl⟩ := List.cons.inj front
    rw [List.append_assoc]
    refine lexeme?_of_accepts accepted ?_
    cases left with
    | nil => cases cls <;> rfl
    | cons d left => exact maximal

/-- What `read` reads before a line break. -/
theorem read_continued_of_token {lexer after : Lexer} {token : Token}
    (found : lexer.read = .token token after) (more : List UInt8) :
    (lexer.continued more).read = .token token (after.continued more) := by
  rw [continued, read_of_skip_eq (skip_append false lexer.mark lexer.rest more)]
  simp only [read] at found
  split at found
  · cases found
  · next b rest front =>
    split at found
    · next lex lexed =>
      cases found
      rw [front]
      exact read_of_lexeme? _ (lexeme?_append_lineBreak lexed more)
    · cases found

/-- Where `read` was at the end of the bytes it goes on past the line break. -/
theorem read_continued_of_finished {lexer stop : Lexer} {token : Token}
    (found : lexer.read = .finished token stop) (more : List UInt8) :
    (lexer.continued more).read = read ⟨token.mark.after 0x0a, more⟩ := by
  rw [continued, read_of_skip_eq (skip_append false lexer.mark lexer.rest more)]
  simp only [read] at found
  split at found
  · next front =>
    cases found
    rw [front]
    exact read_of_isSpaceByte more _ rfl
  · split at found
    · cases found
    · cases found

/-- **After a line break `scan` goes on as it started.** The end mark is left out, and the rest is
scanned from the place after the line break. -/
theorem scan_append {lexer : Lexer} {tokens : List Token} (scanned : lexer.scan = .ok tokens)
    (more : List UInt8) :
    ∃ before stop, tokens = before ++ [stop] ∧
      (lexer.continued more).scan = (before ++ ·) <$> scan ⟨stop.mark.after 0x0a, more⟩ := by
  induction lexer using scan.induct generalizing tokens with
  | case1 lexer token after found others rest ih =>
    rw [scan_eq, found] at scanned
    simp only [rest] at scanned
    cases scanned
    obtain ⟨before, stop, rfl, goesOn⟩ := ih rest
    refine ⟨token :: before, stop, rfl, ?_⟩
    rw [scan_eq, read_continued_of_token found]
    simp only [goesOn]
    cases scan ⟨stop.mark.after 0x0a, more⟩ <;> rfl
  | case2 lexer token after found fault rest ih =>
    rw [scan_eq, found] at scanned
    simp only [rest] at scanned
    cases scanned
  | case3 lexer token stop found =>
    rw [scan_eq, found] at scanned
    cases scanned
    refine ⟨[], token, rfl, ?_⟩
    rw [scan_eq, read_continued_of_finished found, ← scan_eq]
    cases scan ⟨token.mark.after 0x0a, more⟩ <;> rfl
  | case4 lexer fault stop found =>
    rw [scan_eq, found] at scanned
    cases scanned

end Lexer

/-- **`Token.scan` of two sources in a row.** The tokens of the first come first, without the end
mark, then those of the second, further down. -/
theorem Token.follows_scan_append {first : List UInt8} {before : List Token} {stop : Token}
    (scanned : scan first = .ok (before ++ [stop])) (second : List UInt8) :
    Follows (.down (first.count 0x0a + 1))
      (fun others => before ++ others.map (Token.moved (.down (first.count 0x0a + 1))))
      (scan second) (scan (first ++ 0x0a :: second)) := by
  obtain ⟨before', stop', same, goesOn⟩ := Lexer.scan_append scanned second
  obtain ⟨rfl, last⟩ := List.append_inj' same rfl
  cases last
  -- The end mark stands at the end, so its line counts the line breaks of the first source.
  obtain ⟨places, all, laid⟩ := Laid.of_scan scanned
  obtain ⟨others, rfl, -⟩ := laid.last
  rw [List.map_append] at all
  obtain ⟨-, ended⟩ := List.append_inj' all rfl
  have line : stop.mark.line = 1 + first.count 0x0a := by
    rw [← (List.cons.inj ended).1]
    simp [Mark.ofOffset, Mark.past]
  have start : stop.mark.after 0x0a = (Relocation.down (first.count 0x0a + 1)).mark Mark.start := by
    rw [Mark.after, if_pos rfl, line]
    simp only [Relocation.down, Mark.start, Nat.add_assoc]
  have follows := Lexer.follows_scan_down (first.count 0x0a + 1) (.ofBytes second)
  have whole : scan (first ++ 0x0a :: second) = _ := goesOn
  rw [whole, start]
  exact follows.map (before ++ ·)

/-! ## Forms and programs in a row -/

namespace Form

/-- The state of grouping with more forms finished before. -/
def Grouping.above (below : List Form) (state : Grouping) : Grouping :=
  ⟨state.pending, state.finished ++ below⟩

/-- `Grouping.push` leaves the forms below alone. -/
theorem Grouping.push_above (below : List Form) (form : Form) (state : Grouping) :
    (state.above below).push form = (state.push form).above below := by
  match state with
  | ⟨[], finished⟩ => rfl
  | ⟨inner :: outer, finished⟩ => rfl

/-- `Grouping.closeAt` leaves the forms below alone. -/
theorem Grouping.closeAt_above (below : List Form) (mark : Mark) (state : Grouping) :
    (state.above below).closeAt mark = above below <$> state.closeAt mark := by
  match state with
  | ⟨[], finished⟩ => rfl
  | ⟨inner :: outer, finished⟩ => exact congrArg Except.ok (push_above below _ ⟨outer, finished⟩)

/-- `Grouping.finish` has the forms below in front. -/
theorem Grouping.finish_above (below : List Form) (state : Grouping) :
    (state.above below).finish = (below.reverse ++ ·) <$> state.finish := by
  match state with
  | ⟨[], finished⟩ => exact congrArg Except.ok List.reverse_append
  | ⟨inner :: outer, finished⟩ => rfl

/-- `groupFrom` keeps forms that are finished in front. -/
theorem groupFrom_above (below : List Form) (state : Grouping) (tokens : List Token) :
    groupFrom (state.above below) tokens = (below.reverse ++ ·) <$> groupFrom state tokens := by
  induction tokens generalizing state with
  | nil => exact state.finish_above below
  | cons token tokens ih =>
    obtain ⟨cls, literal, mark⟩ := token
    cases cls with
    | endOfInput => exact state.finish_above below
    | opening => exact ih (state.openAt mark)
    | closing =>
      simp only [groupFrom, state.closeAt_above below mark]
      cases state.closeAt mark with
      | ok closed => exact ih closed
      | error fault => rfl
    | number =>
      simp only [groupFrom, Grouping.push_above]
      exact ih _
    | symbol =>
      simp only [groupFrom, Grouping.push_above]
      exact ih _

/-- `group` goes on after forms that are finished. -/
theorem group_append {forms : List Form} {before : List Token} (spelled : SpellsAll forms before)
    (others : List Token) : group (before ++ others) = (forms ++ ·) <$> group others := by
  have below := groupFrom_above forms.reverse .empty others
  rw [List.reverse_reverse] at below
  rw [group, groupFrom_of_spellsAll _ _ forms spelled, Grouping.empty, Grouping.pushAll_finished,
    List.append_nil]
  exact below

end Form

/-- `Stmt.ofTopLevel` of forms in a row goes on after the statements of the forms in front. -/
theorem Stmt.mapM_ofTopLevel_append {forms : List Form} {body : List Stmt}
    (meaning : forms.mapM ofTopLevel = .ok body) (others : List Form) :
    (forms ++ others).mapM ofTopLevel = (body ++ ·) <$> others.mapM ofTopLevel := by
  rw [List.mapM_append, meaning]
  cases others.mapM ofTopLevel <;> rfl

namespace Program

/-- The program with statements in front of its own. -/
def prepend (body : List Stmt) (program : Program) : Program := ⟨body ++ program.body, program.line⟩

/-- `ofTokens` of tokens that come after those of forms with a meaning. -/
theorem ofTokens_append {forms : List Form} {before : List Token} {body : List Stmt}
    (spelled : Form.SpellsAll forms before) (meaning : forms.mapM Stmt.ofTopLevel = .ok body)
    (others : List Token) : ofTokens (before ++ others) = prepend body <$> ofTokens others := by
  rw [ofTokens, ofTokens, Form.group_append spelled]
  cases Form.group others with
  | error fault => rfl
  | ok more =>
    show ofForms (forms ++ more) = prepend body <$> ofForms more
    rw [ofForms, ofForms, Stmt.mapM_ofTopLevel_append meaning]
    cases more.mapM Stmt.ofTopLevel <;> rfl

/-- `parse` reads the second of two sources in a row as if it stood alone, further down. -/
theorem follows_parse_append {first : List UInt8} {program : Program}
    (parsed : parse first = .ok program) (second : List UInt8) :
    Follows (.down (first.count 0x0a + 1))
      (fun other => (other.moved (.down (first.count 0x0a + 1))).prepend program.body)
      (parse second) (parse (first ++ 0x0a :: second)) := by
  obtain ⟨forms, stmts, read, meaning, rfl⟩ := parse_eq_ok_iff.mp parsed
  obtain ⟨before, stop, scanned, -, spelled⟩ := Form.read_eq_ok_iff.mp read
  rw [parse_eq, parse_eq]
  refine (Token.follows_scan_append scanned second).bind fun others => ?_
  rw [ofTokens_append spelled (Stmt.mapM_ofTopLevel_eq_ok_iff.mpr meaning)]
  exact (follows_ofTokens _ others).map (prepend stmts)

/-- **`parse` goes source by source.** Two sources with a line break between them, the first of
which is a program, are a program exactly if the second is one. The statements of the first come
first, then those of the second with every node further down, by the number of line breaks of the
first source and one more. A fault of the second source is also further down, and otherwise the
same. -/
theorem parse_append_lineBreak {first : List UInt8} {program : Program}
    (parsed : parse first = .ok program) (second : List UInt8) :
    ((∃ whole, parse (first ++ 0x0a :: second) = .ok whole) ↔ ∃ other, parse second = .ok other) ∧
    (∀ other, parse second = .ok other → ∃ whole, parse (first ++ 0x0a :: second) = .ok whole ∧
      whole.body =
        program.body ++ Stmt.movedAll (.down (first.count 0x0a + 1)) other.body) ∧
    (∀ fault, parse second = .error fault →
      ∃ fault', parse (first ++ 0x0a :: second) = .error fault' ∧ fault'.kind = fault.kind ∧
        fault'.message = fault.message ∧ fault'.hint? = fault.hint? ∧
        fault'.column = fault.column ∧ fault'.line = fault.line + (first.count 0x0a + 1)) := by
  have follows := follows_parse_append parsed second
  refine ⟨?_, fun other found => ⟨_, follows.eq_ok found, rfl⟩, fun fault failed =>
    ⟨_, (follows.eq_error failed).1, rfl, rfl, rfl, rfl, rfl⟩⟩
  generalize parse (first ++ 0x0a :: second) = whole at follows
  generalize parse second = other at follows
  cases follows with
  | value value => exact iff_of_true ⟨_, rfl⟩ ⟨_, rfl⟩
  | fault static => exact iff_of_false (by rintro ⟨whole, ⟨⟩⟩) (by rintro ⟨other, ⟨⟩⟩)

/-- A source on two lines that ends in a comment. -/
def commentedSource : List UInt8 := Text.utf8 "(go)\n;("

/-- A source with a statement and a value on other lines. -/
def loopSource : List UInt8 := Text.utf8 "(repeat\n2)"

/-- A source with a fault that is told at a column. -/
def strayCloseSource : List UInt8 := Text.utf8 " )"

/-- After the comment the loop is read, two lines further down; so is the fault. -/
theorem parse_append_lineBreak_commented :
    parse commentedSource = .ok ⟨[.call "go" [] true 1], 1⟩ ∧
    parse loopSource = .ok ⟨[.loop (.number 2 2) [] 1], 1⟩ ∧
    (∃ whole, parse (commentedSource ++ 0x0a :: loopSource) = .ok whole ∧
      whole.body = [.call "go" [] true 1, .loop (.number 2 4) [] 3]) ∧
    ∃ fault, parse (commentedSource ++ 0x0a :: strayCloseSource) = .error fault ∧
      fault.line = 3 ∧ fault.column = 2 := by
  have first : parse commentedSource = .ok ⟨[.call "go" [] true 1], 1⟩ :=
    eq_ok_of_toOption (by decide +kernel)
  have second : parse loopSource = .ok ⟨[.loop (.number 2 2) [] 1], 1⟩ :=
    eq_ok_of_toOption (by decide +kernel)
  have failed : parse strayCloseSource = .error ⟨.strayClose, 1, 2⟩ :=
    eq_error_of_failure? (by decide +kernel)
  have breaks : commentedSource.count 0x0a = 1 := by decide +kernel
  refine ⟨first, second, ?_, ?_⟩
  · obtain ⟨whole, found, body⟩ := (parse_append_lineBreak first loopSource).2.1 _ second
    rw [breaks] at body
    exact ⟨whole, found, body⟩
  · obtain ⟨fault, found, -, -, -, column, line⟩ :=
      (parse_append_lineBreak first strayCloseSource).2.2 _ failed
    rw [breaks] at line
    exact ⟨fault, found, line, column⟩

end Program

end MazeRobot
