import MazeRobot.Program.Layout
import MazeRobot.Proofs.Canonical

/-! # Reading back a layout

The layout of a well-formed program gives the tokens of the program's forms, with white space
between them. So reading it gives the program back, up to lines, and laying it out again gives the
same text.

* `Stmt.reads_layout`: the tokens of a statement's layout.
* `Program.reads_layout`: the tokens of a program's layout.
* `Program.parse_layout`: reading a layout gives the program back.
* `Program.layout_eraseLines`: a layout does not depend on lines.
* `Program.layout_roundTrip`: reading and laying out undo each other. -/

namespace MazeRobot

/-! ## Pieces of layouts -/

/-- `Text.utf8` of an opening parenthesis. -/
@[simp] theorem Text.utf8_opening : utf8 "(" = [0x28] := by
  rw [utf8_eq]
  rfl

/-- `Text.utf8` of a closing parenthesis. -/
@[simp] theorem Text.utf8_closing : utf8 ")" = [0x29] := by
  rw [utf8_eq]
  rfl

/-- `Text.utf8` of a blank. -/
@[simp] theorem Text.utf8_blank : utf8 " " = [0x20] := by
  rw [utf8_eq]
  rfl

/-- `Text.utf8` of a line break. -/
@[simp] theorem Text.utf8_lineBreak : utf8 "\n" = [0x0a] := by
  rw [utf8_eq]
  rfl

/-- `Form.tokensOf` one form. -/
theorem Form.tokensOf_singleton (form : Form) : tokensOf [form] = form.tokens := by
  rw [tokensOf, tokensOf, List.append_nil]

/-- `Form.tokensOf` forms, with other tokens behind, starts with those of the first form. -/
theorem Form.tokensOf_cons_append (form : Form) (forms : List Form) (others : List Token) :
    tokensOf (form :: forms) ++ others = form.tokens ++ (tokensOf forms ++ others) := by
  rw [tokensOf, List.append_assoc]

namespace Reads

variable {rest : List UInt8} {others : List Token}

/-- `Reads` of a list of items. -/
theorem list {items : List Form}
    (inside : Reads rest (Form.tokensOf items ++ .plain .closing ")" :: others)) :
    Reads (0x28 :: rest) ((Form.list items Mark.nowhere).tokens ++ others) := by
  rw [Form.tokens, List.cons_append, List.append_assoc]
  exact inside.opening

/-- `Reads` of a list that starts with a word. -/
theorem phrase {head : String} {items : List Form} (name : IsName head)
    (delimited : isDelimited rest)
    (inside : Reads rest (Form.tokensOf items ++ .plain .closing ")" :: others)) :
    Reads (0x28 :: (Text.utf8 head ++ rest)) ((Form.phrase head items).tokens ++ others) := by
  refine list ?_
  rw [Form.tokensOf_cons_append]
  exact symbol name delimited inside

/-- `Reads` is as without a blank in front. -/
theorem blank (reads : Reads rest others) : Reads (0x20 :: rest) others := space rfl reads

/-- `Reads` is as without a line break in front. -/
theorem lineBreak (reads : Reads rest others) : Reads (0x0a :: rest) others := space rfl reads

/-- `Reads` is as without `indentation` in front. -/
theorem indentation (depth : Nat) (reads : Reads rest others) :
    Reads (Text.utf8 (indentation depth) ++ rest) others := by
  rw [MazeRobot.indentation, Text.utf8_ofList]
  induction 2 * depth with
  | zero => exact reads
  | succ n ih => exact blank ih

end Reads

/-! ## Values and conditions -/

section Values

variable {rest : List UInt8} {others : List Token}

/-- `Expr.layout` of a well-formed value gives the tokens of its form. -/
theorem Expr.reads_layout {value : Expr} (wellFormed : value.WellFormed)
    (delimited : isDelimited rest) (reads : Reads rest others) :
    Reads (Text.utf8 value.layout ++ rest) (value.form.tokens ++ others) := by
  cases value with
  | number value line =>
    obtain ⟨n, rfl⟩ := Int.eq_ofNat_of_zero_le wellFormed.1
    exact Reads.number n delimited reads
  | var name line => exact Reads.symbol wellFormed delimited reads
  | distance line =>
    have text : Text.utf8 "(distance-to-end)" ++ rest =
        0x28 :: (Text.utf8 "distance-to-end" ++ 0x29 :: rest) := by
      rw [show "(distance-to-end)" = "(" ++ "distance-to-end" ++ ")" from rfl]
      simp only [Text.utf8_append, Text.utf8_opening, Text.utf8_closing, List.append_assoc,
        List.cons_append, List.nil_append]
    rw [layout, text]
    exact Reads.phrase (by decide) rfl (Reads.closing reads)
  | missing => exact wellFormed.elim

/-- `Expr.layout` of values one after the other, each after a blank, gives the tokens of their
forms. -/
theorem Expr.reads_join {values : List Expr} (wellFormed : ∀ value ∈ values, value.WellFormed)
    (delimited : isDelimited rest) (reads : Reads rest others) :
    isDelimited (Text.utf8 (String.join (values.map (" " ++ ·.layout))) ++ rest) ∧
    Reads (Text.utf8 (String.join (values.map (" " ++ ·.layout))) ++ rest)
      (Form.tokensOf (values.map form) ++ others) := by
  induction values with
  | nil =>
    rw [List.map_nil, String.join_nil, Text.utf8_empty]
    exact ⟨delimited, reads⟩
  | cons value values ih =>
    obtain ⟨delimited, reads⟩ := ih fun other mem =>
      wellFormed other (List.mem_cons_of_mem value mem)
    have first := reads_layout (wellFormed value List.mem_cons_self) delimited reads
    rw [List.map_cons, String.join_cons, List.map_cons, Form.tokensOf]
    simp only [Text.utf8_append, Text.utf8_blank, List.append_assoc, List.cons_append,
      List.nil_append]
    exact ⟨rfl, Reads.blank first⟩

/-- Names one after the other, with blanks between them, are read as words: `Reads` gives their
tokens. -/
theorem reads_intercalate {names : List String} (isName : ∀ name ∈ names, IsName name)
    (delimited : isDelimited rest) (reads : Reads rest others) :
    Reads (Text.utf8 (String.intercalate " " names) ++ rest)
      (Form.tokensOf (names.map Form.word) ++ others) := by
  induction names with
  | nil =>
    rw [String.intercalate_nil, Text.utf8_empty]
    exact reads
  | cons name names ih =>
    have tail := ih fun other mem => isName other (List.mem_cons_of_mem name mem)
    cases names with
    | nil =>
      rw [String.intercalate_singleton]
      exact Reads.symbol (isName name List.mem_cons_self) delimited reads
    | cons second names =>
      rw [String.intercalate_cons_cons]
      simp only [Text.utf8_append, Text.utf8_blank, List.append_assoc, List.cons_append,
        List.nil_append]
      exact Reads.symbol (isName name List.mem_cons_self) rfl (Reads.blank tail)

/-- `Query.name` is a name. -/
theorem Query.isName_name (query : Query) : IsName query.name := by
  cases query <;> decide

/-- `Direction.name` is a name. -/
theorem Direction.isName_name (direction : Direction) : IsName direction.name := by
  cases direction <;> decide

/-- `Command.keyword` is a name. -/
theorem Command.isName_keyword (kind : Command) : IsName kind.keyword := by
  cases kind <;> decide

/-- `Reads` of a query in a direction. -/
theorem Query.reads (query : Query) (direction : Direction) (reads : Reads rest others) :
    Reads (Text.utf8 ("(" ++ query.name ++ " " ++ direction.name ++ ")") ++ rest)
      ((Form.phrase query.name [.word direction.name]).tokens ++ others) := by
  have argument := Reads.symbol direction.isName_name rfl (Reads.closing reads)
  simp only [Text.utf8_append, Text.utf8_opening, Text.utf8_closing, Text.utf8_blank,
    List.append_assoc, List.cons_append, List.nil_append]
  exact Reads.phrase query.isName_name rfl (Reads.blank argument)

/-- `Condition.layout` gives the tokens of the form of the condition. -/
theorem Condition.reads_layout (condition : Condition) (reads : Reads rest others) :
    Reads (Text.utf8 condition.layout ++ rest) (condition.form.tokens ++ others) := by
  obtain ⟨query, negated, direction, line⟩ := condition
  cases negated with
  | false => exact query.reads direction reads
  | true =>
    have inner := query.reads direction (Reads.closing reads)
    rw [← Form.tokensOf_singleton] at inner
    have whole := Reads.phrase (show IsName "not" by decide) rfl (Reads.blank inner)
    have text : layout ⟨query, true, direction, line⟩ =
        "(" ++ "not" ++ " " ++ ("(" ++ query.name ++ " " ++ direction.name ++ ")") ++ ")" := rfl
    rw [text]
    simp only [Text.utf8_append, Text.utf8_opening, Text.utf8_closing, Text.utf8_blank,
      List.append_assoc, List.cons_append, List.nil_append] at whole ⊢
    exact whole

end Values

/-! ## Statements -/

namespace Stmt

/-- `layoutBody` puts a statement that is no block on a line of its own. -/
theorem layoutBody_cons (depth : Nat) {stmt : Stmt} (wellFormed : stmt.WellFormed)
    (stmts : List Stmt) :
    layoutBody depth (stmt :: stmts) =
      "\n" ++ indentation depth ++ stmt.layout depth ++ layoutBody depth stmts := by
  cases stmt with
  | block body line => exact wellFormed.elim
  | _ => rfl

/-- `layoutBody` starts on a new line or is empty, so it `isDelimited` if what follows is. -/
theorem isDelimited_layoutBody (depth : Nat) {body : List Stmt} {rest : List UInt8}
    (wellFormed : AllWellFormed body) (delimited : isDelimited rest) :
    isDelimited (Text.utf8 (layoutBody depth body) ++ rest) := by
  match body with
  | [] =>
    rw [layoutBody, Text.utf8_empty]
    exact delimited
  | stmt :: stmts =>
    simp only [layoutBody_cons depth wellFormed.1, Text.utf8_append, Text.utf8_lineBreak,
      List.append_assoc, List.cons_append]
    rfl

mutual

/-- `layout` of a well-formed statement gives the tokens of its form. -/
theorem reads_layout (depth : Nat) {stmt : Stmt} {rest : List UInt8} {others : List Token}
    (wellFormed : stmt.WellFormed) (reads : Reads rest others) :
    Reads (Text.utf8 (stmt.layout depth) ++ rest) (stmt.form.tokens ++ others) := by
  -- What follows is general, so the pieces are put together from the last one to the first.
  have closed := Reads.closing reads
  cases stmt with
  | block body line => exact wellFormed.elim
  | command kind line =>
    simp only [layout, Text.utf8_append, Text.utf8_opening, Text.utf8_closing, List.append_assoc,
      List.cons_append, List.nil_append]
    exact Reads.phrase kind.isName_keyword rfl closed
  | loop count body line =>
    obtain ⟨wellCount, wellBody⟩ := wellFormed
    have inside := Expr.reads_layout wellCount (isDelimited_layoutBody (depth + 1) wellBody rfl)
      (reads_layoutBody (depth + 1) wellBody closed)
    rw [← Form.tokensOf_cons_append] at inside
    rw [layout, show "(repeat " = "(" ++ "repeat" ++ " " from rfl]
    simp only [Text.utf8_append, Text.utf8_opening, Text.utf8_closing, Text.utf8_blank,
      List.append_assoc, List.cons_append, List.nil_append]
    exact Reads.phrase (by decide) rfl inside.blank
  | branch condition body line =>
    obtain ⟨some, wellBody⟩ := wellFormed
    obtain ⟨condition, rfl⟩ := Option.isSome_iff_exists.mp some
    have inside := condition.reads_layout (reads_layoutBody (depth + 1) wellBody closed)
    rw [← Form.tokensOf_cons_append] at inside
    rw [layout, show "(if " = "(" ++ "if" ++ " " from rfl]
    simp only [Text.utf8_append, Text.utf8_opening, Text.utf8_closing, Text.utf8_blank,
      Option.elim_some, List.append_assoc, List.cons_append, List.nil_append]
    exact Reads.phrase (by decide) rfl inside.blank
  | assign name value line =>
    obtain ⟨wellName, wellValue⟩ := wellFormed
    have second := Expr.reads_layout wellValue rfl closed
    rw [← Form.tokensOf_singleton] at second
    have inside := Reads.symbol wellName rfl second.blank
    rw [layout, show toString "(set " = "(" ++ "set" ++ " " from rfl]
    simp only [Text.utf8_append, Text.utf8_opening, Text.utf8_closing, Text.utf8_blank, toString,
      List.append_assoc, List.cons_append, List.nil_append]
    exact Reads.phrase (by decide) rfl inside.blank
  | define name parameters body line =>
    obtain ⟨⟨wellName, _⟩, wellParameters, _, wellBody⟩ := wellFormed
    have after := (reads_layoutBody (depth + 1) wellBody closed).closing
    have header := (reads_intercalate wellParameters rfl after).list
    rw [← Form.tokensOf_cons_append] at header
    have inside := Reads.symbol wellName rfl header.blank
    rw [layout, show toString "(function " = "(" ++ "function" ++ " " from rfl,
      show toString " (" = " " ++ "(" from rfl]
    simp only [Text.utf8_append, Text.utf8_opening, Text.utf8_closing, Text.utf8_blank, toString,
      List.append_assoc, List.cons_append, List.nil_append]
    exact Reads.phrase (by decide) rfl inside.blank
  | call name arguments implicit line =>
    obtain ⟨wellName, wellArguments⟩ := wellFormed
    obtain ⟨delimited, inside⟩ := Expr.reads_join wellArguments rfl closed
    -- The name is delimited by a blank, or by the closing parenthesis if there are no arguments.
    cases implicit with
    | false =>
      have inside := Reads.symbol wellName delimited inside
      rw [layout, if_neg Bool.false_ne_true, show toString "(call " = "(" ++ "call" ++ " " from rfl]
      simp only [Text.utf8_append, Text.utf8_opening, Text.utf8_closing, Text.utf8_blank, toString,
        List.append_assoc, List.cons_append, List.nil_append]
      exact Reads.phrase (by decide) rfl inside.blank
    | true =>
      have wellName : IsName name := wellName.1
      rw [layout, if_pos rfl]
      simp only [Text.utf8_append, Text.utf8_opening, Text.utf8_closing, toString,
        List.append_assoc, List.cons_append, List.nil_append]
      exact Reads.phrase wellName delimited inside
  | missing => exact wellFormed.elim

/-- `layoutBody` of a well-formed body gives the tokens of its forms. -/
theorem reads_layoutBody (depth : Nat) {body : List Stmt} {rest : List UInt8} {others : List Token}
    (wellFormed : AllWellFormed body) (reads : Reads rest others) :
    Reads (Text.utf8 (layoutBody depth body) ++ rest) (Form.tokensOf (forms body) ++ others) := by
  match body with
  | [] =>
    rw [layoutBody, Text.utf8_empty]
    exact reads
  | stmt :: stmts =>
    have tail := reads_layoutBody depth wellFormed.2 reads
    have head := reads_layout depth wellFormed.1 tail
    have line := Reads.lineBreak (Reads.indentation depth head)
    rw [layoutBody_cons depth wellFormed.1, forms, Form.tokensOf]
    simp only [Text.utf8_append, Text.utf8_lineBreak, List.append_assoc, List.cons_append,
      List.nil_append]
    exact line

end

/-- `separator` between top-level statements gives no token. -/
theorem reads_separator (before after : Stmt) {rest : List UInt8} {others : List Token}
    (reads : Reads rest others) : Reads (Text.utf8 (separator before after) ++ rest) others := by
  unfold separator
  split
  · rw [show "\n\n" = "\n" ++ "\n" from rfl, Text.utf8_append, Text.utf8_lineBreak]
    exact reads.lineBreak.lineBreak
  · rw [Text.utf8_lineBreak]
    exact reads.lineBreak

/-- `layoutAfter` of well-formed statements gives the tokens of their forms. -/
theorem reads_layoutAfter (before : Stmt) {stmts : List Stmt} (wellFormed : AllWellFormed stmts) :
    Reads (Text.utf8 (layoutAfter before stmts))
      (Form.tokensOf (forms stmts) ++ [.plain .endOfInput ""]) := by
  induction stmts generalizing before with
  | nil =>
    rw [layoutAfter, Text.utf8_lineBreak]
    exact Reads.nil.lineBreak
  | cons stmt stmts ih =>
    rw [layoutAfter, forms, Form.tokensOf_cons_append]
    simp only [Text.utf8_append, List.append_assoc]
    exact reads_separator before stmt (reads_layout 0 wellFormed.1 (ih stmt wellFormed.2))

/-- `layoutTop` of well-formed statements gives the tokens of their forms. -/
theorem reads_layoutTop {stmts : List Stmt} (wellFormed : AllWellFormed stmts) :
    Reads (Text.utf8 (layoutTop stmts))
      (Form.tokensOf (forms stmts) ++ [.plain .endOfInput ""]) := by
  cases stmts with
  | nil =>
    rw [layoutTop, Text.utf8_empty]
    exact Reads.nil
  | cons stmt stmts =>
    rw [layoutTop, Text.utf8_append, forms, Form.tokensOf_cons_append]
    exact reads_layout 0 wellFormed.1 (reads_layoutAfter stmt wellFormed.2)

/-- `spliced` keeps well-formed statements, which have no blocks to take apart. -/
theorem spliced_of_allWellFormed {stmts : List Stmt} (wellFormed : AllWellFormed stmts) :
    spliced stmts = stmts := by
  induction stmts with
  | nil => rw [spliced]
  | cons stmt stmts ih =>
    cases stmt with
    | block body line => exact wellFormed.1.elim
    | _ => simp only [spliced, ih wellFormed.2]

end Stmt

namespace Program

/-- `layout` of a well-formed program gives the tokens of its forms. -/
theorem reads_layout {program : Program} (wellFormed : program.WellFormed) :
    Reads (Text.utf8 program.layout)
      (Form.tokensOf (Stmt.forms program.body) ++ [.plain .endOfInput ""]) := by
  rw [layout, Stmt.spliced_of_allWellFormed wellFormed]
  exact Stmt.reads_layoutTop wellFormed

/-- `parse` of the `layout` of a well-formed program gives the program back, up to lines. -/
theorem parse_layout {program : Program} (wellFormed : program.WellFormed) :
    ∃ again, parse (Text.utf8 program.layout) = .ok again ∧
      again.eraseLines = program.eraseLines := by
  have read := (reads_layout wellFormed).parse
  rw [Form.group_tokensOf] at read
  have meaning :
      unplacedBy eraseLines (parse (Text.utf8 program.layout)) = .ok program.eraseLines :=
    (read.trans (ofForms_unplaced _)).trans (ofForms_forms wellFormed)
  cases found : parse (Text.utf8 program.layout) with
  | error fault =>
    rw [found] at meaning
    cases meaning
  | ok again =>
    rw [found] at meaning
    exact ⟨again, rfl, Except.ok.inj meaning⟩

end Program

/-! ## Layouts and lines -/

/-- `Expr.layout` does not depend on lines. -/
theorem Expr.layout_eraseLines (value : Expr) : value.eraseLines.layout = value.layout := by
  cases value <;> rfl

namespace Stmt

mutual

/-- `layout` of a statement does not depend on lines. -/
theorem layout_eraseLines (depth : Nat) (stmt : Stmt) :
    stmt.eraseLines.layout depth = stmt.layout depth := by
  cases stmt with
  | block body line => simp only [eraseLines, layout, layoutBody_eraseAllLines depth body]
  | command kind line => rfl
  | loop count body line =>
    simp only [eraseLines, layout, Expr.layout_eraseLines,
      layoutBody_eraseAllLines (depth + 1) body]
  | branch condition body line =>
    cases condition with
    | none =>
      simp only [eraseLines, layout, Option.map_none, layoutBody_eraseAllLines (depth + 1) body]
    | some condition =>
      simp only [eraseLines, layout, Option.map_some, layoutBody_eraseAllLines (depth + 1) body]
      rfl
  | assign name value line => simp only [eraseLines, layout, Expr.layout_eraseLines]
  | define name parameters body line =>
    simp only [eraseLines, layout, layoutBody_eraseAllLines (depth + 1) body]
  | call name arguments implicit line =>
    simp only [eraseLines, layout, List.map_map, Function.comp_def, Expr.layout_eraseLines]
  | missing => rfl

/-- `layoutBody` does not depend on lines. -/
theorem layoutBody_eraseAllLines (depth : Nat) (body : List Stmt) :
    layoutBody depth (eraseAllLines body) = layoutBody depth body := by
  match body with
  | [] => rfl
  | stmt :: stmts =>
    have head := layout_eraseLines depth stmt
    have tail := layoutBody_eraseAllLines depth stmts
    -- A nested block has no line of its own, so its body is laid out in its place.
    cases stmt with
    | block body line =>
      simp only [layout, eraseLines] at head
      simp only [eraseAllLines, eraseLines, layoutBody, head, tail]
    | _ =>
      simp only [eraseLines] at head
      simp only [eraseAllLines, eraseLines, layoutBody, head, tail]

end

/-- `separator` does not depend on lines. -/
theorem separator_eraseLines (before after : Stmt) :
    separator before.eraseLines after.eraseLines = separator before after := by
  cases before <;> cases after <;> rfl

/-- `layoutAfter` does not depend on lines. -/
theorem layoutAfter_eraseAllLines (before : Stmt) (stmts : List Stmt) :
    layoutAfter before.eraseLines (eraseAllLines stmts) = layoutAfter before stmts := by
  induction stmts generalizing before with
  | nil => rfl
  | cons stmt stmts ih =>
    rw [eraseAllLines, layoutAfter, layoutAfter, separator_eraseLines, layout_eraseLines, ih]

/-- `layoutTop` does not depend on lines. -/
theorem layoutTop_eraseAllLines (stmts : List Stmt) :
    layoutTop (eraseAllLines stmts) = layoutTop stmts := by
  cases stmts with
  | nil => rfl
  | cons stmt stmts =>
    rw [eraseAllLines, layoutTop, layoutTop, layout_eraseLines, layoutAfter_eraseAllLines]

/-- `eraseAllLines` of statements in a row. -/
theorem eraseAllLines_append (first second : List Stmt) :
    eraseAllLines (first ++ second) = eraseAllLines first ++ eraseAllLines second := by
  induction first with
  | nil => rfl
  | cons stmt first ih => rw [List.cons_append, eraseAllLines, eraseAllLines, ih, List.cons_append]

/-- `spliced` takes blocks apart whatever the lines are. -/
theorem spliced_eraseAllLines (stmts : List Stmt) :
    spliced (eraseAllLines stmts) = eraseAllLines (spliced stmts) := by
  match stmts with
  | [] => simp only [eraseAllLines, spliced]
  | block body line :: stmts =>
    simp only [eraseAllLines, eraseLines, spliced, eraseAllLines_append, spliced_eraseAllLines body,
      spliced_eraseAllLines stmts]
  | command kind line :: stmts | loop count body line :: stmts | branch condition body line :: stmts
  | assign name value line :: stmts | define name parameters body line :: stmts
  | call name arguments implicit line :: stmts | missing :: stmts =>
    simp only [eraseAllLines, eraseLines, spliced, spliced_eraseAllLines stmts]

end Stmt

namespace Program

/-- `layout` of a program does not depend on its lines. -/
theorem layout_eraseLines (program : Program) : program.eraseLines.layout = program.layout := by
  rw [layout, eraseLines, Stmt.spliced_eraseAllLines, Stmt.layoutTop_eraseAllLines, layout]

/-- **`parse` and `layout` undo each other, up to lines.** What is read is well formed, what is well
formed is read back up to lines, and a layout that is read and laid out again stays as it is. -/
theorem layout_roundTrip :
    (∀ source program, parse source = .ok program → program.WellFormed) ∧
    (∀ program : Program, program.WellFormed → ∃ again,
      parse (Text.utf8 program.layout) = .ok again ∧ again.eraseLines = program.eraseLines) ∧
    (∀ source program, parse source = .ok program → ∃ again,
      parse (Text.utf8 program.layout) = .ok again ∧ again.layout = program.layout) := by
  refine ⟨fun source program => wellFormed_of_parse, fun program => parse_layout, ?_⟩
  intro source program found
  obtain ⟨again, read, same⟩ := parse_layout (wellFormed_of_parse found)
  refine ⟨again, read, ?_⟩
  rw [← layout_eraseLines again, same, layout_eraseLines]

/-- A source with words of the language as names, names with signs and digits, and the greatest
number. -/
def wordsSource : List UInt8 := Text.utf8
  "(DEF step-2 (if -x) (call Repeat if -x)) (set set 9223372036854775807) (step-2 007 _)"

/-- The program of that source. -/
def wordsProgram : Program :=
  ⟨[.define "step-2" ["if", "-x"] [.call "repeat" [.var "if" 1, .var "-x" 1] false 1] 1,
    .assign "set" (.number 9223372036854775807 1) 1,
    .call "step-2" [.number 7 1, .var "_" 1] true 1], 1⟩

/-- `parse` reads `wordsSource` as `wordsProgram`. -/
theorem parse_wordsSource : parse wordsSource = .ok wordsProgram :=
  eq_ok_of_toOption (by decide +kernel)

/-- The program of `wordsSource` is well formed, its layout is read back up to lines, and that is
laid out in the same way. -/
theorem layout_roundTrip_words :
    parse wordsSource = .ok wordsProgram ∧ wordsProgram.WellFormed ∧
    (∃ again, parse (Text.utf8 wordsProgram.layout) = .ok again ∧
      again.eraseLines = wordsProgram.eraseLines) ∧
    ∃ again, parse (Text.utf8 wordsProgram.layout) = .ok again ∧
      again.layout = wordsProgram.layout := by
  have wellFormed := layout_roundTrip.1 wordsSource wordsProgram parse_wordsSource
  exact ⟨parse_wordsSource, wellFormed, layout_roundTrip.2.1 wordsProgram wellFormed,
    layout_roundTrip.2.2 wordsSource wordsProgram parse_wordsSource⟩

end Program

end MazeRobot
