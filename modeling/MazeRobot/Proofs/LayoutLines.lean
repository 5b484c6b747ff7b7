import Mathlib.Data.List.Forall2
import MazeRobot.Proofs.Parts
import MazeRobot.Proofs.RoundTrip
import MazeRobot.Text.Blank

/-! # The lines of a layout

A layout shows the statements of a program in the order in which a walk visits them, one to a line.
A line starts with two blanks for each statement around the one that it shows, then comes the text
of that statement up to its body, and then the closing parentheses of all lists that end there. At
the top level there is a blank line next to function definitions.

* `Text.Tidy`: a text on one line that does not end in a blank.
* `Stmt.heading`: the text of a statement up to its body.
* `Stmt.nested`: the statements in a statement, with the number of statements around each.
* `Stmt.Opens`: a line that shows a statement.
* `Stmt.rows`: what each line of a layout shows.
* `Program.layout_lines`: the lines of a layout. -/

namespace MazeRobot

/-! ## Texts on one line -/

namespace Text

/-- A text on one line that ends in a character that is not blank. -/
structure Tidy (text : String) : Prop where
  unbroken : '\n' ∉ text.toList
  ends : ∃ c, text.toList.getLast? = some c ∧ isBlank c = false

instance (text : String) : Decidable (Tidy text) :=
  decidable_of_iff
    ('\n' ∉ text.toList ∧ text.toList.getLast?.any (fun c => !isBlank c) = true) (by
      refine Iff.trans (and_congr_right fun _ => ?_) ⟨fun both => ⟨both.1, both.2⟩, fun tidy =>
        ⟨tidy.unbroken, tidy.ends⟩⟩
      cases text.toList.getLast? <;> simp)

namespace Tidy

variable {first text : String}

/-- A `Tidy` text is not empty. -/
theorem ne_empty (tidy : Tidy text) : text ≠ "" := by
  rintro rfl
  obtain ⟨c, last, -⟩ := tidy.ends
  cases last

/-- A text without blanks is `Tidy` if it is not empty. -/
theorem of_ink (some : text.toList ≠ []) (ink : ∀ c ∈ text.toList, isBlank c = false) :
    Tidy text := by
  refine ⟨fun broken => absurd (ink _ broken) (by decide), _, List.getLast?_eq_some_getLast some, ?_⟩
  exact ink _ (List.getLast_mem some)

/-- A `Tidy` text stays so after a text on the same line. -/
theorem after (tidy : Tidy text) (unbroken : '\n' ∉ first.toList) : Tidy (first ++ text) := by
  obtain ⟨unbroken', c, last, ink⟩ := tidy
  constructor
  · rw [String.toList_append, List.mem_append, not_or]
    exact ⟨unbroken, unbroken'⟩
  · refine ⟨c, ?_, ink⟩
    rw [String.toList_append, List.getLast?_append, last]
    rfl

/-- Two `Tidy` texts in a row are tidy. -/
theorem append (left : Tidy first) (right : Tidy text) : Tidy (first ++ text) :=
  right.after left.unbroken

end Tidy

/-- Some closing parentheses. -/
def closing (n : Nat) : String := String.ofList (List.replicate n ')')

/-- `closing` one parenthesis more. -/
theorem closing_succ (n : Nat) : ")" ++ closing n = closing (n + 1) := by
  rw [closing, closing, List.replicate_succ, ← String.toList_inj]
  simp

/-- `closing` parentheses keep a text `Tidy`. -/
theorem Tidy.close {text : String} (tidy : Tidy text) (n : Nat) : Tidy (text ++ closing n) := by
  induction n generalizing text with
  | zero =>
    rw [closing, List.replicate_zero]
    simpa using tidy
  | succ n ih =>
    have closed : Tidy (text ++ ")") := tidy.append (by decide +kernel)
    rw [← closing_succ, ← String.append_assoc]
    exact ih closed

/-- Lines, each after a line break. -/
def broken (lines : List String) : String := String.join (lines.map ("\n" ++ ·))

/-- Lines, each ended by a line break. -/
def ended (lines : List String) : String := String.join (lines.map (· ++ "\n"))

/-- `ended` lines in a row. -/
theorem ended_append (first second : List String) :
    ended (first ++ second) = ended first ++ ended second := by
  simp [ended]

/-- `broken` lines with a line break in the end are `ended` lines. -/
theorem broken_append_lineBreak (line : String) (lines : List String) :
    line ++ broken lines ++ "\n" = ended (line :: lines) := by
  induction lines generalizing line with
  | nil => simp [broken, ended]
  | cons next lines ih =>
    have rest := ih next
    simp only [broken, ended, List.map_cons, String.join_cons, String.append_assoc] at rest ⊢
    rw [rest]

end Text

/-! ## Texts of names, values and conditions -/

/-- A text that `IsName` is `Tidy`: it is not empty, and none of its letters is blank. -/
theorem IsName.tidy {name : String} (isName : IsName name) : Text.Tidy name := by
  have ink := isName.forall_mem (p := fun c => !Text.isBlank c) (by decide +kernel)
  refine .of_ink ?_ fun c member => by simpa using ink c member
  intro none
  have symbol := isName.bytes.1
  rw [String.toList_eq_nil_iff.mp none] at symbol
  revert symbol
  decide +kernel

/-- `Nat.repr` is `Tidy`: it is written in digits. -/
theorem Text.Tidy.repr (n : Nat) : Tidy n.repr := by
  refine .of_ink ?_ ?_
  · rw [Nat.toList_repr]
    exact Nat.toDigits_ne_nil
  · rw [Nat.toList_repr]
    intro c member
    have digit : c.isDigit = true := Nat.isDigit_of_mem_toDigits (by decide) (by decide) member
    have range : 0x30 ≤ c.toNat ∧ c.toNat ≤ 0x39 := by
      simpa [Char.isDigit, UInt32.le_iff_toNat_le] using digit
    simp only [isBlank, Bool.or_eq_false_iff, Bool.and_eq_false_iff, decide_eq_false_iff_not,
      beq_eq_false_iff_ne]
    omega

/-- The `layout` of a well-formed value is `Tidy`. -/
theorem Expr.WellFormed.tidy {value : Expr} (wellFormed : value.WellFormed) :
    Text.Tidy value.layout := by
  cases value with
  | number value line =>
    obtain ⟨n, rfl⟩ := Int.eq_ofNat_of_zero_le wellFormed.1
    exact .repr n
  | var name line => exact IsName.tidy wellFormed
  | distance line => exact (by decide +kernel : Text.Tidy "(distance-to-end)")
  | missing => exact wellFormed.elim

/-- The `layout` of a condition is `Tidy`. -/
theorem Condition.tidy (condition : Condition) : Text.Tidy condition.layout := by
  obtain ⟨query, negated, direction, line⟩ := condition
  have inner : Text.Tidy ("(" ++ query.name ++ " " ++ direction.name ++ ")") := by
    cases query <;> cases direction <;> decide +kernel
  cases negated with
  | false => exact inner
  | true =>
    have inside : Text.Tidy ("(not " ++ ("(" ++ query.name ++ " " ++ direction.name ++ ")")) :=
      inner.after (by decide +kernel)
    exact inside.append (by decide +kernel)

/-- Values after a `Tidy` text, each after a blank. -/
theorem Expr.tidy_join {values : List Expr} (wellFormed : ∀ value ∈ values, value.WellFormed)
    {text : String} (tidy : Text.Tidy text) :
    Text.Tidy (text ++ String.join (values.map (" " ++ ·.layout))) := by
  induction values generalizing text with
  | nil => simpa using tidy
  | cons value values ih =>
    have first : Text.Tidy (text ++ (" " ++ value.layout)) :=
      tidy.append ((wellFormed value List.mem_cons_self).tidy.after (by decide +kernel))
    rw [List.map_cons, String.join_cons, ← String.append_assoc]
    exact ih (fun other member => wellFormed other (List.mem_cons_of_mem _ member)) first

/-- Texts that are each `IsName`, with blanks between them, stay on one line. -/
theorem notMem_intercalate {names : List String} (isName : ∀ name ∈ names, IsName name) :
    '\n' ∉ (String.intercalate " " names).toList := by
  induction names with
  | nil => simp
  | cons name names ih =>
    have tail := ih fun other member => isName other (List.mem_cons_of_mem name member)
    have head := (isName name List.mem_cons_self).tidy.unbroken
    cases names with
    | nil => simpa using head
    | cons second names =>
      rw [String.intercalate_cons_cons]
      simp only [String.toList_append, List.mem_append, not_or]
      exact ⟨⟨head, by decide +kernel⟩, tail⟩

/-! ## Lines of statements -/

namespace Stmt

/-- The text of a statement up to its body, without the closing parenthesis. -/
def heading : Stmt → String
  | command kind _ => "(" ++ kind.keyword
  | loop count _ _ => "(repeat " ++ count.layout
  | branch condition _ _ => "(if " ++ condition.elim "" Condition.layout
  | assign name value _ => s!"(set {name} " ++ value.layout
  | define name parameters _ _ =>
    s!"(function {name} (" ++ String.intercalate " " parameters ++ ")"
  | call name arguments implicit _ =>
    (if implicit then s!"({name}" else s!"(call {name}") ++
      String.join (arguments.map (" " ++ ·.layout))
  | block _ _ | missing => ""

/-- The statements inside a statement. -/
def body : Stmt → List Stmt
  | block body _ | loop _ body _ | branch _ body _ | define _ _ body _ => body
  | command _ _ | assign _ _ _ | call _ _ _ _ | missing => []

mutual

/-- The statements in a statement, itself first and each before its parts, with the number of loops,
conditionals and functions around them. -/
def nested (depth : Nat) : Stmt → List (Nat × Stmt)
  | block body line => (depth, block body line) :: nestedAll depth body
  | command kind line => [(depth, command kind line)]
  | loop count body line => (depth, loop count body line) :: nestedAll (depth + 1) body
  | branch condition body line => (depth, branch condition body line) :: nestedAll (depth + 1) body
  | assign name value line => [(depth, assign name value line)]
  | define name parameters body line =>
    (depth, define name parameters body line) :: nestedAll (depth + 1) body
  | call name arguments implicit line => [(depth, call name arguments implicit line)]
  | missing => []

/-- The statements in statements. -/
def nestedAll (depth : Nat) : List Stmt → List (Nat × Stmt)
  | [] => []
  | stmt :: stmts => nested depth stmt ++ nestedAll depth stmts

end

/-- The line opens the statement: it is indented by two blanks for each statement around it, then
comes the heading, and then there are only closing parentheses. -/
structure Opens (place : Nat × Stmt) (line : String) : Prop where
  shown : ∃ closers, line = indentation place.1 ++ place.2.heading ++ Text.closing closers
  tidy : Text.Tidy line

variable {stmt : Stmt}

/-- A `layout` is the `heading`, the body one level deeper, and a closing parenthesis. -/
theorem WellFormed.layout_eq (wellFormed : stmt.WellFormed) (depth : Nat) :
    stmt.layout depth = stmt.heading ++ layoutBody (depth + 1) stmt.body ++ ")" := by
  cases stmt with
  | block body line => exact wellFormed.elim
  | missing => exact wellFormed.elim
  | _ => simp [layout, heading, body, layoutBody, String.append_assoc]

/-- `nested` has a statement first and then its body, one level deeper. -/
theorem WellFormed.nested_eq (wellFormed : stmt.WellFormed) (depth : Nat) :
    stmt.nested depth = (depth, stmt) :: nestedAll (depth + 1) stmt.body := by
  cases stmt with
  | block body line => exact wellFormed.elim
  | missing => exact wellFormed.elim
  | _ => simp [nested, nestedAll, body]

/-- A `heading` is on one line. -/
theorem WellFormed.tidy_heading (wellFormed : stmt.WellFormed) : Text.Tidy stmt.heading := by
  cases stmt with
  | block body line => exact wellFormed.elim
  | missing => exact wellFormed.elim
  | command kind line => exact kind.isName_keyword.tidy.after (by decide +kernel)
  | loop count body line => exact wellFormed.1.tidy.after (by decide +kernel)
  | branch condition body line =>
    obtain ⟨condition, rfl⟩ := Option.isSome_iff_exists.mp wellFormed.1
    exact condition.tidy.after (by decide +kernel)
  | assign name value line =>
    have front : '\n' ∉ (toString "(set " ++ toString name ++ toString " ").toList := by
      simp [toString, wellFormed.1.tidy.unbroken]
    exact wellFormed.2.tidy.after front
  | define name parameters body line =>
    obtain ⟨⟨isName, -⟩, areNames, -⟩ := wellFormed
    have close : Text.Tidy ")" := by decide +kernel
    have front : '\n' ∉ (toString "(function " ++ toString name ++ toString " (").toList := by
      simp [toString, isName.tidy.unbroken]
    refine close.after ?_
    rw [String.toList_append, List.mem_append, not_or]
    exact ⟨front, notMem_intercalate areNames⟩
  | call name arguments implicit line =>
    obtain ⟨isName, arguments⟩ := wellFormed
    refine Expr.tidy_join arguments ?_
    cases implicit with
    | true => exact isName.1.tidy.after (by decide +kernel)
    | false => exact isName.tidy.after (by decide +kernel)

/-- A `heading` after its indentation and before closing parentheses `Opens` its statement. -/
theorem WellFormed.opens (wellFormed : stmt.WellFormed) (depth closers : Nat) :
    Opens (depth, stmt) (indentation depth ++ stmt.heading ++ Text.closing closers) := by
  refine ⟨⟨closers, rfl⟩, (wellFormed.tidy_heading.after ?_).close closers⟩
  simp [indentation]

/-- The layout of a body with closing parentheses after it shows the statements in the body, line by
line. Parentheses before the first of these lines belong to the line above. -/
def BodyShown (depth closers : Nat) (body : List Stmt) : Prop :=
  ∃ closed lines,
    layoutBody depth body ++ Text.closing closers = Text.closing closed ++ Text.broken lines ∧
    List.Forall₂ Opens (nestedAll depth body) lines

/-- `BodyShown` for an empty body: all parentheses belong to the line above. -/
theorem BodyShown.nil (depth closers : Nat) : BodyShown depth closers [] :=
  ⟨closers, [], by simp [layoutBody, Text.broken], .nil⟩

mutual

/-- **A `layout` shows a statement and what is in it, line by line.** The number of parentheses that
close after the statement is general, since they are written on its last line. -/
theorem exists_lines (depth closers : Nat) {stmt : Stmt} (wellFormed : stmt.WellFormed) :
    ∃ line lines,
      indentation depth ++ stmt.layout depth ++ Text.closing closers =
        line ++ Text.broken lines ∧
      List.Forall₂ Opens (stmt.nested depth) (line :: lines) := by
  -- One more list ends after the body than after the statement.
  have inside : BodyShown (depth + 1) (closers + 1) stmt.body := by
    cases stmt with
    | block body line => exact wellFormed.elim
    | missing => exact wellFormed.elim
    | loop count body line => exact bodyShown _ _ wellFormed.2
    | branch condition body line => exact bodyShown _ _ wellFormed.2
    | define name parameters body line => exact bodyShown _ _ wellFormed.2.2.2
    | command kind line => exact .nil _ _
    | assign name value line => exact .nil _ _
    | call name arguments implicit line => exact .nil _ _
  obtain ⟨closed, lines, text, shown⟩ := inside
  refine ⟨indentation depth ++ stmt.heading ++ Text.closing closed, lines, ?_, ?_⟩
  · rw [wellFormed.layout_eq]
    simp only [String.append_assoc, Text.closing_succ, text]
  · rw [wellFormed.nested_eq]
    exact .cons (wellFormed.opens depth closed) shown

/-- `BodyShown` for a well-formed body. -/
theorem bodyShown (depth closers : Nat) {body : List Stmt} (wellFormed : AllWellFormed body) :
    BodyShown depth closers body := by
  match body with
  | [] => exact .nil depth closers
  | stmt :: stmts =>
    -- What closes before the lines of the others is written where the first statement ends.
    obtain ⟨closed, others, text, shown⟩ := bodyShown depth closers wellFormed.2
    obtain ⟨line, lines, first, opened⟩ := exists_lines depth closed wellFormed.1
    refine ⟨0, line :: lines ++ others, ?_, List.rel_append opened shown⟩
    have parts : layoutBody depth (stmt :: stmts) ++ Text.closing closers =
        "\n" ++ (indentation depth ++ stmt.layout depth ++ Text.closing closed) ++
          Text.broken others := by
      rw [layoutBody_cons depth wellFormed.1]
      simp only [String.append_assoc, text]
    rw [parts, first]
    simp [Text.broken, Text.closing, String.append_assoc]

end

/-! ## Lines at the top level -/

/-- What stands between two statements at the top level: a blank line where one of them is a
function definition, and otherwise nothing. -/
def gap (before after : Stmt) : List (Option (Nat × Stmt)) :=
  if before.isDefinition || after.isDefinition then [none] else []

/-- What each line of a layout shows: a statement, or nothing. -/
def rows : List Stmt → List (Option (Nat × Stmt))
  | [] => []
  | [stmt] => (stmt.nested 0).map some
  | stmt :: next :: stmts => (stmt.nested 0).map some ++ (gap stmt next ++ rows (next :: stmts))

/-- The line shows a statement by opening it, and nothing by being empty. -/
inductive Shows : Option (Nat × Stmt) → String → Prop where
  | nothing : Shows none ""
  | stmt {place : Nat × Stmt} {line : String} (opens : Opens place line) : Shows (some place) line

/-- `rows` without the blank lines are all statements. -/
theorem rows_reduceOption (stmts : List Stmt) : (rows stmts).reduceOption = nestedAll 0 stmts := by
  induction stmts using rows.induct with
  | case1 => rfl
  | case2 stmt => simp [rows, nestedAll, List.reduceOption]
  | case3 stmt next stmts ih =>
    have nothing : (gap stmt next).reduceOption = [] := by
      unfold gap
      split <;> rfl
    rw [rows, List.reduceOption_append, List.reduceOption_append, ih, nothing, List.nil_append]
    simp [List.reduceOption, nestedAll]

/-- The lines of the `layout` of a statement at the top level. -/
theorem exists_topLines {stmt : Stmt} (wellFormed : stmt.WellFormed) :
    ∃ lines last, stmt.layout 0 ++ "\n" = Text.ended lines ∧
      List.Forall₂ Shows ((stmt.nested 0).map some) lines ∧
      lines.getLast? = some last ∧ Text.Tidy last := by
  obtain ⟨line, lines, text, opened⟩ := exists_lines 0 0 wellFormed
  have bare : indentation 0 ++ stmt.layout 0 ++ Text.closing 0 = stmt.layout 0 := by
    simp [indentation, Text.closing]
  have tidy : ∀ shown ∈ line :: lines, Text.Tidy shown :=
    ((List.forall₂_and_left _ _).mp (opened.flip.imp fun _ _ opens => ⟨opens.tidy, opens⟩)).1
  have some : line :: lines ≠ [] := List.cons_ne_nil _ _
  refine ⟨line :: lines, _, ?_, ?_, List.getLast?_eq_some_getLast some,
    tidy _ (List.getLast_mem some)⟩
  · rw [← bare, text, Text.broken_append_lineBreak]
  · exact List.forall₂_map_left_iff.mpr (opened.imp fun _ _ => .stmt)

/-- **The lines of `layoutTop`**, that is, of statements at the top level. The last one is not
blank. -/
theorem exists_rows {stmt : Stmt} {stmts : List Stmt} (wellFormed : AllWellFormed (stmt :: stmts)) :
    ∃ lines last, layoutTop (stmt :: stmts) = Text.ended lines ∧
      List.Forall₂ Shows (rows (stmt :: stmts)) lines ∧
      lines.getLast? = some last ∧ Text.Tidy last := by
  induction stmts generalizing stmt with
  | nil => exact exists_topLines wellFormed.1
  | cons next stmts ih =>
    obtain ⟨lines, -, text, shown, -⟩ := exists_topLines wellFormed.1
    obtain ⟨others, last, rest, below, ends, tidy⟩ := ih wellFormed.2
    -- The separator ends the line of the first statement, and a blank line if there is one.
    obtain ⟨blank, between, empty⟩ : ∃ blank, separator stmt next = "\n" ++ Text.ended blank ∧
        List.Forall₂ Shows (gap stmt next) blank := by
      unfold separator gap
      split
      · exact ⟨[""], rfl, .cons .nothing .nil⟩
      · exact ⟨[], rfl, .nil⟩
    refine ⟨lines ++ (blank ++ others), last, ?_, ?_, ?_, tidy⟩
    · rw [Text.ended_append, Text.ended_append, ← rest, ← text]
      simp only [layoutTop, layoutAfter, between, String.append_assoc]
    · exact List.rel_append shown (List.rel_append empty below)
    · rw [List.getLast?_append, List.getLast?_append, ends]
      rfl

/-- A line that `Shows` a row is blank or `Tidy`. -/
theorem tidy_of_forall₂ {rows : List (Option (Nat × Stmt))} {lines : List String}
    (shown : List.Forall₂ Shows rows lines) : ∀ line ∈ lines, line = "" ∨ Text.Tidy line := by
  induction shown with
  | nil => exact List.forall_mem_nil _
  | cons shows rest ih =>
    refine List.forall_mem_cons.mpr ⟨?_, ih⟩
    cases shows with
    | nothing => exact .inl rfl
    | stmt opens => exact .inr opens.tidy

/-- A line that `Shows` a row and is not blank `Opens` a statement. -/
theorem forall₂_opens {rows : List (Option (Nat × Stmt))} {lines : List String}
    (shown : List.Forall₂ Shows rows lines) :
    List.Forall₂ Opens rows.reduceOption (lines.filter (· ≠ "")) := by
  induction shown with
  | nil => exact .nil
  | cons shows rest ih =>
    cases shows with
    | nothing => exact ih
    | stmt opens =>
      rw [List.reduceOption_cons_of_some, List.filter_cons_of_pos (by simp [opens.tidy.ne_empty])]
      exact .cons opens ih

/-! ## Statements among the nodes -/

end Stmt

/-- The statement that a node is, if it is one. -/
def Node.stmt? : Node → Option Stmt
  | stmt s => some s
  | expr _ | condition _ => none

/-- `Node.stmt?` finds no statements in values. -/
theorem Expr.filterMap_stmt?_walk (value : Expr) : value.walk.filterMap Node.stmt? = [] := by
  cases value <;> rfl

namespace Stmt

mutual

/-- `nested` has the statements among the nodes of a statement, in the same order. -/
theorem map_snd_nested (depth : Nat) (stmt : Stmt) :
    (stmt.nested depth).map Prod.snd = stmt.nodes.filterMap Node.stmt? := by
  cases stmt with
  | block body line => simp [nested, Node.stmt?, map_snd_nestedAll depth body]
  | command kind line => rfl
  | loop count body line =>
    simp [nested, Node.stmt?, Expr.filterMap_stmt?_walk, map_snd_nestedAll (depth + 1) body]
  | branch condition body line =>
    cases condition <;>
      simp [nested, Node.stmt?, List.filterMap_cons, map_snd_nestedAll (depth + 1) body]
  | assign name value line => simp [nested, Node.stmt?, Expr.filterMap_stmt?_walk]
  | define name parameters body line =>
    simp [nested, Node.stmt?, map_snd_nestedAll (depth + 1) body]
  | call name arguments implicit line =>
    simp [nested, Node.stmt?, List.filterMap_flatMap, Expr.filterMap_stmt?_walk]
  | missing => rfl

/-- `nestedAll` has the statements among the nodes of statements, in the same order. -/
theorem map_snd_nestedAll (depth : Nat) (stmts : List Stmt) :
    (nestedAll depth stmts).map Prod.snd = (nodesAll stmts).filterMap Node.stmt? := by
  match stmts with
  | [] => rfl
  | stmt :: stmts =>
    rw [nestedAll, nodesAll_cons, List.map_append, List.filterMap_append, map_snd_nested,
      map_snd_nestedAll]

end

end Stmt

namespace Program

/-- The statements of a program in the order of a walk, without the program itself. -/
def statements (program : Program) : List Stmt := program.nodes.tail.filterMap Node.stmt?

/-- **The canonical `layout`, line by line.** The layout of a program that was read is empty exactly
if the program has no statements. Otherwise it ends with exactly one line break. No line ends in a
blank. The lines that are not blank open the statements of the program, one each and in the order of
a walk, behind two blanks for each loop, conditional and function around the statement. A blank line
stands between two statements at the top level exactly if one of them is a function definition. -/
theorem layout_lines {source : List UInt8} {program : Program}
    (parsed : parse source = .ok program) :
    (program.layout = "" ↔ program.body = []) ∧
    (program.body ≠ [] →
      (∃ front c, program.layout.toList = front ++ [c, '\n'] ∧ c ≠ '\n') ∧
      ∃ lines, program.layout = Text.ended lines ∧
        (∀ line ∈ lines, '\n' ∉ line.toList ∧
          ∀ c, line.toList.getLast? = some c → Text.isBlank c = false) ∧
        List.Forall₂ Stmt.Opens (Stmt.nestedAll 0 program.body) (lines.filter (· ≠ "")) ∧
        (Stmt.nestedAll 0 program.body).map Prod.snd = program.statements ∧
        (lines.filter (· ≠ "")).length = program.statements.length ∧
        List.Forall₂ Stmt.Shows (Stmt.rows program.body) lines) := by
  have wellFormed := wellFormed_of_parse parsed
  have text : program.layout = Stmt.layoutTop program.body := by
    rw [layout, Stmt.spliced_of_allWellFormed wellFormed]
  have statements : (Stmt.nestedAll 0 program.body).map Prod.snd = program.statements :=
    Stmt.map_snd_nestedAll 0 program.body
  obtain ⟨body, line⟩ := program
  cases body with
  | nil => exact ⟨iff_of_true text rfl, fun some => absurd rfl some⟩
  | cons stmt stmts =>
    obtain ⟨lines, last, found, shown, ends, tidy⟩ := Stmt.exists_rows wellFormed
    obtain ⟨front, rfl⟩ := List.getLast?_eq_some_iff.mp ends
    obtain ⟨c, final, ink⟩ := tidy.ends
    obtain ⟨start, chars⟩ := List.getLast?_eq_some_iff.mp final
    -- The last line is not blank, so only its own line break ends the layout.
    have oneBreak : (Program.mk (stmt :: stmts) line).layout.toList =
        ((Text.ended front).toList ++ start) ++ [c, '\n'] := by
      rw [text, found, Text.ended_append]
      simp [Text.ended, chars]
    have opened := Stmt.forall₂_opens shown
    rw [Stmt.rows_reduceOption] at opened
    refine ⟨iff_of_false ?_ (List.cons_ne_nil _ _), fun _ => ⟨⟨_, c, oneBreak, ?_⟩, _,
      text.trans found, fun shownLine member => ?_, opened, statements, ?_, shown⟩⟩
    · intro empty
      rw [empty] at oneBreak
      simp at oneBreak
    · rintro rfl
      exact absurd ink (by decide)
    · obtain rfl | ⟨unbroken, d, lastChar, ink⟩ := Stmt.tidy_of_forall₂ shown shownLine member
      · exact ⟨by simp, fun c none => by cases none⟩
      · refine ⟨unbroken, fun c found => ?_⟩
        cases lastChar.symm.trans found
        exact ink
    · rw [← statements, List.length_map, opened.length_eq]

/-- A source with a function whose lists all end at the same place, and two statements after it. -/
def stairsSource : List UInt8 :=
  Text.utf8 "(def f () (repeat 2 (forward) (if (closer left)))) (f) (set x 1)"

/-- The program of that source. -/
def stairsProgram : Program :=
  ⟨[.define "f" []
      [.loop (.number 2 1) [.command .forward 1, .branch (some ⟨.closer, false, .left, 1⟩) [] 1] 1]
      1,
    .call "f" [] true 1, .assign "x" (.number 1 1) 1], 1⟩

/-- Its six statements are laid out on six lines, with a blank line after the function. -/
theorem layout_lines_stairs :
    parse stairsSource = .ok stairsProgram ∧ stairsProgram.body ≠ [] ∧
    stairsProgram.layout =
      "(function f ()\n  (repeat 2\n    (forward)\n    (if (closer left))))\n\n(f)\n(set x 1)\n" ∧
    (∃ front c, stairsProgram.layout.toList = front ++ [c, '\n'] ∧ c ≠ '\n') ∧
    ∃ lines, stairsProgram.layout = Text.ended lines ∧ (lines.filter (· ≠ "")).length = 6 ∧
      List.Forall₂ Stmt.Shows (Stmt.rows stairsProgram.body) lines := by
  have parsed : parse stairsSource = .ok stairsProgram := eq_ok_of_toOption (by decide +kernel)
  have some : stairsProgram.body ≠ [] := List.cons_ne_nil _ _
  obtain ⟨oneBreak, lines, text, -, -, -, count, shown⟩ := (layout_lines parsed).2 some
  refine ⟨parsed, some, ?_, oneBreak, lines, text, count, shown⟩
  rw [layout, Stmt.spliced_of_allWellFormed (wellFormed_of_parse parsed)]
  decide +kernel

end Program

end MazeRobot
