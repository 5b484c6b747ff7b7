import MazeRobot.Proofs.Language
import MazeRobot.Proofs.Parts
import MazeRobot.Proofs.TokenPlaces

/-! # Places of faults and nodes

Places are only ever taken from tokens. A fault that follows its places wherever they are moved to
is told at the place of a token. For the nodes of a program there is more to say: in a derivation
the words from which nodes take their lines come in the order in which the nodes are visited. So the
lines of a walk are a part of the lines of the tokens, in order, and these never decrease.

* `Form.group_append_stop`: the end mark adds nothing.
* `Token.pairwise_line_of_scan`: the lines of tokens never decrease.
* `StmtTree.lines_walk_sublist`: the lines that a walk meets, among those of the tokens.
* `Program.parse_places`: faults and nodes stand at tokens, and nodes are visited line by line. -/

namespace MazeRobot

/-! ## Faults -/

namespace Form

/-- `groupFrom` gets nothing from the end mark. -/
theorem groupFrom_append_stop {stop : Token} (ended : stop.cls = .endOfInput) (state : Grouping)
    (tokens : List Token) : groupFrom state (tokens ++ [stop]) = groupFrom state tokens := by
  induction tokens generalizing state with
  | nil => simp only [List.nil_append, groupFrom, ended]
  | cons token tokens ih =>
    obtain ⟨cls, literal, mark⟩ := token
    rw [List.cons_append]
    cases cls with
    | endOfInput => rfl
    | opening => exact ih _
    | closing =>
      simp only [groupFrom]
      cases state.closeAt mark with
      | ok closed => exact ih closed
      | error fault => rfl
    | number => exact ih _
    | symbol => exact ih _

/-- `group` gets nothing from the end mark. -/
theorem group_append_stop {stop : Token} (ended : stop.cls = .endOfInput) (tokens : List Token) :
    group (tokens ++ [stop]) = group tokens :=
  groupFrom_append_stop ended .empty tokens

end Form

/-- A fault of `ofTokens` points at one of the tokens, and not at the end mark. -/
theorem Program.exists_pointsAt_of_ofTokens {before : List Token} {stop : Token} {fault : Fault}
    (ended : stop.cls = .endOfInput) (failed : ofTokens (before ++ [stop]) = .error fault) :
    ∃ token ∈ before, fault.PointsAt token.mark := by
  rw [ofTokens, Form.group_append_stop ended] at failed
  refine exists_pointsAt (fun move stay => ⟨moved move, ?_⟩) failed
  have follows := follows_ofTokens move before
  rwa [stay] at follows

/-! ## Lines of tokens -/

/-- `Mark.ofOffset` of a later offset is on no earlier line. -/
theorem Mark.line_ofOffset_mono (source : List UInt8) {p q : Nat} (le : p ≤ q) :
    (ofOffset source p).line ≤ (ofOffset source q).line :=
  Nat.add_le_add_left ((List.take_prefix_take_left le).sublist.count_le _) 1

namespace Token

variable {source : List UInt8} {tokens : List Token}

/-- **The lines of the tokens of `scan` never decrease.** -/
theorem pairwise_line_of_scan (scanned : scan source = .ok tokens) :
    (tokens.map line).Pairwise (· ≤ ·) := by
  obtain ⟨places, rfl, laid⟩ := Laid.of_scan scanned
  rw [List.map_map, List.pairwise_map]
  refine laid.apart.imp_of_mem fun {first second} left right apart => ?_
  have earlier := (laid.standsAt first left).placed
  have later := (laid.standsAt second right).placed
  simp only [Function.comp_apply, line, earlier, later]
  exact Int.ofNat_le.mpr (Mark.line_ofOffset_mono source (Nat.le_of_lt apart.1))

/-- The lines of the tokens of `scan` count from one. -/
theorem one_le_line_of_scan (scanned : scan source = .ok tokens) :
    ∀ token ∈ tokens, 1 ≤ token.line := by
  intro token member
  obtain ⟨places, rfl, laid⟩ := Laid.of_scan scanned
  obtain ⟨place, found, rfl⟩ := List.mem_map.mp member
  rw [line, (laid.standsAt place found).placed, Mark.ofOffset, Mark.past]
  exact Int.ofNat_le.mpr (Nat.le_add_right 1 _)

end Token

/-! ## Lines of nodes -/

/-- The lines of a node and of its parts, where `Node.above` visits them. -/
theorem Node.lines_above_sublist {enter : Node → Bool} {node : Node} {parts : List Node}
    {lines : List Int} (inside : (parts.map line).Sublist lines) :
    ((above enter node parts).map line).Sublist (node.line :: lines) := by
  unfold above
  rw [List.map_cons]
  split
  · exact inside.cons_cons _
  · exact (List.nil_sublist _).cons_cons _

/-- The line of a value that an `ExprTree` denotes is that of one of its tokens. -/
theorem ExprTree.lines_walk_sublist (tree : ExprTree) :
    (tree.denote.walk.map Node.line).Sublist (tree.tokens.map Token.line) := by
  cases tree with
  | number numeral => exact List.Sublist.refl _
  | var name => exact List.Sublist.refl _
  | distance opening word closing => exact (List.nil_sublist _).cons_cons _

/-- The lines of values that `ExprTree`s denote are among those of their tokens, in order. -/
theorem ExprTree.lines_flatMap_walk_sublist (trees : List ExprTree) :
    (((trees.map denote).flatMap Expr.walk).map Node.line).Sublist
      ((trees.flatMap tokens).map Token.line) := by
  induction trees with
  | nil => exact List.Sublist.refl _
  | cons tree trees ih =>
    rw [List.map_cons, List.flatMap_cons, List.flatMap_cons, List.map_append, List.map_append]
    exact tree.lines_walk_sublist.append ih

/-- The line of a condition that a `ConditionTree` denotes is that of the word of its query,
whatever negations are around it. -/
theorem ConditionTree.line_mem (tree : ConditionTree) (negations : Nat) :
    (tree.denoteUnder negations).line ∈ tree.tokens.map Token.line := by
  induction tree generalizing negations with
  | query opening kind word direction side closing =>
    simp [denoteUnder, tokens]
  | negation opening word inner closing ih =>
    have found := ih (negations + 1)
    simp only [denoteUnder, tokens, List.map_cons, List.map_append, List.mem_cons,
      List.mem_append]
    exact .inr (.inr (.inl found))

namespace StmtTree

mutual

/-- **A `walk` meets lines of tokens, in their order.** The line of a statement is that of its first
word, and its parts come after that word. -/
theorem lines_walk_sublist (enter : Node → Bool) (tree : StmtTree) :
    ((tree.denote.walk enter).map Node.line).Sublist (tree.tokens.map Token.line) := by
  cases tree with
  | command opening kind word closing =>
    refine .cons _ (Node.lines_above_sublist ?_)
    exact List.nil_sublist _
  | turn opening word side closing =>
    refine .cons _ (Node.lines_above_sublist ?_)
    exact List.nil_sublist _
  | loop opening word count body closing =>
    refine .cons _ (Node.lines_above_sublist ?_)
    rw [List.map_append, List.map_append, List.map_append]
    refine .trans ?_ (List.sublist_append_left _ _)
    exact count.lines_walk_sublist.append (lines_walkAll_sublist enter body)
  | branch opening word condition body closing =>
    refine .cons _ (Node.lines_above_sublist ?_)
    rw [List.map_append, List.map_append, List.map_append]
    refine .trans ?_ (List.sublist_append_left _ _)
    refine .append ?_ (lines_walkAll_sublist enter body)
    exact List.singleton_sublist.mpr (condition.line_mem 0)
  | assign opening word name value closing =>
    refine .cons _ (Node.lines_above_sublist (.cons _ ?_))
    rw [List.map_append]
    exact value.lines_walk_sublist.trans (List.sublist_append_left _ _)
  | define opening word name left parameters right body closing =>
    refine .cons _ (Node.lines_above_sublist (.cons _ (.cons _ ?_)))
    rw [List.map_append, List.map_cons, List.map_append]
    refine .trans ?_ (List.sublist_append_right _ _)
    refine .cons _ (.trans ?_ (List.sublist_append_left _ _))
    exact lines_walkAll_sublist enter body
  | call opening word name arguments closing =>
    refine .cons _ (Node.lines_above_sublist (.cons _ ?_))
    rw [List.map_append]
    refine .trans ?_ (List.sublist_append_left _ _)
    exact ExprTree.lines_flatMap_walk_sublist arguments
  | implicit opening name arguments closing =>
    refine .cons _ (Node.lines_above_sublist ?_)
    rw [List.map_append]
    refine .trans ?_ (List.sublist_append_left _ _)
    exact ExprTree.lines_flatMap_walk_sublist arguments

/-- `walkAll` meets lines of tokens, in their order. -/
theorem lines_walkAll_sublist (enter : Node → Bool) (trees : List StmtTree) :
    ((Stmt.walkAll enter (denoteAll trees)).map Node.line).Sublist
      ((tokensAll trees).map Token.line) := by
  match trees with
  | [] => exact List.Sublist.refl _
  | tree :: trees =>
    rw [denoteAll, tokensAll, Stmt.walkAll, List.map_append, List.map_append]
    exact (lines_walk_sublist enter tree).append (lines_walkAll_sublist enter trees)

end

end StmtTree

namespace Program

/-- The lines that `walkAll` meets in a program, below the program itself, are among those of the
tokens of its source, in order. -/
theorem lines_walkAll_sublist_of_parse {source : List UInt8} {program : Program}
    (parsed : parse source = .ok program) :
    program.line = 1 ∧ ∃ before stop, Token.scan source = .ok (before ++ [stop]) ∧
      (∀ token ∈ before, token.cls ≠ .endOfInput) ∧
      ∀ enter, ((Stmt.walkAll enter program.body).map Node.line).Sublist
        (before.map Token.line) := by
  obtain ⟨forms, stmts, read, meaning, rfl⟩ := parse_eq_ok_iff.mp parsed
  obtain ⟨tokens, stop, scanned, -, spelled⟩ := Form.read_eq_ok_iff.mp read
  obtain ⟨before, stop', parts, -, each⟩ := Lexer.exists_stop_of_scan scanned
  obtain ⟨rfl, -⟩ := List.append_inj' parts rfl
  obtain ⟨trees, rfl, rfl⟩ := StmtTree.exists_of_ofForms spelled meaning
  exact ⟨rfl, _, stop, scanned, fun token member => (each token member).1,
    fun enter => StmtTree.lines_walkAll_sublist enter trees⟩

/-- **Places are genuine and in order.** A fault `PointsAt` a token of the source that is not the
end mark, or is told exactly at the first `Stray` byte. Every node of a program but the program
itself is on the line of such a token. A walk visits the nodes line by line, whatever nodes it
enters. -/
theorem parse_places (source : List UInt8) :
    (∀ fault, parse source = .error fault →
      (∃ tokens, Token.scan source = .ok tokens ∧
        ∃ token ∈ tokens, token.cls ≠ .endOfInput ∧ fault.PointsAt token.mark) ∨
      ∃ i, Stray source i ∧ (∀ j < i, ¬ Stray source j) ∧
        fault.line = (Mark.ofOffset source i).line ∧
        fault.column = (Mark.ofOffset source i).column) ∧
    ∀ program, parse source = .ok program →
      (∃ tokens, Token.scan source = .ok tokens ∧ ∀ node ∈ program.nodes.tail,
        ∃ token ∈ tokens, token.cls ≠ .endOfInput ∧ node.line = token.line) ∧
      ∀ enter, ((program.walk enter).map Node.line).Pairwise (· ≤ ·) := by
  refine ⟨fun fault failed => ?_, fun program parsed => ?_⟩
  · rw [parse_eq] at failed
    cases scanned : Token.scan source with
    | error stray =>
      rw [scanned] at failed
      obtain ⟨i, isStray, first, rfl⟩ := Token.exists_stray_of_scan scanned
      cases failed
      exact .inr ⟨i, isStray, first, rfl, rfl⟩
    | ok tokens =>
      rw [scanned] at failed
      obtain ⟨before, stop, rfl, ended, each⟩ := Lexer.exists_stop_of_scan scanned
      obtain ⟨token, member, points⟩ := exists_pointsAt_of_ofTokens ended failed
      exact .inl ⟨_, rfl, token, List.mem_append_left _ member, (each token member).1, points⟩
  · obtain ⟨root, before, stop, scanned, some, lines⟩ := lines_walkAll_sublist_of_parse parsed
    refine ⟨⟨_, scanned, fun node member => ?_⟩, fun enter => ?_⟩
    · have line := (lines fun _ => true).subset (List.mem_map_of_mem (f := Node.line) member)
      obtain ⟨token, found, same⟩ := List.mem_map.mp line
      exact ⟨token, List.mem_append_left _ found, some token found, same.symm⟩
    · -- The program itself is on the first line, before all tokens.
      have ordered := Token.pairwise_line_of_scan scanned
      rw [List.map_append] at ordered
      have below : (program.line :: before.map Token.line).Pairwise (· ≤ ·) := by
        refine List.pairwise_cons.mpr ⟨fun line member => ?_, (List.pairwise_append.mp ordered).1⟩
        obtain ⟨token, found, rfl⟩ := List.mem_map.mp member
        rw [root]
        exact Token.one_le_line_of_scan scanned token (List.mem_append_left _ found)
      exact below.sublist (Node.lines_above_sublist (lines enter))

/-- A conditional that is spread over five lines. -/
def spreadSource : List UInt8 := Text.utf8 "(if\n(not\n(closer front))\n(go\nx))"

/-- The program of that source. The line of the condition is that of the word inside the negation.
-/
def spreadProgram : Program :=
  ⟨[.branch (some ⟨.closer, true, .front, 3⟩) [.call "go" [.var "x" 5] true 4] 1], 1⟩

/-- A source with a fault of which only the line is told. -/
def lateFaultSource : List UInt8 := Text.utf8 "(turn\n1)"

/-- The lines of the conditional are those of tokens, in order, and the fault is on the line of a
token. -/
theorem parse_places_spread :
    parse spreadSource = .ok spreadProgram ∧
    spreadProgram.nodes.map Node.line = [1, 1, 3, 4, 5] ∧
    (∃ tokens, Token.scan spreadSource = .ok tokens ∧ ∀ node ∈ spreadProgram.nodes.tail,
      ∃ token ∈ tokens, token.cls ≠ .endOfInput ∧ node.line = token.line) ∧
    (spreadProgram.nodes.map Node.line).Pairwise (· ≤ ·) ∧
    ∃ tokens, Token.scan lateFaultSource = .ok tokens ∧
      ∃ fault, parse lateFaultSource = .error fault ∧ fault.line = 2 ∧ fault.column = 0 ∧
        ∃ token ∈ tokens, token.cls ≠ .endOfInput ∧ fault.PointsAt token.mark := by
  have parsed : parse spreadSource = .ok spreadProgram := eq_ok_of_toOption (by decide +kernel)
  have failed : parse lateFaultSource = .error ⟨.turnNotSymbol (.number "1"), 2, 0⟩ :=
    eq_error_of_failure? (by decide +kernel)
  obtain ⟨nodes, ordered⟩ := (parse_places spreadSource).2 _ parsed
  refine ⟨parsed, rfl, nodes, ordered _, ?_⟩
  rcases (parse_places lateFaultSource).1 _ failed with ⟨tokens, scanned, points⟩ | ⟨i, -, -, -, column⟩
  · exact ⟨tokens, scanned, _, failed, rfl, rfl, points⟩
  · -- The fault tells no column, so it is not that of a stray byte.
    have told : 0 < (Mark.ofOffset lateFaultSource i).column := Nat.add_pos_left Nat.one_pos _
    exact absurd (Int.ofNat.inj column) (Nat.ne_of_lt told)

end Program

end MazeRobot
