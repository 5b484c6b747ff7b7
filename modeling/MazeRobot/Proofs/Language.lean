import MazeRobot.Proofs.Derivations

/-! # The language of programs

Each token tells how a derivation goes on: the class of the first token of a value, the word after
the opening parenthesis of a condition or a statement, and a closing parenthesis or the end where no
more values or statements follow. So a sequence of tokens has at most one derivation, and the reader
accepts exactly the sequences with one.

* `ExprTree.eq_of_tokens_append_eq`, `ConditionTree.eq_of_tokens_append_eq`,
  `StmtTree.eq_of_tokens_append_eq`: a derivation is told by the tokens that start with it.
* `Program.parse_follows_grammar`: the reader accepts exactly the language, and the program is what
  the only derivation stands for. -/

namespace MazeRobot

/-! ## Where a sequence ends -/

/-- Tokens that start with none of a value and a statement: a closing parenthesis comes first, or
there are none. -/
def EndsHere (tokens : List Token) : Prop := ∀ token ∈ tokens.head?, token.cls = .closing

/-- `EndsHere` holds of no tokens. -/
theorem EndsHere.nil : EndsHere [] := fun _ none => nomatch none

/-- `EndsHere` holds before a closing parenthesis. -/
theorem EndsHere.closing (closing : Closing) (rest : List Token) :
    EndsHere (closing.val :: rest) := by
  intro token first
  cases first
  exact closing.property

/-- Symbols before tokens where the list `EndsHere` are told by the tokens that start with them. -/
theorem symbols_eq_of_append_eq {names names' rest rest' : List Token} (ends : EndsHere rest)
    (ends' : EndsHere rest') (symbols : ∀ token ∈ names, token.cls = .symbol)
    (symbols' : ∀ token ∈ names', token.cls = .symbol) (same : names ++ rest = names' ++ rest') :
    names = names' ∧ rest = rest' := by
  induction names generalizing names' with
  | nil =>
    cases names' with
    | nil => exact ⟨rfl, same⟩
    | cons name names' =>
      have symbol := symbols' name List.mem_cons_self
      rw [List.nil_append] at same
      subst same
      rw [ends name rfl] at symbol
      cases symbol
  | cons name names ih =>
    cases names' with
    | nil =>
      have symbol := symbols name List.mem_cons_self
      rw [List.nil_append] at same
      subst same
      rw [ends' name rfl] at symbol
      cases symbol
    | cons name' names' =>
      obtain ⟨rfl, others⟩ := List.cons.inj same
      obtain ⟨rfl, rfl⟩ := ih (fun token member => symbols token (List.mem_cons_of_mem _ member))
        (fun token member => symbols' token (List.mem_cons_of_mem _ member)) others
      exact ⟨rfl, rfl⟩

/-! ## Values -/

namespace ExprTree

/-- The class of the first token of a value. -/
def firstClass : ExprTree → TokenClass
  | number _ => .number
  | var _ => .symbol
  | distance _ _ _ => .opening

/-- The `tokens` of a value start with one of class `firstClass`. -/
theorem exists_tokens_eq (tree : ExprTree) :
    ∃ token rest, tree.tokens = token :: rest ∧ token.cls = tree.firstClass := by
  cases tree with
  | number numeral => exact ⟨_, _, rfl, numeral.property.1⟩
  | var name => exact ⟨_, _, rfl, name.property⟩
  | distance opening word closing => exact ⟨_, _, rfl, opening.property⟩

/-- **An `ExprTree` is told by the tokens that start with it.** -/
theorem eq_of_tokens_append_eq {tree tree' : ExprTree} {rest rest' : List Token}
    (same : tree.tokens ++ rest = tree'.tokens ++ rest') : tree = tree' ∧ rest = rest' := by
  have cls : tree.firstClass = tree'.firstClass := by
    obtain ⟨token, more, tokens, cls⟩ := tree.exists_tokens_eq
    obtain ⟨token', more', tokens', cls'⟩ := tree'.exists_tokens_eq
    rw [tokens, tokens'] at same
    rw [← cls, ← cls', (List.cons.inj same).1]
  cases tree with
  | number numeral =>
    cases tree' with
    | number numeral' =>
      obtain ⟨one, rfl⟩ := List.cons.inj same
      cases Subtype.ext one
      exact ⟨rfl, rfl⟩
    | var _ => cases cls
    | distance _ _ _ => cases cls
  | var name =>
    cases tree' with
    | number _ => cases cls
    | var name' =>
      obtain ⟨one, rfl⟩ := List.cons.inj same
      cases Subtype.ext one
      exact ⟨rfl, rfl⟩
    | distance _ _ _ => cases cls
  | distance opening word closing =>
    cases tree' with
    | number _ => cases cls
    | var _ => cases cls
    | distance opening' word' closing' =>
      simp only [tokens, List.cons_append, List.nil_append, List.cons.injEq] at same
      obtain ⟨first, second, third, rfl⟩ := same
      cases Subtype.ext first
      cases Subtype.ext second
      cases Subtype.ext third
      exact ⟨rfl, rfl⟩

/-- What starts with the tokens of a value does not end there: `EndsHere` fails. -/
theorem not_endsHere (tree : ExprTree) (rest : List Token) : ¬ EndsHere (tree.tokens ++ rest) := by
  intro ends
  obtain ⟨token, more, tokens, cls⟩ := tree.exists_tokens_eq
  rw [tokens] at ends
  rw [ends token rfl] at cls
  cases tree <;> cases cls

/-- Values before tokens where the list `EndsHere` are told by the tokens that start with them. -/
theorem eq_of_flatMap_tokens_append_eq {trees trees' : List ExprTree} {rest rest' : List Token}
    (ends : EndsHere rest) (ends' : EndsHere rest')
    (same : trees.flatMap tokens ++ rest = trees'.flatMap tokens ++ rest') :
    trees = trees' ∧ rest = rest' := by
  induction trees generalizing trees' with
  | nil =>
    cases trees' with
    | nil => exact ⟨rfl, same⟩
    | cons tree' trees' =>
      rw [List.flatMap_nil, List.nil_append, List.flatMap_cons, List.append_assoc] at same
      exact absurd (same ▸ ends) (tree'.not_endsHere _)
  | cons tree trees ih =>
    cases trees' with
    | nil =>
      rw [List.flatMap_nil, List.nil_append, List.flatMap_cons, List.append_assoc] at same
      exact absurd (same ▸ ends') (tree.not_endsHere _)
    | cons tree' trees' =>
      rw [List.flatMap_cons, List.flatMap_cons, List.append_assoc, List.append_assoc] at same
      obtain ⟨rfl, others⟩ := eq_of_tokens_append_eq same
      obtain ⟨rfl, rfl⟩ := ih others
      exact ⟨rfl, rfl⟩

end ExprTree

/-! ## Conditions -/

/-- `Query.name` tells queries apart. -/
theorem Query.name_injective {query query' : Query} (same : query.name = query'.name) :
    query = query' := by
  cases query <;> cases query' <;> first | rfl | exact absurd same (by decide)

/-- `Direction.name` tells directions apart. -/
theorem Direction.name_injective {direction direction' : Direction}
    (same : direction.name = direction'.name) : direction = direction' := by
  have found := congrArg Direction.ofName? same
  rw [ofName?_name, ofName?_name] at found
  exact Option.some.inj found

namespace ConditionTree

/-- The word that starts a condition. -/
def firstWord : ConditionTree → String
  | query _ kind _ _ _ _ => kind.name
  | negation _ _ _ _ => "not"

/-- The `firstWord` of a condition stands after an opening parenthesis. -/
theorem exists_tokens_eq (tree : ConditionTree) :
    ∃ opening word rest, tree.tokens = opening :: word :: rest ∧
      word.literal = tree.firstWord := by
  cases tree with
  | query opening kind word direction side closing =>
    exact ⟨_, _, _, rfl, List.mem_singleton.mp word.property.2⟩
  | negation opening word inner closing =>
    exact ⟨_, _, _, rfl, List.mem_singleton.mp word.property.2⟩

/-- Conditions with which the same tokens start have the same `firstWord`. -/
theorem firstWord_eq {tree tree' : ConditionTree} {rest rest' : List Token}
    (same : tree.tokens ++ rest = tree'.tokens ++ rest') : tree.firstWord = tree'.firstWord := by
  obtain ⟨opening, word, more, tokens, literal⟩ := tree.exists_tokens_eq
  obtain ⟨opening', word', more', tokens', literal'⟩ := tree'.exists_tokens_eq
  rw [tokens, tokens'] at same
  rw [← literal, ← literal', (List.cons.inj (List.cons.inj same).2).1]

/-- The name of no `Query` is that of a negation. -/
theorem query_ne_not (kind : Query) : kind.name ≠ "not" := by
  cases kind <;> decide

/-- **A `ConditionTree` is told by the tokens that start with it.** -/
theorem eq_of_tokens_append_eq {tree tree' : ConditionTree} {rest rest' : List Token}
    (same : tree.tokens ++ rest = tree'.tokens ++ rest') : tree = tree' ∧ rest = rest' := by
  induction tree generalizing tree' rest rest' with
  | query opening kind word direction side closing =>
    have names := firstWord_eq same
    cases tree' with
    | negation _ _ _ _ => exact absurd names (query_ne_not kind)
    | query opening' kind' word' direction' side' closing' =>
      obtain rfl := Query.name_injective names
      simp only [tokens, List.cons_append, List.nil_append, List.cons.injEq] at same
      obtain ⟨first, second, third, fourth, rfl⟩ := same
      have directions : direction.name = direction'.name := by
        rw [← List.mem_singleton.mp side.property.2, third]
        exact List.mem_singleton.mp side'.property.2
      obtain rfl := Direction.name_injective directions
      cases Subtype.ext first
      cases Subtype.ext second
      cases Subtype.ext third
      cases Subtype.ext fourth
      exact ⟨rfl, rfl⟩
  | negation opening word inner closing ih =>
    have names := firstWord_eq same
    cases tree' with
    | query _ kind _ _ _ _ => exact absurd names.symm (query_ne_not kind)
    | negation opening' word' inner' closing' =>
      simp only [tokens, List.cons_append, List.append_assoc, List.nil_append,
        List.cons.injEq] at same
      obtain ⟨first, second, others⟩ := same
      obtain ⟨rfl, ended⟩ := ih others
      obtain ⟨last, rfl⟩ := List.cons.inj ended
      cases Subtype.ext first
      cases Subtype.ext second
      cases Subtype.ext last
      exact ⟨rfl, rfl⟩

end ConditionTree

/-! ## Statements -/

namespace StmtTree

/-- The phrase of a statement. -/
def construct : StmtTree → Construct
  | command _ kind _ _ => .command kind
  | turn _ _ _ _ => .turn
  | loop _ _ _ _ _ => .loop
  | branch _ _ _ _ _ => .branch
  | assign _ _ _ _ _ => .assign
  | define _ _ _ _ _ _ _ _ => .define
  | call _ _ _ _ _ => .call
  | implicit _ _ _ _ => .named

/-- The word after the opening parenthesis of a statement tells its `construct`. -/
theorem exists_tokens_eq (tree : StmtTree) :
    ∃ opening word rest, tree.tokens = opening :: word :: rest ∧ opening.cls = .opening ∧
      Construct.ofWord word.literal = tree.construct := by
  cases tree with
  | implicit opening name _ _ =>
    exact ⟨_, _, _, rfl, opening.property, Construct.ofWord_eq_named_iff.mpr name.property.2⟩
  | command opening kind word _ =>
    exact ⟨_, _, _, rfl, opening.property, Construct.ofWord_of_mem_words word.property.2⟩
  | _ opening word =>
    exact ⟨_, _, _, rfl, opening.property, Construct.ofWord_of_mem_words word.property.2⟩

/-- Statements with which the same tokens start have the same `construct`. -/
theorem construct_eq {tree tree' : StmtTree} {rest rest' : List Token}
    (same : tree.tokens ++ rest = tree'.tokens ++ rest') : tree.construct = tree'.construct := by
  obtain ⟨opening, word, more, tokens, -, phrase⟩ := tree.exists_tokens_eq
  obtain ⟨opening', word', more', tokens', -, phrase'⟩ := tree'.exists_tokens_eq
  rw [tokens, tokens'] at same
  rw [← phrase, ← phrase', (List.cons.inj (List.cons.inj same).2).1]

/-- What starts with the tokens of a statement does not end there: `EndsHere` fails. -/
theorem not_endsHere (tree : StmtTree) (rest : List Token) : ¬ EndsHere (tree.tokens ++ rest) := by
  intro ends
  obtain ⟨opening, word, more, tokens, cls, -⟩ := tree.exists_tokens_eq
  rw [tokens] at ends
  rw [ends opening rfl] at cls
  cases cls

mutual

/-- **A `StmtTree` is told by the tokens that start with it.** -/
theorem eq_of_tokens_append_eq (tree tree' : StmtTree) {rest rest' : List Token}
    (same : tree.tokens ++ rest = tree'.tokens ++ rest') : tree = tree' ∧ rest = rest' := by
  -- The phrases agree, and then the parts one after the other, each told by what is left.
  have phrase := construct_eq same
  cases tree with
  | command opening kind word closing =>
    cases tree' with
    | command opening' kind' word' closing' =>
      obtain rfl := Construct.command.inj phrase
      simp only [tokens, List.cons_append, List.nil_append, List.cons.injEq] at same
      obtain ⟨first, second, third, rfl⟩ := same
      cases Subtype.ext first
      cases Subtype.ext second
      cases Subtype.ext third
      exact ⟨rfl, rfl⟩
    | _ => cases phrase
  | turn opening word side closing =>
    cases tree' with
    | turn opening' word' side' closing' =>
      simp only [tokens, List.cons_append, List.nil_append, List.cons.injEq] at same
      obtain ⟨first, second, third, fourth, rfl⟩ := same
      cases Subtype.ext first
      cases Subtype.ext second
      cases Subtype.ext third
      cases Subtype.ext fourth
      exact ⟨rfl, rfl⟩
    | _ => cases phrase
  | loop opening word count body closing =>
    cases tree' with
    | loop opening' word' count' body' closing' =>
      simp only [tokens, List.cons_append, List.append_assoc, List.nil_append,
        List.cons.injEq] at same
      obtain ⟨first, second, others⟩ := same
      obtain ⟨rfl, after⟩ := ExprTree.eq_of_tokens_append_eq others
      obtain ⟨rfl, ended⟩ := eq_of_tokensAll_append_eq body body' (.closing closing _)
        (.closing closing' _) after
      obtain ⟨last, rfl⟩ := List.cons.inj ended
      cases Subtype.ext first
      cases Subtype.ext second
      cases Subtype.ext last
      exact ⟨rfl, rfl⟩
    | _ => cases phrase
  | branch opening word condition body closing =>
    cases tree' with
    | branch opening' word' condition' body' closing' =>
      simp only [tokens, List.cons_append, List.append_assoc, List.nil_append,
        List.cons.injEq] at same
      obtain ⟨first, second, others⟩ := same
      obtain ⟨rfl, after⟩ := ConditionTree.eq_of_tokens_append_eq others
      obtain ⟨rfl, ended⟩ := eq_of_tokensAll_append_eq body body' (.closing closing _)
        (.closing closing' _) after
      obtain ⟨last, rfl⟩ := List.cons.inj ended
      cases Subtype.ext first
      cases Subtype.ext second
      cases Subtype.ext last
      exact ⟨rfl, rfl⟩
    | _ => cases phrase
  | assign opening word name value closing =>
    cases tree' with
    | assign opening' word' name' value' closing' =>
      simp only [tokens, List.cons_append, List.append_assoc, List.nil_append,
        List.cons.injEq] at same
      obtain ⟨first, second, third, others⟩ := same
      obtain ⟨rfl, ended⟩ := ExprTree.eq_of_tokens_append_eq others
      obtain ⟨last, rfl⟩ := List.cons.inj ended
      cases Subtype.ext first
      cases Subtype.ext second
      cases Subtype.ext third
      cases Subtype.ext last
      exact ⟨rfl, rfl⟩
    | _ => cases phrase
  | define opening word name left parameters right body closing =>
    cases tree' with
    | define opening' word' name' left' parameters' right' body' closing' =>
      simp only [tokens, List.cons_append, List.append_assoc, List.nil_append,
        List.cons.injEq] at same
      obtain ⟨first, second, third, fourth, others⟩ := same
      obtain ⟨names, after⟩ := symbols_eq_of_append_eq (.closing right _) (.closing right' _)
        parameters.property.1 parameters'.property.1 others
      obtain ⟨fifth, inside⟩ := List.cons.inj after
      obtain ⟨rfl, ended⟩ := eq_of_tokensAll_append_eq body body' (.closing closing _)
        (.closing closing' _) inside
      obtain ⟨last, rfl⟩ := List.cons.inj ended
      cases Subtype.ext first
      cases Subtype.ext second
      cases Subtype.ext third
      cases Subtype.ext fourth
      cases Subtype.ext names
      cases Subtype.ext fifth
      cases Subtype.ext last
      exact ⟨rfl, rfl⟩
    | _ => cases phrase
  | call opening word name arguments closing =>
    cases tree' with
    | call opening' word' name' arguments' closing' =>
      simp only [tokens, List.cons_append, List.append_assoc, List.nil_append,
        List.cons.injEq] at same
      obtain ⟨first, second, third, others⟩ := same
      obtain ⟨rfl, ended⟩ := ExprTree.eq_of_flatMap_tokens_append_eq (.closing closing _)
        (.closing closing' _) others
      obtain ⟨last, rfl⟩ := List.cons.inj ended
      cases Subtype.ext first
      cases Subtype.ext second
      cases Subtype.ext third
      cases Subtype.ext last
      exact ⟨rfl, rfl⟩
    | _ => cases phrase
  | implicit opening name arguments closing =>
    cases tree' with
    | implicit opening' name' arguments' closing' =>
      simp only [tokens, List.cons_append, List.append_assoc, List.nil_append,
        List.cons.injEq] at same
      obtain ⟨first, second, others⟩ := same
      obtain ⟨rfl, ended⟩ := ExprTree.eq_of_flatMap_tokens_append_eq (.closing closing _)
        (.closing closing' _) others
      obtain ⟨last, rfl⟩ := List.cons.inj ended
      cases Subtype.ext first
      cases Subtype.ext second
      cases Subtype.ext last
      exact ⟨rfl, rfl⟩
    | _ => cases phrase

/-- Statements before tokens where the sequence `EndsHere` are told by the tokens that start with
them. -/
theorem eq_of_tokensAll_append_eq (trees trees' : List StmtTree) {rest rest' : List Token}
    (ends : EndsHere rest) (ends' : EndsHere rest')
    (same : tokensAll trees ++ rest = tokensAll trees' ++ rest') :
    trees = trees' ∧ rest = rest' := by
  -- A statement opens a parenthesis, so where one sequence ends the other one does as well.
  cases trees with
  | nil =>
    cases trees' with
    | nil => exact ⟨rfl, same⟩
    | cons tree' trees' =>
      rw [tokensAll, List.nil_append, tokensAll, List.append_assoc] at same
      exact absurd (same ▸ ends) (tree'.not_endsHere _)
  | cons tree trees =>
    cases trees' with
    | nil =>
      rw [tokensAll, tokensAll, List.nil_append, List.append_assoc] at same
      exact absurd (same ▸ ends') (tree.not_endsHere _)
    | cons tree' trees' =>
      rw [tokensAll, tokensAll, List.append_assoc, List.append_assoc] at same
      obtain ⟨rfl, others⟩ := eq_of_tokens_append_eq tree tree' same
      obtain ⟨rfl, rfl⟩ := eq_of_tokensAll_append_eq trees trees' ends ends' others
      exact ⟨rfl, rfl⟩

end

end StmtTree

/-! ## The language -/

/-- `Stmt.ofTopLevel` reads only lists, and reads them like `ofForm`. -/
theorem Stmt.ofTopLevel_eq_ok_iff {form : Form} {stmt : Stmt} :
    ofTopLevel form = .ok stmt ↔ ofForm form = .ok stmt := by
  cases form with
  | symbol name mark => exact ⟨nofun, nofun⟩
  | number text mark => exact ⟨nofun, nofun⟩
  | list items mark => exact Iff.rfl

/-- `Stmt.ofTopLevel` reads forms in a row like `ofForms`. -/
theorem Stmt.mapM_ofTopLevel_eq_ok_iff {forms : List Form} {stmts : List Stmt} :
    forms.mapM ofTopLevel = .ok stmts ↔ ofForms forms = .ok stmts := by
  induction forms generalizing stmts with
  | nil => exact Iff.rfl
  | cons form forms ih =>
    rw [List.mapM_cons, ofForms]
    constructor
    · intro found
      obtain ⟨stmt, first, found⟩ := bind_eq_ok_iff.mp found
      obtain ⟨others, rest, found⟩ := bind_eq_ok_iff.mp found
      rw [ofTopLevel_eq_ok_iff.mp first, ih.mp rest]
      exact found
    · intro found
      obtain ⟨stmt, first, found⟩ := bind_eq_ok_iff.mp found
      obtain ⟨others, rest, found⟩ := bind_eq_ok_iff.mp found
      rw [ofTopLevel_eq_ok_iff.mpr first, ih.mpr rest]
      exact found

namespace Program

/-- `parse` reads a program exactly if the forms of the source mean its statements. -/
theorem parse_eq_ok_iff {source : List UInt8} {program : Program} :
    parse source = .ok program ↔
      ∃ forms stmts, Form.read source = .ok forms ∧ Stmt.ofForms forms = .ok stmts ∧
        program = ⟨stmts, 1⟩ := by
  constructor
  · intro found
    obtain ⟨forms, read, found⟩ := bind_eq_ok_iff.mp found
    obtain ⟨stmts, meaning, found⟩ := bind_eq_ok_iff.mp found
    cases found
    exact ⟨forms, stmts, read, Stmt.mapM_ofTopLevel_eq_ok_iff.mp meaning, rfl⟩
  · rintro ⟨forms, stmts, read, meaning, rfl⟩
    rw [parse, read]
    show ofForms forms = _
    rw [ofForms, Stmt.mapM_ofTopLevel_eq_ok_iff.mpr meaning]
    rfl

/-- **`parse` accepts exactly the language and builds what a derivation stands for.** A program is
read from a source exactly if the source scans and its tokens up to the end mark are those of some
`StmtTree`s, and then it is what these denote. A sequence of tokens has at most one derivation, so
the program is what the only one stands for. -/
theorem parse_follows_grammar :
    (∀ source program, parse source = .ok program ↔
      ∃ (trees : List StmtTree) (stop : Token),
        Token.scan source = .ok (StmtTree.tokensAll trees ++ [stop]) ∧ stop.cls = .endOfInput ∧
          program = ⟨StmtTree.denoteAll trees, 1⟩) ∧
    ∀ trees trees', StmtTree.tokensAll trees = StmtTree.tokensAll trees' → trees = trees' := by
  refine ⟨fun source program => ?_, fun trees trees' same => ?_⟩
  · rw [parse_eq_ok_iff]
    constructor
    · rintro ⟨forms, stmts, read, meaning, rfl⟩
      obtain ⟨tokens, stop, scanned, ended, spelled⟩ := Form.read_eq_ok_iff.mp read
      obtain ⟨trees, rfl, rfl⟩ := StmtTree.exists_of_ofForms spelled meaning
      exact ⟨trees, stop, scanned, ended, rfl⟩
    · rintro ⟨trees, stop, scanned, ended, rfl⟩
      have read := Form.read_eq_ok_iff.mpr
        ⟨_, stop, scanned, ended, StmtTree.spellsAll_forms trees⟩
      exact ⟨_, _, read, StmtTree.ofForms_forms trees, rfl⟩
  · have whole : StmtTree.tokensAll trees ++ [] = StmtTree.tokensAll trees' ++ [] := by rw [same]
    exact (StmtTree.eq_of_tokensAll_append_eq trees trees' .nil .nil whole).1

/-- A source in which words of the language are also variables and names that are called. -/
def reusedWordsSource : List UInt8 :=
  Text.utf8 ("(def spin (n) (repeat 002 (if (not (not (not (closer front)))) (let left n))\n" ++
    "(call turn left))) (spin (distance))")

/-- The program of that source. -/
def reusedWordsProgram : Program :=
  ⟨[.define "spin" ["n"] [.loop (.number 2 1)
      [.branch (some ⟨.closer, true, .front, 1⟩) [.assign "left" (.var "n" 1) 1] 1,
        .call "turn" [.var "left" 2] false 2] 1] 1,
    .call "spin" [.distance 2] true 2], 1⟩

/-- That source has a derivation, which stands for the program, and no other one. -/
theorem parse_follows_grammar_reusedWords :
    ∃ (trees : List StmtTree) (stop : Token),
      Token.scan reusedWordsSource = .ok (StmtTree.tokensAll trees ++ [stop]) ∧
        StmtTree.denoteAll trees = reusedWordsProgram.body ∧
        ∀ trees', StmtTree.tokensAll trees' = StmtTree.tokensAll trees → trees' = trees := by
  obtain ⟨accepts, unique⟩ := parse_follows_grammar
  have read : parse reusedWordsSource = .ok reusedWordsProgram :=
    eq_ok_of_toOption (by decide +kernel)
  obtain ⟨trees, stop, scanned, -, same⟩ := (accepts _ _).mp read
  exact ⟨trees, stop, scanned, (congrArg Program.body same).symm, fun trees' => unique trees' trees⟩

end Program

end MazeRobot
