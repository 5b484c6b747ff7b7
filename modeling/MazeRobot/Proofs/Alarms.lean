import MazeRobot.Proofs.CallSafety
import MazeRobot.Proofs.CallStack

/-! # Alarms that are never false

Lint warns about variables that are never set and about calls of functions that are not defined. It
goes by the text: by the function in whose body a variable is read, and by what the whole program
sets and defines. A run goes by its scopes and its table of functions. Nothing gets into these that
is not in the text, so a variable or a call with such a warning fails whenever a run comes to it.

* `Program.ReadsUnset`, `Program.CallsUndefined`: what the warnings are about, in terms of the text.
* `Program.reports_unset_iff`, `Program.reports_undefined_iff`: lint warns exactly about these.
* `Machine.Evaluates`: the next visit of a machine takes the value of an expression.
* `Machine.lint_alarms_true`: what lint warns about fails. -/

namespace MazeRobot

/-! ## What the warnings are about -/

namespace Program

/-- A variable that is read in the body of a function of the program, or at its top level where
there is no function, and that is neither set anywhere nor a parameter of this function. -/
structure ReadsUnset (program : Program) (home : Option FunctionDef) (name : String) (line : Int) :
    Prop where
  /-- The function is one of the program. -/
  defined : ∀ f ∈ home, Node.stmt f.toStmt ∈ program.nodes
  /-- The variable is read there, outside the definitions inside. -/
  reads : Node.expr (.var name line) ∈ program.ownNodes home
  /-- The name is not set anywhere. -/
  unset : ∀ value line, Node.stmt (.assign name value line) ∉ program.nodes
  /-- The name is no parameter there. -/
  foreign : name ∉ parametersOf home

/-- A call of a name that no function of the program has. -/
structure CallsUndefined (program : Program) (name : String) (arguments : List Expr)
    (implicit : Bool) (line : Int) : Prop where
  /-- The call stands in the program. -/
  calls : Node.stmt (.call name arguments implicit line) ∈ program.nodes
  /-- No definition has the name. -/
  undefined : ∀ f : FunctionDef, Node.stmt f.toStmt ∈ program.nodes → f.name ≠ name

/-- The names that are `assigned` in a `survey` are those of the assignments. -/
theorem notMem_assigned_iff {program : Program} {name : String} :
    name ∉ program.survey.assigned ↔
      ∀ value line, Node.stmt (.assign name value line) ∉ program.nodes := by
  rw [survey, Node.mem_assignedNames]
  push Not
  rfl

end Program

/-- `firstDefinitions` keeps the names of the definitions that are not in `seen`. -/
theorem exists_mem_firstDefinitions_iff {name : String} (fs seen : List FunctionDef)
    (new : ∀ g ∈ seen, g.name ≠ name) :
    (∃ f ∈ firstDefinitions seen fs, f.name = name) ↔ ∃ f ∈ fs, f.name = name := by
  induction fs generalizing seen with
  | nil => rfl
  | cons f fs ih =>
    rw [firstDefinitions]
    by_cases again : seen.any (·.name = f.name) = true
    · rw [if_pos again, ih seen new]
      obtain ⟨g, member, same⟩ := List.any_eq_true.mp again
      have other : f.name ≠ name := of_decide_eq_true same ▸ new g member
      simp [other]
    · rw [if_neg again]
      by_cases same : f.name = name
      · simp [same]
      · have still : ∀ g ∈ f :: seen, g.name ≠ name := by
          intro g member
          rcases List.mem_cons.mp member with rfl | old
          · exact same
          · exact new g old
        simpa [same] using ih (f :: seen) still

/-- `function?` of a `survey` finds nothing exactly if no definition has the name. -/
theorem Program.function?_eq_none_iff {program : Program} {name : String} :
    program.survey.function? name = none ↔
      ∀ f : FunctionDef, Node.stmt f.toStmt ∈ program.nodes → f.name ≠ name := by
  have first : (∃ f ∈ firstDefinitions [] (Node.definitions program.nodes), f.name = name) ↔ _ :=
    exists_mem_firstDefinitions_iff _ [] fun g member => nomatch member
  rw [Survey.function?, List.find?_eq_none]
  simp only [decide_eq_true_eq]
  constructor
  · intro none f member same
    obtain ⟨g, found, named⟩ := first.mpr ⟨f, Node.mem_definitions.mpr member, same⟩
    exact none g found named
  · intro none f member same
    obtain ⟨g, found, named⟩ := first.mp ⟨f, member, same⟩
    exact none g (Node.mem_definitions.mp found) named

/-! ## Messages -/

/-- A message around a name tells the name. -/
theorem eq_of_append_eq {before name name' after : String}
    (same : before ++ name ++ after = before ++ name' ++ after) : name = name' := by
  have lists := congrArg String.toList same
  simp only [String.toList_append, List.append_cancel_right_eq, List.append_cancel_left_eq] at lists
  exact String.toList_injective lists

/-- The first letter of a message, by which the kinds of warnings differ. -/
def Diagnostic.initial? (d : Diagnostic) : Option Char := d.message.toList.head?

/-- `initial?` of a `warning` is the first character of its message. -/
@[simp] theorem Diagnostic.initial?_warning (line column : Int) (message : String)
    (hint? : Option String) :
    (warning line column message hint?).initial? = message.toList.head? := rfl

/-- The warnings of `repeatedDefinitions` are about functions. -/
theorem initial?_of_mem_repeatedDefinitions {seen fs : List FunctionDef} {d : Diagnostic}
    (member : d ∈ repeatedDefinitions seen fs) : d.initial? = some 'f' := by
  induction fs generalizing seen with
  | nil => cases member
  | cons f fs ih =>
    rw [repeatedDefinitions] at member
    cases found : seen.find? (·.name = f.name) with
    | none =>
      rw [found] at member
      exact ih member
    | some first =>
      rw [found] at member
      rcases List.mem_cons.mp member with rfl | later
      · simp [toString]
      · exact ih later

namespace Survey

variable {survey : Survey} {parameters : List String} {d : Diagnostic}

/-- The warnings of `lintFunction` are about the function or its parameters. -/
theorem initial?_of_mem_lintFunction {f : FunctionDef} (member : d ∈ survey.lintFunction f) :
    d.initial? = some 'f' ∨ d.initial? = some 'p' := by
  rw [lintFunction] at member
  rcases List.mem_append.mp member with first | unused
  · refine .inl ?_
    rcases List.mem_append.mp first with empty | uncalled
    · obtain ⟨-, warned⟩ := List.mem_ite_nil_right.mp empty
      cases List.mem_singleton.mp warned
      simp [toString]
    · obtain ⟨-, warned⟩ := List.mem_ite_nil_left.mp uncalled
      cases List.mem_singleton.mp warned
      simp [toString]
  · obtain ⟨parameter, -, rfl⟩ := List.mem_map.mp unused
    exact .inr (by simp [toString])

/-- The warnings of `lintLoop` are about a `repeat`. -/
theorem initial?_of_mem_lintLoop {count : Expr} {body : List Stmt} {line : Int}
    (member : d ∈ lintLoop count body line) : d.initial? = some 'r' := by
  unfold lintLoop at member
  rcases List.mem_append.mp member with zero | empty
  · split at zero
    · cases List.mem_singleton.mp zero
      simp
    · cases zero
  · obtain ⟨-, warned⟩ := List.mem_ite_nil_right.mp empty
    cases List.mem_singleton.mp warned
    simp

/-- A warning of `lintExpr` is about a variable that is neither `assigned` nor a parameter. -/
theorem mem_lintExpr {expr : Expr} (member : d ∈ survey.lintExpr parameters expr) :
    ∃ name line, expr = .var name line ∧ name ∉ survey.assigned ∧ name ∉ parameters ∧
      d.message = s!"variable '{name}' is never set" ∧ d.line = line := by
  cases expr with
  | var name line =>
    rw [lintExpr] at member
    obtain ⟨unknown, warned⟩ := List.mem_ite_nil_left.mp member
    cases List.mem_singleton.mp warned
    simp only [Bool.or_eq_true, decide_eq_true_eq, not_or] at unknown
    exact ⟨name, line, rfl, unknown.1, unknown.2, rfl, rfl⟩
  | number value line => cases member
  | distance line => cases member
  | missing => cases member

/-- A warning of `lintCall` is about an undefined function, or starts with another letter. -/
theorem mem_lintCall {name : String} {arguments : List Expr} {line : Int}
    (member : d ∈ survey.lintCall name arguments line) :
    (survey.function? name = none ∧ d.message = s!"call to undefined function '{name}'" ∧
      d.line = line) ∨ d.initial? = some 'f' := by
  rw [lintCall] at member
  cases found : survey.function? name with
  | none =>
    rw [found] at member
    cases List.mem_singleton.mp member
    exact .inl ⟨rfl, rfl, rfl⟩
  | some f =>
    rw [found] at member
    obtain ⟨-, warned⟩ := List.mem_ite_nil_right.mp member
    cases List.mem_singleton.mp warned
    exact .inr (by simp [toString])

/-! ## Where the warnings about statements come from -/

/-- Where a warning about statements comes from, told by their nodes, all of them and those outside
definitions. -/
inductive Arises (survey : Survey) (parameters : List String) (own all : List Node)
    (d : Diagnostic) : Prop
  /-- From an expression that stands outside definitions. -/
  | read {expr : Expr} (here : Node.expr expr ∈ own) (warned : d ∈ survey.lintExpr parameters expr)
  /-- From an expression in the body of a definition. -/
  | inner {f : FunctionDef} {expr : Expr} (defined : Node.stmt f.toStmt ∈ all)
      (here : Node.expr expr ∈ Stmt.ownNodesAll f.body)
      (warned : d ∈ survey.lintExpr f.parameters expr)
  /-- From a call. -/
  | call {name : String} {arguments : List Expr} {implicit : Bool} {line : Int}
      (here : Node.stmt (.call name arguments implicit line) ∈ all)
      (warned : d ∈ survey.lintCall name arguments line)
  /-- From a loop or a conditional that does nothing. -/
  | shape (letter : d.initial? = some 'r' ∨ d.initial? = some 'i')

namespace Arises

variable {own all own' all' : List Node}

/-- `Arises` from some nodes is kept where there are more of them. -/
theorem mono (arises : survey.Arises parameters own all d) (less : own ⊆ own') (part : all ⊆ all') :
    survey.Arises parameters own' all' d := by
  cases arises with
  | read here warned => exact .read (less here) warned
  | inner defined here warned => exact .inner (part defined) here warned
  | call here warned => exact .call (part here) warned
  | shape letter => exact .shape letter

/-- What `Arises` in a body with the parameters of its function arises in the definition. -/
theorem define {f : FunctionDef}
    (arises : survey.Arises f.parameters (Stmt.ownNodesAll f.body) (Stmt.nodesAll f.body) d) :
    survey.Arises parameters f.toStmt.ownNodes f.toStmt.nodes d := by
  have part : Stmt.nodesAll f.body ⊆ f.toStmt.nodes := List.subset_cons_self _ _
  cases arises with
  | read here warned => exact .inner List.mem_cons_self here warned
  | inner defined here warned => exact .inner (part defined) here warned
  | call here warned => exact .call (part here) warned
  | shape letter => exact .shape letter

end Arises

/-- An expression with a warning of `lintExpr` is a node of its own `walk`. -/
theorem mem_walk_of_mem_lintExpr {expr : Expr} (member : d ∈ survey.lintExpr parameters expr) :
    Node.expr expr ∈ expr.walk := by
  obtain ⟨name, line, rfl, -⟩ := mem_lintExpr member
  exact List.mem_singleton_self _

mutual

/-- What `lintStmt` warns about `Arises` in the statement. -/
theorem arises_of_mem_lintStmt {parameters : List String} (stmt : Stmt)
    (member : d ∈ survey.lintStmt parameters stmt) :
    survey.Arises parameters stmt.ownNodes stmt.nodes d := by
  cases stmt with
  | block body line =>
    rw [lintStmt] at member
    exact (arises_of_mem_lintBody body member).mono (by simp) (by simp)
  | command kind line => cases member
  | loop count body line =>
    rw [lintStmt] at member
    rcases List.mem_append.mp member with first | inside
    · rcases List.mem_append.mp first with idle | warned
      · exact .shape (.inl (initial?_of_mem_lintLoop idle))
      · have here := mem_walk_of_mem_lintExpr warned
        exact .read (by simp [here]) warned
    · exact (arises_of_mem_lintBody body inside).mono (by simp) (by simp)
  | branch condition body line =>
    rw [lintStmt] at member
    rcases List.mem_append.mp member with empty | inside
    · obtain ⟨-, warned⟩ := List.mem_ite_nil_right.mp empty
      cases List.mem_singleton.mp warned
      exact .shape (.inr (by simp))
    · exact (arises_of_mem_lintBody body inside).mono (by simp) (by simp)
  | assign name value line =>
    rw [lintStmt] at member
    have here := mem_walk_of_mem_lintExpr member
    exact .read (by simp [here]) member
  | define name own body line =>
    -- The body is looked at with its own parameters; those around it do not count.
    rw [lintStmt] at member
    exact Arises.define (f := ⟨name, own, body, line⟩) (arises_of_mem_lintBody body member)
  | call name arguments implicit line =>
    rw [lintStmt] at member
    rcases List.mem_append.mp member with warned | read
    · exact .call List.mem_cons_self warned
    · obtain ⟨argument, inside, warned⟩ := List.mem_flatMap.mp read
      have here := List.mem_flatMap.mpr ⟨argument, inside, mem_walk_of_mem_lintExpr warned⟩
      exact .read (List.mem_cons_of_mem _ here) warned
  | missing => cases member

/-- What `lintBody` warns about `Arises` in the statements. -/
theorem arises_of_mem_lintBody {parameters : List String} (stmts : List Stmt)
    (member : d ∈ survey.lintBody parameters stmts) :
    survey.Arises parameters (Stmt.ownNodesAll stmts) (Stmt.nodesAll stmts) d := by
  cases stmts with
  | nil => cases member
  | cons stmt stmts =>
    rw [lintBody] at member
    rcases List.mem_append.mp member with first | later
    · exact (arises_of_mem_lintStmt stmt first).mono (by simp) (by simp)
    · exact (arises_of_mem_lintBody stmts later).mono (by simp) (by simp)

end

mutual

/-- `lintStmt` includes `lintExpr` of each expression among the `ownNodes` of the statement. -/
theorem lintExpr_subset_lintStmt {parameters : List String} {expr : Expr} (stmt : Stmt)
    (member : Node.expr expr ∈ stmt.ownNodes) :
    survey.lintExpr parameters expr ⊆ survey.lintStmt parameters stmt := by
  cases stmt with
  | block body line =>
    have inside := (List.mem_cons.mp member).resolve_left (by simp)
    rw [lintStmt]
    exact lintExpr_subset_lintBody body inside
  | command kind line => simp at member
  | loop count body line =>
    have parts := (List.mem_cons.mp member).resolve_left (by simp)
    rw [lintStmt]
    rcases List.mem_append.mp parts with first | inside
    · cases Expr.eq_of_mem_walk first
      exact List.subset_append_of_subset_left _ (List.subset_append_right _ _)
    · exact List.subset_append_of_subset_right _ (lintExpr_subset_lintBody body inside)
  | branch condition body line =>
    have parts := (List.mem_cons.mp member).resolve_left (by simp)
    have inside := (List.mem_append.mp parts).resolve_left (by simp)
    rw [lintStmt]
    exact List.subset_append_of_subset_right _ (lintExpr_subset_lintBody body inside)
  | assign name value line =>
    have inside := (List.mem_cons.mp member).resolve_left (by simp)
    cases Expr.eq_of_mem_walk inside
    rw [lintStmt]
    exact List.Subset.refl _
  | define name own body line => simp at member
  | call name arguments implicit line =>
    have inside := (List.mem_cons.mp member).resolve_left (by simp)
    obtain ⟨argument, one, here⟩ := List.mem_flatMap.mp inside
    cases Expr.eq_of_mem_walk here
    rw [lintStmt]
    exact fun d warned => List.mem_append_right _ (List.mem_flatMap.mpr ⟨_, one, warned⟩)
  | missing => cases member

/-- `lintBody` includes `lintExpr` of each expression among the `ownNodesAll` of the statements. -/
theorem lintExpr_subset_lintBody {parameters : List String} {expr : Expr} (stmts : List Stmt)
    (member : Node.expr expr ∈ Stmt.ownNodesAll stmts) :
    survey.lintExpr parameters expr ⊆ survey.lintBody parameters stmts := by
  cases stmts with
  | nil => cases member
  | cons stmt stmts =>
    rw [lintBody]
    rcases List.mem_append.mp member with first | later
    · exact List.subset_append_of_subset_left _ (lintExpr_subset_lintStmt stmt first)
    · exact List.subset_append_of_subset_right _ (lintExpr_subset_lintBody stmts later)

end

end Survey

namespace Program

variable {program : Program} {d : Diagnostic} {name : String} {line : Int}

/-- A warning of `lint` about a variable or an undefined function `Arises` in the statements of the
program. -/
theorem arises_of_mem_lint (member : d ∈ program.lint)
    (letter : d.initial? = some 'v' ∨ d.initial? = some 'c') :
    program.survey.Arises [] (program.ownNodes none) program.nodes d := by
  rcases List.mem_append.mp member with first | about
  · rcases List.mem_append.mp first with again | inside
    · simp [initial?_of_mem_repeatedDefinitions again] at letter
    · exact (Survey.arises_of_mem_lintBody program.body inside).mono (List.Subset.refl _)
        (List.subset_cons_self _ _)
  · obtain ⟨f, -, warned⟩ := List.mem_flatMap.mp about
    rcases Survey.initial?_of_mem_lintFunction warned with other | other <;>
      simp [other] at letter

/-- `lint` includes `lintExpr` of what is read in a function of the program, or at its top level. -/
theorem lintExpr_subset_lint {home : Option FunctionDef} {expr : Expr}
    (defined : ∀ f ∈ home, Node.stmt f.toStmt ∈ program.nodes)
    (reads : Node.expr expr ∈ program.ownNodes home) :
    program.survey.lintExpr (parametersOf home) expr ⊆ program.lint := by
  cases home with
  | none =>
    have warned : program.survey.lintExpr [] expr ⊆ program.survey.lintBody [] program.body :=
      Survey.lintExpr_subset_lintBody program.body reads
    exact fun d about => lintBody_subset_lint (warned about)
  | some f =>
    have member := defined f rfl
    rw [nodes_eq] at member
    have inside := (List.mem_cons.mp member).resolve_left (by simp [toStmt, FunctionDef.toStmt])
    obtain ⟨own, part⟩ := program.survey.exists_lintStmt_subset_lintBody [] program.body inside
    rw [FunctionDef.toStmt, Survey.lintStmt] at part
    have warned : program.survey.lintExpr f.parameters expr ⊆ _ :=
      Survey.lintExpr_subset_lintBody f.body reads
    exact fun d about => lintBody_subset_lint (part (warned about))

/-- **`lint` warns that a variable is never set exactly where the program `ReadsUnset` it.** -/
theorem reports_unset_iff :
    (∃ d ∈ program.lint, d.message = s!"variable '{name}' is never set" ∧ d.line = line) ↔
      ∃ home, program.ReadsUnset home name line := by
  constructor
  · rintro ⟨d, member, message, rfl⟩
    -- Only a warning about a variable starts with this letter, and its message tells the name.
    have letter : d.initial? = some 'v' := by simp [Diagnostic.initial?, message, toString]
    have read : ∀ {parameters expr}, d ∈ program.survey.lintExpr parameters expr →
        expr = .var name d.line ∧ name ∉ program.survey.assigned ∧ name ∉ parameters := by
      intro parameters expr warned
      obtain ⟨name', line, rfl, unset, foreign, same, rfl⟩ := Survey.mem_lintExpr warned
      cases eq_of_append_eq (message.symm.trans same)
      exact ⟨rfl, unset, foreign⟩
    cases arises_of_mem_lint member (.inl letter) with
    | read here warned =>
      obtain ⟨rfl, unset, foreign⟩ := read warned
      exact ⟨none, by simp, here, notMem_assigned_iff.mp unset, foreign⟩
    | @inner f _ defined here warned =>
      obtain ⟨rfl, unset, foreign⟩ := read warned
      refine ⟨some f, fun g same => ?_, here, notMem_assigned_iff.mp unset, foreign⟩
      cases same
      exact defined
    | call here warned =>
      rcases Survey.mem_lintCall warned with ⟨-, other, -⟩ | other
      · simp [Diagnostic.initial?, other, toString] at letter
      · simp [other] at letter
    | shape other => simp [letter] at other
  · rintro ⟨home, defined, reads, unset, foreign⟩
    have warned := lintExpr_subset_lint defined reads
    have unknown : ¬ (name ∈ program.survey.assigned || name ∈ parametersOf home) = true := by
      simp [notMem_assigned_iff.mpr unset, foreign]
    rw [Survey.lintExpr, if_neg unknown] at warned
    exact ⟨_, warned List.mem_cons_self, rfl, rfl⟩

/-- **`lint` warns about a call of an undefined function exactly where the program
`CallsUndefined`.** -/
theorem reports_undefined_iff :
    (∃ d ∈ program.lint, d.message = s!"call to undefined function '{name}'" ∧ d.line = line) ↔
      ∃ arguments implicit, program.CallsUndefined name arguments implicit line := by
  constructor
  · rintro ⟨d, member, message, rfl⟩
    have letter : d.initial? = some 'c' := by simp [Diagnostic.initial?, message, toString]
    have read : ∀ {parameters expr}, d ∉ program.survey.lintExpr parameters expr := by
      intro parameters expr warned
      obtain ⟨name', line, -, -, -, other, -⟩ := Survey.mem_lintExpr warned
      simp [Diagnostic.initial?, other, toString] at letter
    cases arises_of_mem_lint member (.inr letter) with
    | read here warned => exact absurd warned read
    | inner defined here warned => exact absurd warned read
    | @call name' arguments implicit line here warned =>
      rcases Survey.mem_lintCall warned with ⟨undefined, same, rfl⟩ | other
      · cases eq_of_append_eq (message.symm.trans same)
        exact ⟨arguments, implicit, here, function?_eq_none_iff.mp undefined⟩
      · simp [other] at letter
    | shape other => simp [letter] at other
  · rintro ⟨arguments, implicit, calls, undefined⟩
    have warned := lintCall_subset_lint calls
    rw [Survey.lintCall, function?_eq_none_iff.mpr undefined] at warned
    exact ⟨_, warned List.mem_cons_self, rfl, rfl⟩

end Program

/-! ## Runs -/

/-- `values` fails with the fault of the first expression that has no value. -/
theorem Store.values_append_cons_of_error {store : Store} {before after : List Expr} {expr : Expr}
    {values : List Int} {fault : Fault} (earlier : store.values before = .ok values)
    (unknown : store.value expr = .error fault) :
    store.values (before ++ expr :: after) = .error fault := by
  induction before generalizing values with
  | nil => rw [List.nil_append, Store.values, unknown]
  | cons first before ih =>
    rw [Store.values] at earlier
    cases evaluated : store.value first with
    | error other =>
      rw [evaluated] at earlier
      cases earlier
    | ok value =>
      rw [evaluated] at earlier
      cases rest : store.values before with
      | error other =>
        rw [rest] at earlier
        cases earlier
      | ok others => rw [List.cons_append, Store.values, evaluated, ih rest]

namespace Machine

/-- The next visit of a machine takes the value of an expression: of the count of a loop, of the
value of an assignment, or of an argument in the call of a known function after those before it. -/
inductive Evaluates (m : Machine) (expr : Expr) : Prop
  /-- The expression is the count of a loop. -/
  | count {body : List Stmt} {line : Int} {below : List Frame}
      (top : m.frames = .stmt (.loop expr body line) :: below)
  /-- The expression is assigned to a name. -/
  | value {name : String} {line : Int} {below : List Frame}
      (top : m.frames = .stmt (.assign name expr line) :: below)
  /-- The expression is an argument. -/
  | argument {name : String} {before after : List Expr} {implicit : Bool} {line : Int}
      {below : List Frame} {f : FunctionDef} {values : List Int}
      (top : m.frames = .stmt (.call name (before ++ expr :: after) implicit line) :: below)
      (known : m.function? name = some f) (earlier : m.evaluateAll before = .ok values)

section Failures

variable {m : Machine} {fault : Fault}

/-- `visit?` of a loop fails if its count has no value. -/
theorem visit?_of_count_error {count : Expr} {body : List Stmt} {line : Int} {below : List Frame}
    (top : m.frames = .stmt (.loop count body line) :: below)
    (unknown : m.store.value count = .error fault) :
    m.visit? = some (.failed fault { m with frames := below }) := by
  have none : ({ m with frames := below } : Machine).store.value count = .error fault := unknown
  rw [visit?_of_frames top, visitFrame, run, evaluate_eq_value, none]

/-- `visit?` of an assignment fails if there is no value. -/
theorem visit?_of_value_error {name : String} {value : Expr} {line : Int} {below : List Frame}
    (top : m.frames = .stmt (.assign name value line) :: below)
    (unknown : m.store.value value = .error fault) :
    m.visit? = some (.failed fault { m with frames := below }) := by
  have none : ({ m with frames := below } : Machine).store.value value = .error fault := unknown
  rw [visit?_of_frames top, visitFrame, run, evaluate_eq_value, none]

/-- `visit?` of a call fails if `resolve` does not lead to a function. -/
theorem visit?_of_resolve_error {name : String} {arguments : List Expr} {implicit : Bool}
    {line : Int} {below : List Frame}
    (top : m.frames = .stmt (.call name arguments implicit line) :: below)
    (unresolved : m.store.resolve name arguments line = .error fault) :
    m.visit? = some (.failed fault { m with frames := below }) := by
  have none : ({ m with frames := below } : Machine).store.resolve name arguments line =
      .error fault := unresolved
  rw [visit?_of_frames top, visitFrame, run, enter_eq_resolve, none]

/-- Where a machine `Evaluates` an expression without a value, `visit?` fails. -/
theorem Evaluates.visit?_eq_failed {expr : Expr} (evaluates : m.Evaluates expr)
    (unknown : m.store.value expr = .error fault) :
    ∃ m', m.visit? = some (.failed fault m') := by
  cases evaluates with
  | count top => exact ⟨_, visit?_of_count_error top unknown⟩
  | value top => exact ⟨_, visit?_of_value_error top unknown⟩
  | @argument name before after implicit line below f values top known earlier =>
    refine ⟨_, visit?_of_resolve_error top ?_⟩
    have found : m.store.functions.find? (·.name = name) = some f := known
    rw [evaluateAll_eq_values] at earlier
    rw [Store.resolve, found, Store.values_append_cons_of_error earlier unknown]

end Failures

section Runs

variable {program : Program} {robot : Robot} {limits : Limits} {tracing : Bool} {m : Machine}
  {calls : List FunctionDef}

/-- A variable that a machine `Evaluates` is among the `ownNodes` of the innermost function being
called. -/
theorem Evaluates.mem_ownNodes {name : String} {line : Int}
    (evaluates : m.Evaluates (.var name line))
    (followed : (load robot limits tracing program).Calls m calls) :
    Node.expr (.var name line) ∈ program.ownNodes calls.head? := by
  have lexical := followed.tracked.lexical
  cases evaluates with
  | count top =>
    rw [top] at lexical
    exact lexical.top_subset (by simp [Expr.walk])
  | value top =>
    rw [top] at lexical
    exact lexical.top_subset (by simp [Expr.walk])
  | argument top known earlier =>
    rw [top] at lexical
    exact lexical.top_subset (by simp [Expr.walk])

/-- **A variable that the program `ReadsUnset` fails when a machine `Evaluates` it.** -/
theorem Evaluates.fails_of_readsUnset {name : String} {line : Int}
    (evaluates : m.Evaluates (.var name line))
    (followed : (load robot limits tracing program).Calls m calls)
    (reads : program.ReadsUnset calls.head? name line) :
    ∃ fault m', m.visit? = some (.failed fault m') ∧ fault.kind = .undefinedVariable ∧
      fault.line = line := by
  have unset := Program.notMem_assigned_iff.mpr reads.unset
  have unknown : m.store.scopes.get? name = none :=
    followed.tracked.get?_eq_none unset reads.foreign
  have none : m.store.value (.var name line) =
      .error ⟨.undefinedVariable name m.store.scopes.visible, line, 0⟩ := by
    rw [Store.value, unknown]
  obtain ⟨m', failed⟩ := evaluates.visit?_eq_failed none
  exact ⟨_, m', failed, rfl, rfl⟩

/-- **A call that `CallsUndefined` fails when it is made.** -/
theorem Reaches.fails_of_callsUndefined
    (reached : (load robot limits tracing program).Reaches m) {name : String}
    {arguments : List Expr} {implicit : Bool} {line : Int} {below : List Frame}
    (top : m.frames = .stmt (.call name arguments implicit line) :: below)
    (calls : program.CallsUndefined name arguments implicit line) :
    ∃ fault m', m.visit? = some (.failed fault m') ∧ fault.kind = .unknownFunction ∧
      fault.line = line := by
  have unknown : m.store.functions.find? (·.name = name) = none := by
    rw [List.find?_eq_none]
    intro f known
    have defined := Node.mem_definitions.mp (reached.confined.functions f known)
    simpa using calls.undefined f defined
  have unresolved : m.store.resolve name arguments line =
      .error ⟨.unknownFunction name (m.store.functions.map (·.name)), line, 0⟩ := by
    rw [Store.resolve, unknown]
  exact ⟨_, _, visit?_of_resolve_error top unresolved, rfl, rfl⟩

end Runs

/-- **What `lint` warns about fails.** It warns that a variable is never set exactly where one is
read that is neither set nor a parameter of the function around it, `ReadsUnset`, and about a call
of an undefined function exactly where no function of the program has the name, `CallsUndefined`. In
every machine that a run comes to, on any grid and with any limits, a variable whose value is taken
stands in the innermost of the functions being called, which are functions of the program, or at the
top level; if `lint` warns about it there, the visit fails because the variable is undefined. If
`lint` warns about the call that is to be made, the visit fails because the function is unknown. -/
theorem lint_alarms_true (program : Program) :
    (∀ (name : String) line,
      (∃ d ∈ program.lint, d.message = s!"variable '{name}' is never set" ∧ d.line = line) ↔
        ∃ home, program.ReadsUnset home name line) ∧
    (∀ (name : String) line,
      (∃ d ∈ program.lint, d.message = s!"call to undefined function '{name}'" ∧ d.line = line) ↔
        ∃ arguments implicit, program.CallsUndefined name arguments implicit line) ∧
    ∀ robot limits tracing,
      let start := load robot limits tracing program
      (∀ m, start.Reaches m ↔ ∃ calls, start.Calls m calls) ∧
      ∀ m calls, start.Calls m calls →
        (∀ f ∈ calls, Node.stmt f.toStmt ∈ program.nodes) ∧
        (∀ name line, m.Evaluates (.var name line) →
          Node.expr (.var name line) ∈ program.ownNodes calls.head? ∧
          (program.ReadsUnset calls.head? name line →
            ∃ fault m', m.visit? = some (.failed fault m') ∧ fault.kind = .undefinedVariable ∧
              fault.line = line)) ∧
        ∀ name arguments implicit line below,
          m.frames = .stmt (.call name arguments implicit line) :: below →
          Node.stmt (.call name arguments implicit line) ∈ program.nodes ∧
          (program.CallsUndefined name arguments implicit line →
            ∃ fault m', m.visit? = some (.failed fault m') ∧ fault.kind = .unknownFunction ∧
              fault.line = line) := by
  refine ⟨fun name line => Program.reports_unset_iff,
    fun name line => Program.reports_undefined_iff, fun robot limits tracing => ?_⟩
  intro start
  refine ⟨fun m => ⟨Reaches.exists_calls, fun ⟨calls, followed⟩ => followed.reaches⟩, ?_⟩
  intro m calls followed
  refine ⟨fun f called => ?_, fun name line evaluates => ⟨evaluates.mem_ownNodes followed, ?_⟩, ?_⟩
  · exact Node.mem_definitions.mp (followed.tracked.lexical.mem_definitions f called)
  · exact evaluates.fails_of_readsUnset followed
  · intro name arguments implicit line below top
    refine ⟨?_, followed.reaches.fails_of_callsUndefined top⟩
    have nodes := followed.reaches.confined.nodes
    rw [top] at nodes
    exact nodes _ (List.mem_append_left _ List.mem_cons_self)

/-- A source in which a function reads a parameter of the function around it. -/
def foreignReadSource : List UInt8 :=
  Text.utf8 "(function outer (n) (function inner () (repeat n (forward))) (inner)) (outer 2)"

/-- The inner function of that source. -/
def foreignReader : FunctionDef :=
  ⟨"inner", [], [.loop (.var "n" 1) [.command .forward 1] 1], 1⟩

/-- The outer function of that source. -/
def foreignOwner : FunctionDef :=
  ⟨"outer", ["n"], [foreignReader.toStmt, .call "inner" [] true 1], 1⟩

/-- The program of that source. -/
def foreignReadProgram : Program := ⟨[foreignOwner.toStmt, .call "outer" [.number 2 1] true 1], 1⟩

/-- Lint warns about the parameter of the outer function in the inner one. A run comes to it in a
call of the inner function from within the outer one, where the outer one has a value for it, and
fails. -/
theorem lint_alarms_true_foreignRead :
    let start := load (Robot.start ⟨[[.empty, .empty]]⟩ ⟨0, 0⟩ .east) ⟨5, 20⟩ false
      foreignReadProgram
    Program.parse foreignReadSource = .ok foreignReadProgram ∧
      (∃ d ∈ foreignReadProgram.lint, d.message = "variable 'n' is never set" ∧ d.line = 1) ∧
      foreignReadProgram.ReadsUnset (some foreignReader) "n" 1 ∧
      ∃ m, start.Calls m [foreignReader, foreignOwner] ∧ m.Evaluates (.var "n" 1) ∧
        ∃ fault m', m.visit? = some (.failed fault m') ∧ fault.kind = .undefinedVariable ∧
          fault.line = 1 := by
  intro start
  obtain ⟨reports, -, runs⟩ := lint_alarms_true foreignReadProgram
  have unset : foreignReadProgram.ReadsUnset (some foreignReader) "n" 1 := by
    refine ⟨fun f same => ?_, List.mem_cons_of_mem _ List.mem_cons_self, ?_, by decide⟩
    · cases same
      exact Node.mem_definitions.mp (by decide +kernel)
    · exact Program.notMem_assigned_iff.mp (by decide +kernel)
  refine ⟨eq_ok_of_toOption (by decide +kernel), (reports "n" 1).mpr ⟨_, unset⟩, unset, ?_⟩
  -- Each statement takes two visits: one to bring it up and one to run it.
  have started : start.Calls start [] := .start
  have outerDefined := (started.moved rfl rfl rfl).moved rfl rfl rfl
  have outerCalled := (outerDefined.moved rfl rfl rfl).moved rfl rfl rfl
  have innerDefined := (outerCalled.moved rfl rfl rfl).moved rfl rfl rfl
  have innerCalled := (innerDefined.moved rfl rfl rfl).moved rfl rfl rfl
  have reading := innerCalled.moved rfl rfl rfl
  obtain ⟨-, reads, -⟩ := (runs _ _ _).2 _ _ reading
  obtain ⟨-, fails⟩ := reads "n" 1 (.count rfl)
  exact ⟨_, reading, .count rfl, fails unset⟩

end Machine

end MazeRobot
