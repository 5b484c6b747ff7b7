import Mathlib.Data.List.Nodup
import MazeRobot.Proofs.Parts
import MazeRobot.Proofs.WellFormed

/-! # Calls that pass lint are safe

Lint collects the definitions of a program from its whole text and compares every call with the
first definition of its name. A machine has a table instead, which starts with the definitions of
the top level and takes in others as it comes to them, the last one of a name in place of those
before. If no name is defined twice, the two agree on every name that the machine knows; so a call
that passes lint has the right number of arguments when it is made.

* `Program.CallsPassLint`: no warnings about calls and repeated definitions.
* `firstDefinitions_eq_self`: without repeated definitions lint keeps all of them.
* `Survey.exists_lintStmt_subset_lintBody`: lint looks at every statement, however deep it stands.
* `Program.CallsPassLint.exists_definition`: every call has a definition with as many parameters.
* `Machine.calls_safe_of_lint`: such calls do not fail. -/

namespace MazeRobot

/-! ## What lint says about calls -/

/-- Whether a message is among those of a collection. -/
def Diagnostics.Reports (ds : Diagnostics) (message : String) : Prop :=
  ∃ d ∈ ds, d.message = message

/-- What a part of a collection `Reports` the whole reports. -/
theorem Diagnostics.Reports.mono {ds ds' : Diagnostics} {message : String}
    (reports : ds.Reports message) (part : ds ⊆ ds') : ds'.Reports message := by
  obtain ⟨d, member, same⟩ := reports
  exact ⟨d, part member, same⟩

/-- A program without warnings about repeated definitions and without warnings about calls. -/
structure Program.CallsPassLint (program : Program) : Prop where
  /-- No function is defined again. -/
  single : ∀ (name : String) (line : Int),
    ¬ program.lint.Reports s!"function '{name}' is already defined at line {line}"
  /-- No call is to an undefined function. -/
  defined : ∀ name : String, ¬ program.lint.Reports s!"call to undefined function '{name}'"
  /-- No call has too many or too few arguments. -/
  counted : ∀ (name : String) (expected received : Nat), ¬ program.lint.Reports
    s!"function '{name}' expects {expected} argument(s) but is called with {received}"

/-! ## Repeated definitions -/

/-- Definitions of which `repeatedDefinitions` has none are all first ones: `firstDefinitions` keeps
them, and their names differ from each other and from those in `seen`. -/
theorem firstDefinitions_eq_self {seen fs : List FunctionDef}
    (single : ∀ (name : String) (line : Int), ¬ (repeatedDefinitions seen fs).Reports
      s!"function '{name}' is already defined at line {line}") :
    firstDefinitions seen fs = fs ∧ (fs.map (·.name)).Nodup ∧
      ∀ f ∈ fs, ∀ g ∈ seen, g.name ≠ f.name := by
  induction fs generalizing seen with
  | nil => exact ⟨rfl, List.nodup_nil, fun f member => nomatch member⟩
  | cons f fs ih =>
    cases found : seen.find? (·.name = f.name) with
    | some first =>
      refine absurd ?_ (single f.name first.line)
      rw [repeatedDefinitions, found]
      exact ⟨_, List.mem_cons_self, rfl⟩
    | none =>
      rw [repeatedDefinitions, found] at single
      obtain ⟨same, nodup, apart⟩ := ih single
      have new : ∀ g ∈ seen, g.name ≠ f.name := by simpa using found
      refine ⟨?_, ?_, ?_⟩
      · have unseen : ¬ seen.any (·.name = f.name) = true := by simpa using new
        rw [firstDefinitions, if_neg unseen, same]
      · rw [List.map_cons, List.nodup_cons, List.mem_map]
        refine ⟨?_, nodup⟩
        rintro ⟨g, member, again⟩
        exact apart g member f List.mem_cons_self again.symm
      · intro g member
        rcases List.mem_cons.mp member with rfl | later
        · exact new
        · exact fun h before => apart g later h (List.mem_cons_of_mem _ before)

/-! ## Calls -/

namespace Survey

variable (survey : Survey)

mutual

/-- `lintStmt` includes `lintStmt` of each statement inside, with the parameters of the function
around it. -/
theorem exists_lintStmt_subset_lintStmt (parameters : List String) {part : Stmt} (stmt : Stmt)
    (member : Node.stmt part ∈ stmt.nodes) :
    ∃ own, survey.lintStmt own part ⊆ survey.lintStmt parameters stmt := by
  rcases eq_or_ne part stmt with rfl | other
  · exact ⟨parameters, List.Subset.refl _⟩
  have below : Node.stmt part ≠ .stmt stmt := fun same => other (Node.stmt.inj same)
  cases stmt with
  | block body _ =>
    rw [Stmt.nodes_block] at member
    rw [lintStmt]
    exact exists_lintStmt_subset_lintBody parameters body (List.mem_of_ne_of_mem below member)
  | command kind _ => exact absurd (List.mem_singleton.mp member) below
  | loop count body _ =>
    rw [Stmt.nodes_loop] at member
    have parts := List.mem_of_ne_of_mem below member
    have inside := (List.mem_append.mp parts).resolve_left (Stmt.stmt_notMem_walk _ count)
    obtain ⟨own, warned⟩ := exists_lintStmt_subset_lintBody parameters body inside
    rw [lintStmt]
    exact ⟨own, List.subset_append_of_subset_right _ warned⟩
  | branch condition body _ =>
    rw [Stmt.nodes_branch] at member
    have parts := List.mem_of_ne_of_mem below member
    have inside := (List.mem_append.mp parts).resolve_left (by simp)
    obtain ⟨own, warned⟩ := exists_lintStmt_subset_lintBody parameters body inside
    rw [lintStmt]
    exact ⟨own, List.subset_append_of_subset_right _ warned⟩
  | assign _ value _ =>
    rw [Stmt.nodes_assign] at member
    exact absurd (List.mem_of_ne_of_mem below member) (Stmt.stmt_notMem_walk _ value)
  | define _ own body _ =>
    rw [Stmt.nodes_define] at member
    rw [lintStmt]
    exact exists_lintStmt_subset_lintBody own body (List.mem_of_ne_of_mem below member)
  | call _ arguments _ _ =>
    rw [Stmt.nodes_call] at member
    obtain ⟨argument, -, value⟩ := List.mem_flatMap.mp (List.mem_of_ne_of_mem below member)
    exact absurd value (Stmt.stmt_notMem_walk _ argument)
  | missing => cases member

/-- `lintBody` includes `lintStmt` of each statement inside. -/
theorem exists_lintStmt_subset_lintBody (parameters : List String) {part : Stmt}
    (stmts : List Stmt) (member : Node.stmt part ∈ Stmt.nodesAll stmts) :
    ∃ own, survey.lintStmt own part ⊆ survey.lintBody parameters stmts := by
  cases stmts with
  | nil => cases member
  | cons stmt stmts =>
    rw [Stmt.nodesAll_cons] at member
    rw [lintBody]
    rcases List.mem_append.mp member with first | later
    · obtain ⟨own, warned⟩ := exists_lintStmt_subset_lintStmt parameters stmt first
      exact ⟨own, List.subset_append_of_subset_left _ warned⟩
    · obtain ⟨own, warned⟩ := exists_lintStmt_subset_lintBody parameters stmts later
      exact ⟨own, List.subset_append_of_subset_right _ warned⟩

end

end Survey

namespace Program

variable {program : Program}

/-- `lint` includes `lintBody` of the statements of the program. -/
theorem lintBody_subset_lint : program.survey.lintBody [] program.body ⊆ program.lint :=
  List.subset_append_of_subset_left _ (List.subset_append_right _ _)

/-- `lint` includes `lintCall` of each call of the program. -/
theorem lintCall_subset_lint {name : String} {arguments : List Expr} {implicit : Bool} {line : Int}
    (member : Node.stmt (.call name arguments implicit line) ∈ program.nodes) :
    program.survey.lintCall name arguments line ⊆ program.lint := by
  rw [nodes_eq] at member
  have inside := (List.mem_cons.mp member).resolve_left (by simp [toStmt])
  obtain ⟨own, warned⟩ :=
    program.survey.exists_lintStmt_subset_lintBody [] program.body inside
  rw [Survey.lintStmt] at warned
  exact fun d about => lintBody_subset_lint (warned (List.mem_append_left _ about))

/-- `lint` has nothing to say exactly if `repeatedDefinitions`, `lintBody` and `lintFunction` have
not. -/
theorem lint_eq_nil_iff :
    program.lint = [] ↔
      repeatedDefinitions [] (Node.definitions program.nodes) = [] ∧
        program.survey.lintBody [] program.body = [] ∧
        ∀ f ∈ program.survey.functions, program.survey.lintFunction f = [] := by
  simp [lint, Survey.sortedFunctions, List.flatMap_eq_nil_iff]

namespace CallsPassLint

/-- Where `lint` has nothing to say, `CallsPassLint` holds. -/
theorem of_lint_eq_nil (nothing : program.lint = []) : program.CallsPassLint := by
  have silent : ∀ message, ¬ program.lint.Reports message := by
    rintro message ⟨d, member, -⟩
    rw [nothing] at member
    cases member
  exact ⟨fun _ _ => silent _, fun _ => silent _, fun _ _ _ => silent _⟩

/-- Where `CallsPassLint` holds, the `functions` of the `survey` are all the definitions of the
program, and each has a name of its own. -/
theorem definitions (clean : program.CallsPassLint) :
    program.survey.functions = Node.definitions program.nodes ∧
      ((Node.definitions program.nodes).map (·.name)).Nodup := by
  have single := firstDefinitions_eq_self fun name line reports =>
    clean.single name line <| reports.mono <|
      List.subset_append_of_subset_left _ (List.subset_append_left _ _)
  exact ⟨single.1, single.2.1⟩

/-- Where `CallsPassLint` holds there is only one definition of a name. -/
theorem eq_of_name_eq (clean : program.CallsPassLint) {f g : FunctionDef}
    (left : f ∈ Node.definitions program.nodes) (right : g ∈ Node.definitions program.nodes)
    (same : f.name = g.name) : f = g :=
  List.inj_on_of_nodup_map clean.definitions.2 left right same

/-- **Where `CallsPassLint` holds every call has a definition with as many parameters.** -/
theorem exists_definition (clean : program.CallsPassLint) {name : String}
    {arguments : List Expr} {implicit : Bool} {line : Int}
    (member : Node.stmt (.call name arguments implicit line) ∈ program.nodes) :
    ∃ f ∈ Node.definitions program.nodes,
      f.name = name ∧ arguments.length = f.parameters.length := by
  have warnings := lintCall_subset_lint member
  rw [Survey.lintCall] at warnings
  cases found : program.survey.function? name with
  | none =>
    rw [found] at warnings
    exact absurd ⟨_, warnings List.mem_cons_self, rfl⟩ (clean.defined name)
  | some f =>
    rw [found] at warnings
    dsimp only at warnings
    have defined := List.mem_of_find?_eq_some found
    rw [clean.definitions.1] at defined
    refine ⟨f, defined, by simpa using List.find?_some found, ?_⟩
    by_contra differ
    rw [if_pos differ] at warnings
    exact clean.counted name f.parameters.length arguments.length
      ⟨_, warnings List.mem_cons_self, rfl⟩

end CallsPassLint

end Program

/-! ## Runs -/

namespace Store

variable {store : Store} {name : String} {arguments : List Expr} {line : Int} {fault : Fault}

/-- `resolve` fails with `arityMismatch` only for a known function with another number of
parameters. -/
theorem exists_find?_of_arityMismatch
    (unresolved : store.resolve name arguments line = .error fault)
    (kind : fault.kind = .arityMismatch) :
    ∃ f, store.functions.find? (·.name = name) = some f ∧
      arguments.length ≠ f.parameters.length := by
  rcases resolve_eq_error_cases unresolved with ⟨-, other⟩ | other | other | ⟨f, found, differ, -⟩
  · simp [kind] at other
  · simp [kind] at other
  · simp [kind] at other
  · exact ⟨f, found, differ⟩

/-- `resolve` fails with `unknownFunction` only for a function that is not in the table. -/
theorem find?_eq_none_of_unknownFunction
    (unresolved : store.resolve name arguments line = .error fault)
    (kind : fault.kind = .unknownFunction) : store.functions.find? (·.name = name) = none := by
  rcases resolve_eq_error_cases unresolved with ⟨unknown, -⟩ | other | other | ⟨f, -, -, other⟩
  · exact unknown
  · simp [kind] at other
  · simp [kind] at other
  · simp [kind] at other

end Store

namespace Machine

namespace Confined

variable {program : Program} {frames : List Frame} {store : Store} {name : String}
  {arguments : List Expr} {implicit : Bool} {line : Int}

/-- In a `Confined` store, the function in the table is the one that `lint` compares a call with. -/
theorem arity_eq (confined : Confined program frames store) (clean : program.CallsPassLint)
    (member : Node.stmt (.call name arguments implicit line) ∈ program.nodes) {g : FunctionDef}
    (found : store.functions.find? (·.name = name) = some g) :
    arguments.length = g.parameters.length := by
  obtain ⟨f, defined, named, arity⟩ := clean.exists_definition member
  have known := confined.functions g (List.mem_of_find?_eq_some found)
  have same : g.name = name := by simpa using List.find?_some found
  rw [clean.eq_of_name_eq known defined (same.trans named.symm)]
  exact arity

/-- In a `Confined` store, the function of a call is in the table from the start, where every
definition stands at the top level. -/
theorem find?_ne_none (confined : Confined program frames store) (clean : program.CallsPassLint)
    (topLevel : ∀ f ∈ Node.definitions program.nodes, f.toStmt ∈ program.body)
    (member : Node.stmt (.call name arguments implicit line) ∈ program.nodes) :
    store.functions.find? (·.name = name) ≠ none := by
  obtain ⟨f, defined, named, -⟩ := clean.exists_definition member
  have top : f ∈ program.body.filterMap Stmt.definition? :=
    List.mem_filterMap.mpr ⟨_, topLevel f defined, Stmt.definition?_eq_some_iff.mpr rfl⟩
  obtain ⟨g, known, same⟩ := confined.known f top
  intro unknown
  have other := List.find?_eq_none.mp unknown g known
  exact other (decide_eq_true (same.trans named))

end Confined

/-- A visit that `Faults` because of the function that is called fails in a call, where `resolve`
fails. -/
theorem Faults.exists_call {limits : Limits} {store : Store} {depth : Nat} {stmt : Stmt}
    {fault : Fault} (faults : Faults limits store depth stmt fault)
    (kind : fault.kind = .arityMismatch ∨ fault.kind = .unknownFunction) :
    ∃ name arguments implicit line, stmt = .call name arguments implicit line ∧
      store.resolve name arguments line = .error fault := by
  cases faults with
  | count body line unknown =>
    rcases Store.kind_of_value_eq_error unknown with other | other <;> simp [other] at kind
  | negative body line evaluated negative => rcases kind with kind | kind <;> cases kind
  | value name line unknown =>
    rcases Store.kind_of_value_eq_error unknown with other | other <;> simp [other] at kind
  | unresolved implicit line unresolved => exact ⟨_, _, _, _, rfl, unresolved⟩
  | tooDeep implicit line resolved deep => rcases kind with kind | kind <;> cases kind

/-- A run that fails because of the function that is called fails in a call of its program, in a
`Confined` store. -/
theorem exists_call_of_fault? {robot : Robot} {limits : Limits} {tracing : Bool}
    {program : Program} {n : Nat} {fault : Fault}
    (failed : ((load robot limits tracing program).stepped n).fault? = some fault)
    (kind : fault.kind = .arityMismatch ∨ fault.kind = .unknownFunction) :
    ∃ frames store, Confined program frames store ∧
      ∃ name arguments implicit line,
        Node.stmt (.call name arguments implicit line) ∈ program.nodes ∧
          store.resolve name arguments line = .error fault := by
  rcases exists_visit_of_fault? failed with budget | ⟨m, m', reached, visit⟩
  · simp [budget] at kind
  · obtain ⟨top, below, frames, stmt, rfl, faults, -⟩ := visit?_cases visit
    obtain ⟨name, arguments, implicit, line, rfl, unresolved⟩ := faults.exists_call kind
    have nodes := reached.confined.nodes
    rw [frames] at nodes
    have member := nodes _ (List.mem_append_left _ List.mem_cons_self)
    exact ⟨_, _, reached.confined, name, arguments, implicit, line, member, unresolved⟩

/-- **Calls that pass `lint` are safe.** If `CallsPassLint`, that is, if `lint` reports no repeated
definition, no call to an undefined function and no call with too many or too few arguments, then no
run of the program, on any grid and with any limits, fails because of the number of arguments of a
call. If besides every definition stands at the top level, no run fails because a function is
unknown. -/
theorem calls_safe_of_lint (program : Program) (clean : program.CallsPassLint) :
    (∀ robot limits tracing n fault,
      ((load robot limits tracing program).stepped n).fault? = some fault →
        fault.kind ≠ .arityMismatch) ∧
    ((∀ f ∈ Node.definitions program.nodes, f.toStmt ∈ program.body) →
      ∀ robot limits tracing n fault,
        ((load robot limits tracing program).stepped n).fault? = some fault →
          fault.kind ≠ .unknownFunction) := by
  refine ⟨fun robot limits tracing n fault failed kind => ?_,
    fun topLevel robot limits tracing n fault failed kind => ?_⟩
  · obtain ⟨frames, store, confined, name, arguments, implicit, line, member, unresolved⟩ :=
      exists_call_of_fault? failed (.inl kind)
    obtain ⟨g, found, differ⟩ := Store.exists_find?_of_arityMismatch unresolved kind
    exact differ (confined.arity_eq clean member found)
  · obtain ⟨frames, store, confined, name, arguments, implicit, line, member, unresolved⟩ :=
      exists_call_of_fault? failed (.inr kind)
    have unknown := Store.find?_eq_none_of_unknownFunction unresolved kind
    exact confined.find?_ne_none clean topLevel member unknown

/-- A source in which a function calls another one that is defined after it, in a loop. -/
def forwardCallSource : List UInt8 :=
  Text.utf8 ("(function twice () (step 2)) " ++
    "(function step (n) (repeat n (forward))) (repeat 3 (twice))")

/-- The program of that source. -/
def forwardCallProgram : Program :=
  ⟨[.define "twice" [] [.call "step" [.number 2 1] true 1] 1,
    .define "step" ["n"] [.loop (.var "n" 1) [.command .forward 1] 1] 1,
    .loop (.number 3 1) [.call "twice" [] true 1] 1], 1⟩

/-- `lint` has nothing to say about that program, and both its definitions stand at the top level,
so its calls never fail. -/
theorem calls_safe_of_lint_forwardCall :
    Program.parse forwardCallSource = .ok forwardCallProgram ∧
      forwardCallProgram.CallsPassLint ∧
      (∀ f ∈ Node.definitions forwardCallProgram.nodes, f.toStmt ∈ forwardCallProgram.body) ∧
      ∀ robot limits tracing n fault,
        ((load robot limits tracing forwardCallProgram).stepped n).fault? = some fault →
          fault.kind ≠ .arityMismatch ∧ fault.kind ≠ .unknownFunction := by
  have clean : forwardCallProgram.CallsPassLint := .of_lint_eq_nil <|
    Program.lint_eq_nil_iff.mpr ⟨by decide +kernel, by decide +kernel, by decide +kernel⟩
  have topLevel : ∀ f ∈ Node.definitions forwardCallProgram.nodes,
      f.toStmt ∈ forwardCallProgram.body := by decide +kernel
  obtain ⟨arity, known⟩ := calls_safe_of_lint forwardCallProgram clean
  refine ⟨eq_ok_of_toOption (by decide +kernel), clean, topLevel, ?_⟩
  intro robot limits tracing n fault failed
  exact ⟨arity _ _ _ _ _ failed, known topLevel _ _ _ _ _ failed⟩

end Machine

end MazeRobot
