import MazeRobot.Proofs.CallFrames
import MazeRobot.Proofs.CallStack
import MazeRobot.Proofs.Rewriting
import Mathlib.Data.List.Forall2

/-! # Calls that differ in an argument

Two programs differ in a number that some calls of a function pass at one place. Then the scopes of
two runs differ in the value of one parameter, in every call of that function that is active. As
long as nothing reads the parameter there, each visit of one machine is a visit of the other one, by
the same rule.

* `Scope.SameBut`: scopes that bind the same names, to the same values unless a name is hidden.
* `Store.SameBut`: stores of two runs, with the names that each active call hides.
* `Stmt.Rephrases`: a call with another number for an argument.
* `Machine.Moves.rephrased`, `Machine.Faults.rephrased`: the rules of visits. -/

namespace MazeRobot

/-! ## Scopes -/

namespace Scope

/-- Bindings of the same name, to the same value unless the name is hidden. -/
structure SameBinding (hidden : String → Prop) (binding binding' : String × Int) : Prop where
  /-- The names are the same. -/
  name : binding'.1 = binding.1
  /-- So are the values, unless the name is hidden. -/
  value : ¬ hidden binding.1 → binding'.2 = binding.2

/-- Scopes that bind the same names in the same order, to the same values unless a name is
hidden. -/
def SameBut (hidden : String → Prop) (scope scope' : Scope) : Prop :=
  List.Forall₂ (SameBinding hidden) scope.bindings scope'.bindings

variable {hidden : String → Prop} {scope scope' : Scope}

/-- `SameBinding` is reflexive on bindings in a row. -/
theorem forall₂_sameBinding_refl (bindings : List (String × Int)) :
    List.Forall₂ (SameBinding hidden) bindings bindings :=
  List.forall₂_same.mpr fun _ _ => ⟨rfl, fun _ => rfl⟩

namespace SameBut

/-- `SameBut` is reflexive: a scope is the same as itself. -/
theorem refl (scope : Scope) : SameBut hidden scope scope :=
  forall₂_sameBinding_refl scope.bindings

/-- `SameBut` scopes have the same names. -/
theorem names_eq (same : SameBut hidden scope scope') : scope'.names = scope.names := by
  obtain ⟨bindings⟩ := scope
  obtain ⟨bindings'⟩ := scope'
  change List.Forall₂ _ bindings bindings' at same
  rw [names, names]
  induction same with
  | nil => rfl
  | cons first rest ih => rw [List.map_cons, List.map_cons, first.name, ih]

/-- `SameBut` scopes have the same value for a name that is not hidden. -/
theorem get?_eq (same : SameBut hidden scope scope') {name : String} (visible : ¬ hidden name) :
    scope'.get? name = scope.get? name := by
  obtain ⟨bindings⟩ := scope
  obtain ⟨bindings'⟩ := scope'
  change List.Forall₂ _ bindings bindings' at same
  rw [get?, get?]
  induction same with
  | nil => rfl
  | @cons binding binding' bindings bindings' first rest ih =>
    obtain ⟨key, value⟩ := binding
    obtain ⟨key', value'⟩ := binding'
    have names : key' = key := first.name
    have values : ¬ hidden key → value' = value := first.value
    rw [List.lookup_cons, List.lookup_cons, ih, names]
    by_cases own : name = key
    · rw [values (own ▸ visible)]
    · have differs : (name == key) = false := by simpa using own
      rw [differs]

/-- `define` keeps scopes `SameBut` for the hidden names, if it binds a name that is not hidden to
the same value. -/
theorem define (same : SameBut hidden scope scope') {name : String} {value value' : Int}
    (values : ¬ hidden name → value' = value) :
    SameBut hidden (scope.define name value) (scope'.define name value') := by
  refine .cons ⟨rfl, values⟩ ?_
  obtain ⟨bindings⟩ := scope
  obtain ⟨bindings'⟩ := scope'
  change List.Forall₂ _ bindings bindings' at same
  induction same with
  | nil => exact .nil
  | cons first rest ih =>
    rw [List.filter_cons, List.filter_cons, first.name]
    split
    · exact .cons first ih
    · exact ih

/-- `ofBindings` of bindings that are the same but for hidden values. -/
theorem ofBindings {bindings bindings' : List (String × Int)}
    (same : List.Forall₂ (SameBinding hidden) bindings bindings') :
    SameBut hidden (.ofBindings bindings) (.ofBindings bindings') := by
  have further : ∀ {first first' : Scope}, SameBut hidden first first' →
      SameBut hidden (bindings.foldl (fun scope binding => scope.define binding.1 binding.2) first)
        (bindings'.foldl (fun scope binding => scope.define binding.1 binding.2) first') := by
    induction same with
    | nil => exact fun start => start
    | cons binding rest ih =>
      intro first first' start
      rw [List.foldl_cons, List.foldl_cons, binding.name]
      exact ih (start.define binding.value)
  exact further (.refl empty)

end SameBut

/-- Values for parameters that make the same scope, up to hidden names. -/
structure SameValues (hidden : String → Prop) (parameters : List String)
    (values values' : List Int) : Prop where
  /-- There are as many values. -/
  length : values'.length = values.length
  /-- The parameters are bound to the same values, unless they are hidden. -/
  bindings : List.Forall₂ (SameBinding hidden) (parameters.zip values) (parameters.zip values')

end Scope

/-! ## Stores -/

/-- The scopes of active calls in two runs, with the names that each of the functions hides. -/
inductive SameLocals (hidden : FunctionDef → String → Prop) :
    List FunctionDef → List Scope → List Scope → Prop
  /-- Nothing is being called. -/
  | nil : SameLocals hidden [] [] []
  /-- A call. -/
  | cons {f : FunctionDef} {calls : List FunctionDef} {scope scope' : Scope}
      {scopes scopes' : List Scope} (same : scope.SameBut (hidden f) scope')
      (callers : SameLocals hidden calls scopes scopes') :
      SameLocals hidden (f :: calls) (scope :: scopes) (scope' :: scopes')

/-- `SameLocals` are as many scopes. -/
theorem SameLocals.length_eq {hidden : FunctionDef → String → Prop} {calls : List FunctionDef}
    {scopes scopes' : List Scope} (same : SameLocals hidden calls scopes scopes') :
    scopes'.length = scopes.length := by
  induction same with
  | nil => rfl
  | cons _ _ ih => rw [List.length_cons, List.length_cons, ih]

/-- Without the innermost call the scopes are still `SameLocals`. -/
theorem SameLocals.tail {hidden : FunctionDef → String → Prop} {calls : List FunctionDef}
    {scopes scopes' : List Scope} (same : SameLocals hidden calls scopes scopes') :
    SameLocals hidden calls.tail scopes.tail scopes'.tail := by
  cases same with
  | nil => exact .nil
  | cons _ callers => exact callers

/-- Whether no hidden name of the innermost function is read in nodes. -/
def Visible (hidden : FunctionDef → String → Prop) (calls : List FunctionDef)
    (nodes : List Node) : Prop :=
  ∀ name line, Node.expr (.var name line) ∈ nodes → ∀ f ∈ calls.head?, ¬ hidden f name

/-- Names that are `Visible` for some nodes are so for fewer nodes. -/
theorem Visible.mono {hidden : FunctionDef → String → Prop} {calls : List FunctionDef}
    {nodes nodes' : List Node} (visible : Visible hidden calls nodes) (fewer : nodes' ⊆ nodes) :
    Visible hidden calls nodes' :=
  fun name line member => visible name line (fewer member)

namespace Store

/-- Stores of two runs that have the same robot, the same functions up to replacements, and the same
scopes up to hidden names. -/
structure SameBut (replaces : Stmt → List Stmt → Prop) (hidden : FunctionDef → String → Prop)
    (calls : List FunctionDef) (store store' : Store) : Prop where
  /-- The robots are the same. -/
  robot : store'.robot = store.robot
  /-- The known functions are the same up to replacements. -/
  functions : List.Forall₂ (FunctionDef.Becomes replaces) store.functions store'.functions
  /-- The global scopes are the same. -/
  globals : store'.scopes.globals = store.scopes.globals
  /-- The scopes of calls are the same up to hidden names. -/
  locals : SameLocals hidden calls store.scopes.locals store'.scopes.locals

namespace SameBut

variable {replaces : Stmt → List Stmt → Prop} {hidden : FunctionDef → String → Prop}
  {calls : List FunctionDef} {store store' : Store}

/-- `SameBut` stores have the same number of scopes. -/
theorem depth_eq (same : SameBut replaces hidden calls store store') :
    store'.scopes.depth = store.scopes.depth :=
  congrArg (· + 1) same.locals.length_eq

/-- The `innermost` scopes of `SameBut` stores have the same names, and the same values unless these
are hidden. -/
theorem innermost (same : SameBut replaces hidden calls store store') :
    store'.scopes.innermost.names = store.scopes.innermost.names ∧
      ∀ name, (∀ f ∈ calls.head?, ¬ hidden f name) →
        store'.scopes.innermost.get? name = store.scopes.innermost.get? name := by
  rw [Scopes.innermost, Scopes.innermost, same.globals]
  have locals := same.locals
  generalize store.scopes.locals = scopes at locals ⊢
  generalize store'.scopes.locals = scopes' at locals ⊢
  cases locals with
  | nil => exact ⟨rfl, fun _ _ => rfl⟩
  | cons scope callers =>
    exact ⟨scope.names_eq, fun name visible => scope.get?_eq (visible _ rfl)⟩

/-- `SameBut` stores have the same `value` for an expression whose names are `Visible`. -/
theorem value_eq (same : SameBut replaces hidden calls store store') {expr : Expr}
    (visible : Visible hidden calls expr.walk) : store'.value expr = store.value expr := by
  cases expr with
  | number value line => rfl
  | distance line => rw [value, value, same.robot]
  | missing => rfl
  | var name line =>
    obtain ⟨names, values⟩ := same.innermost
    have found : store'.scopes.get? name = store.scopes.get? name := by
      have here : Node.expr (.var name line) ∈ (Expr.var name line).walk := by simp [Expr.walk]
      rw [Scopes.get?, Scopes.get?, same.globals, values name (visible name line here)]
    have hints : store'.scopes.visible = store.scopes.visible := by
      rw [Scopes.visible, Scopes.visible, same.globals, names]
    rw [value, value, found, hints]

/-- `SameBut` stores have the same `values` for expressions whose names are `Visible`. -/
theorem values_eq (same : SameBut replaces hidden calls store store') {exprs : List Expr}
    (visible : Visible hidden calls (exprs.flatMap Expr.walk)) :
    store'.values exprs = store.values exprs := by
  induction exprs with
  | nil => rfl
  | cons expr exprs ih =>
    rw [List.flatMap_cons] at visible
    rw [values, values, same.value_eq (visible.mono (List.subset_append_left _ _)),
      ih (visible.mono (List.subset_append_right _ _))]

/-- `SameBut` stores give the same answer to a `test`, and stay so. -/
theorem test (same : SameBut replaces hidden calls store store') (condition : Condition) :
    (store'.test condition).2 = (store.test condition).2 ∧
      SameBut replaces hidden calls (store.test condition).1 (store'.test condition).1 := by
  obtain ⟨robot, functions, globals, locals⟩ := same
  simp only [Store.test, robot]
  exact ⟨trivial, rfl, functions, globals, locals⟩

/-- `assign` binds a name to the same value in both innermost scopes. -/
theorem assign (same : SameBut replaces hidden calls store store') (name : String) (value : Int) :
    SameBut replaces hidden calls { store with scopes := store.scopes.assign name value }
      { store' with scopes := store'.scopes.assign name value } := by
  obtain ⟨robot, functions, ⟨globals, scopes⟩⟩ := store
  obtain ⟨robot', functions', ⟨globals', scopes'⟩⟩ := store'
  obtain ⟨rfl, known, rfl, locals⟩ := same
  cases locals with
  | nil => exact ⟨rfl, known, rfl, .nil⟩
  | cons scope callers => exact ⟨rfl, known, rfl, .cons (scope.define fun _ => rfl) callers⟩

/-- `push` puts the scope of a call on both stores. -/
theorem push (same : SameBut replaces hidden calls store store') {f : FunctionDef}
    {scope scope' : Scope} (own : scope.SameBut (hidden f) scope') :
    SameBut replaces hidden (f :: calls) { store with scopes := store.scopes.push scope }
      { store' with scopes := store'.scopes.push scope' } :=
  ⟨same.robot, same.functions, same.globals, .cons own same.locals⟩

/-- `popTo` takes the scope of a call off both stores. -/
theorem popTo (same : SameBut replaces hidden calls store store') {back : Nat}
    (deeper : store.scopes.depth = back + 1) :
    SameBut replaces hidden calls.tail { store with scopes := store.scopes.popTo back }
      { store' with scopes := store'.scopes.popTo back } := by
  rw [Scopes.popTo_eq_pop deeper, Scopes.popTo_eq_pop (same.depth_eq.trans deeper)]
  exact ⟨same.robot, same.functions, same.globals, same.locals.tail⟩

/-- `values` of arguments of which one is another number have the `SameValues` for all parameters
but the hidden one at its place. -/
theorem agree_values (same : SameBut replaces hidden calls store store') {hides : String → Prop}
    {parameters : List String} {parameter : String} {before after : List Expr} {line : Int}
    {value : Int} (value' : Int) (position : parameters[before.length]? = some parameter)
    (hide : hides parameter)
    (visible : Visible hidden calls ((before ++ .number value line :: after).flatMap Expr.walk)) :
    Agree (Scope.SameValues hides parameters) (store.values (before ++ .number value line :: after))
      (store'.values (before ++ .number value' line :: after)) := by
  induction before generalizing parameters with
  | nil =>
    obtain ⟨others, rfl⟩ : ∃ others, parameters = parameter :: others := by
      cases parameters with
      | nil => cases position
      | cons first others =>
        cases position
        exact ⟨others, rfl⟩
    -- Here stands the other number. It is bound to a hidden name, and what follows is the same.
    have rest := same.values_eq (visible.mono (List.subset_append_right _ _))
    rw [List.nil_append, List.nil_append, values, values, rest]
    dsimp only [Store.value]
    cases store.values after with
    | error fault => exact .error fault
    | ok found =>
      refine .ok ⟨rfl, .cons ⟨rfl, fun visible => absurd hide visible⟩ ?_⟩
      exact Scope.forall₂_sameBinding_refl _
  | cons expr before ih =>
    obtain ⟨first, others, rfl⟩ : ∃ first others, parameters = first :: others := by
      cases parameters with
      | nil => cases position
      | cons first others => exact ⟨first, others, rfl⟩
    rw [List.cons_append, List.flatMap_cons] at visible
    have later := ih position (visible.mono (List.subset_append_right _ _))
    have now := same.value_eq (visible.mono (List.subset_append_left _ _))
    rw [List.cons_append, List.cons_append, values, values, now]
    cases store.value expr with
    | error fault => exact .error fault
    | ok bound =>
      generalize store.values (before ++ .number value line :: after) = result at later ⊢
      generalize store'.values (before ++ .number value' line :: after) = result' at later ⊢
      cases later with
      | error fault => exact .error fault
      | ok on => exact .ok ⟨congrArg (· + 1) on.length, .cons ⟨rfl, fun _ => rfl⟩ on.bindings⟩

end SameBut

end Store

/-! ## Calls with another argument -/

/-- A call of a function, and the call with another number for the argument at some place. -/
inductive Stmt.Rephrases (name : String) (index : Nat) : Stmt → List Stmt → Prop
  /-- The other arguments, and all lines, stay the same. -/
  | intro (before after : List Expr) (value value' numberLine : Int) (implicit : Bool) (line : Int)
      (position : before.length = index) :
      Rephrases name index (.call name (before ++ .number value numberLine :: after) implicit line)
        [.call name (before ++ .number value' numberLine :: after) implicit line]

/-- What `Rephrases` a call is no definition. -/
theorem Stmt.Rephrases.definition? {name : String} {index : Nat} {stmt : Stmt} {instead : List Stmt}
    (rephrases : stmt.Rephrases name index instead) :
    stmt.definition? = none ∧ ∀ other ∈ instead, other.definition? = none := by
  cases rephrases
  refine ⟨rfl, fun other member => ?_⟩
  cases List.mem_singleton.mp member
  rfl

/-- Frames that are the same up to the argument of some calls. -/
inductive Frame.Rephrased (name : String) (index : Nat) : Frame → Frame → Prop
  /-- The rest of a sequence. -/
  | block {rest rest' : List Stmt}
      (becomes : Stmt.BecomesAll (Stmt.Rephrases name index) rest rest') :
      Rephrased name index (.block rest) (.block rest')
  /-- The rest of a function's body. -/
  | body {rest rest' : List Stmt} (function : String) (back : Nat)
      (becomes : Stmt.BecomesAll (Stmt.Rephrases name index) rest rest') :
      Rephrased name index (.body rest function back) (.body rest' function back)
  /-- A statement that is the same up to the calls inside it. -/
  | stmt {next next' : Stmt} (becomes : Stmt.Becomes (Stmt.Rephrases name index) next next') :
      Rephrased name index (.stmt next) (.stmt next')
  /-- A call with another argument. -/
  | call {next next' : Stmt} (base : next.Rephrases name index [next']) :
      Rephrased name index (.stmt next) (.stmt next')
  /-- A loop with the number of rounds still to go. -/
  | loop {again again' : List Stmt} (remaining : Nat) (line : Int)
      (becomes : Stmt.BecomesAll (Stmt.Rephrases name index) again again') :
      Rephrased name index (.loop remaining again line) (.loop remaining again' line)

namespace Frame.Rephrased

variable {name : String} {index : Nat}

/-- `Rephrased` frames run a node on the same line. -/
theorem line?_eq {frame frame' : Frame} (rephrased : frame.Rephrased name index frame') :
    frame'.line? = frame.line? := by
  cases rephrased with
  | block becomes => rfl
  | body function back becomes => rfl
  | stmt becomes => cases becomes <;> rfl
  | call base =>
    cases base
    rfl
  | loop remaining line becomes => rfl

/-- `Frame.ofStmt` of statements of which one `Becomes` the other by calls that are rephrased. -/
theorem ofStmt {stmt stmt' : Stmt} (becomes : Stmt.Becomes (Stmt.Rephrases name index) stmt stmt') :
    (Frame.ofStmt stmt).Rephrased name index (.ofStmt stmt') := by
  cases becomes with
  | missing => exact .block .nil
  | block line body => exact .stmt (.block line body)
  | command kind line => exact .stmt (.command kind line)
  | loop count line body => exact .stmt (.loop count line body)
  | branch condition line body => exact .stmt (.branch condition line body)
  | assign name value line => exact .stmt (.assign name value line)
  | define name parameters line body => exact .stmt (.define name parameters line body)
  | call name arguments implicit line => exact .stmt (.call name arguments implicit line)

/-- The first statements of sequences of which one `BecomesAll` the other, and what is left of
these. -/
theorem next {stmt : Stmt} {stmts all : List Stmt}
    (becomes : Stmt.BecomesAll (Stmt.Rephrases name index) (stmt :: stmts) all) :
    ∃ stmt' stmts', all = stmt' :: stmts' ∧
      (Frame.ofStmt stmt).Rephrased name index (.ofStmt stmt') ∧
      Stmt.BecomesAll (Stmt.Rephrases name index) stmts stmts' := by
  cases becomes with
  | kept first rest => exact ⟨_, _, rfl, .ofStmt first, rest⟩
  | replaced base rest whole =>
    cases base with
    | intro before after value value' numberLine implicit line position =>
      refine ⟨_, _, whole, .call ?_, rest⟩
      exact .intro before after value value' numberLine implicit line position

end Frame.Rephrased

/-! ## Visits -/

/-- The count of a loop is among its `ownNodes`. -/
theorem Stmt.count_subset_ownNodes {count : Expr} {body : List Stmt} {line : Int} :
    count.walk ⊆ (loop count body line).ownNodes :=
  fun _ inside => List.mem_cons_of_mem _ (List.mem_append_left _ inside)

namespace Machine

section Visits

variable {limits : Limits} {store store' after : Store} {depth depth' : Nat} {top top' : Frame}
  {pushed below : List Frame} {calls : List FunctionDef} {f : FunctionDef} {index : Nat}
  {parameter : String} {hidden : FunctionDef → String → Prop}

/-- A call in two runs: it leads to the same function up to replacements, with scopes that are the
same up to hidden names, or fails in the same way. -/
structure CallsAlike (f : FunctionDef) (index : Nat) (hidden : FunctionDef → String → Prop)
    (store store' : Store) (name : String) (arguments arguments' : List Expr) (line : Int) :
    Prop where
  /-- Both calls fail in the same way. -/
  error : ∀ {fault}, store.resolve name arguments line = .error fault →
    store'.resolve name arguments' line = .error fault
  /-- Both calls lead to a function. -/
  ok : ∀ {g values}, store.resolve name arguments line = .ok (g, values) →
    ∃ g' values', store'.resolve name arguments' line = .ok (g', values') ∧
      FunctionDef.Becomes (Stmt.Rephrases f.name index) g g' ∧
      (Scope.ofArguments g.parameters values).SameBut (hidden g)
        (.ofArguments g'.parameters values')

/-- `CallsAlike` holds of a call that is the same in both programs. -/
theorem callsAlike_same
    (same : store.SameBut (Stmt.Rephrases f.name index) hidden calls store') {name : String}
    {arguments : List Expr} (line : Int)
    (visible : Visible hidden calls (arguments.flatMap Expr.walk)) :
    CallsAlike f index hidden store store' name arguments arguments line := by
  have values : Agree Eq (store.values arguments) (store'.values arguments) := by
    rw [same.values_eq visible]
    exact .refl (fun _ => rfl) _
  have agree := Store.agree_resolve same.functions
    (fun equal => congrArg List.length equal.symm) values name line
  refine ⟨agree.eq_error, fun {g found} resolved => ?_⟩
  obtain ⟨⟨g', found'⟩, resolved', becomes, equal⟩ := agree.exists_ok resolved
  dsimp only at becomes equal
  subst equal
  refine ⟨g', found, resolved', becomes, ?_⟩
  rw [becomes.parameters]
  exact .refl _

/-- `CallsAlike` holds of a call with another number for the hidden parameter. -/
theorem callsAlike_rephrased
    (same : store.SameBut (Stmt.Rephrases f.name index) hidden calls store')
    (only : ∀ g ∈ store.functions, g.name = f.name → g = f)
    (position : f.parameters[index]? = some parameter) (hide : hidden f parameter)
    {before others : List Expr} {value value' numberLine : Int} (line : Int)
    (place : before.length = index)
    (visible : Visible hidden calls
      ((before ++ .number value numberLine :: others).flatMap Expr.walk)) :
    CallsAlike f index hidden store store' f.name (before ++ .number value numberLine :: others)
      (before ++ .number value' numberLine :: others) line := by
  subst place
  have values := same.agree_values value' position hide visible
  have agree := Store.agree_resolve same.functions (fun on => on.length) values f.name line
  refine ⟨agree.eq_error, fun {g found} resolved => ?_⟩
  obtain ⟨⟨g', found'⟩, resolved', becomes, on⟩ := agree.exists_ok resolved
  -- The function is the one that has the parameter, since there is no other one of its name.
  have named : g.name = f.name := by
    simpa using List.find?_some (Store.find?_of_resolve resolved)
  obtain rfl := only g (Store.mem_of_resolve resolved) named
  refine ⟨g', found', resolved', becomes, ?_⟩
  rw [becomes.parameters]
  exact .ofBindings on.bindings

/-- A call on top of the stack is `Rephrased` to one that `CallsAlike`. -/
theorem exists_callsAlike
    (same : store.SameBut (Stmt.Rephrases f.name index) hidden calls store')
    (only : ∀ g ∈ store.functions, g.name = f.name → g = f)
    (position : f.parameters[index]? = some parameter) (hide : hidden f parameter) {name : String}
    {arguments : List Expr} {implicit : Bool} {line : Int}
    (rephrased : (Frame.stmt (.call name arguments implicit line)).Rephrased f.name index top')
    (visible : Visible hidden calls (arguments.flatMap Expr.walk)) :
    ∃ arguments', top' = .stmt (.call name arguments' implicit line) ∧
      CallsAlike f index hidden store store' name arguments arguments' line := by
  cases rephrased with
  | stmt becomes =>
    cases becomes
    exact ⟨_, rfl, callsAlike_same same line visible⟩
  | call base =>
    cases base with
    | intro before others value value' numberLine _ _ place =>
      exact ⟨_, rfl, callsAlike_rephrased same only position hide line place visible⟩

/-- **Each visit that `Moves` on does so by the same rule in both runs.** -/
theorem Moves.rephrased (rule : Moves limits store depth top pushed after depth')
    (nested : Nested limits (top :: below) store depth)
    (same : store.SameBut (Stmt.Rephrases f.name index) hidden calls store')
    (only : ∀ g ∈ store.functions, g.name = f.name → g = f)
    (position : f.parameters[index]? = some parameter) (hide : hidden f parameter)
    (visible : Visible hidden calls top.ownNodes)
    (rephrased : top.Rephrased f.name index top') :
    ∃ pushed' after', Moves limits store' depth top' pushed' after' depth' ∧
      List.Forall₂ (Frame.Rephrased f.name index) pushed pushed' ∧
      after.SameBut (Stmt.Rephrases f.name index) hidden (callsAfter store.functions calls top)
        after' := by
  cases rule with
  | blockNext stmt stmts =>
    cases rephrased with
    | block becomes =>
      obtain ⟨stmt', stmts', rfl, first, rest⟩ := Frame.Rephrased.next becomes
      exact ⟨_, _, .blockNext stmt' stmts', .cons first (.cons (.block rest) .nil), same⟩
  | blockEnd =>
    cases rephrased with
    | block becomes =>
      cases becomes
      exact ⟨_, _, .blockEnd, .nil, same⟩
  | bodyNext stmt stmts function back =>
    cases rephrased with
    | body _ _ becomes =>
      obtain ⟨stmt', stmts', rfl, first, rest⟩ := Frame.Rephrased.next becomes
      exact ⟨_, _, .bodyNext stmt' stmts' function back,
        .cons first (.cons (.body function back rest) .nil), same⟩
  | bodyEnd function back =>
    cases rephrased with
    | body _ _ becomes =>
      cases becomes
      -- The frame goes back to one scope less, so both runs drop the scope of the same call.
      obtain ⟨rfl, -, -⟩ := nested.back_eq
      exact ⟨_, _, .bodyEnd function depth, .nil, same.popTo nested.scopes⟩
  | round n body line =>
    cases rephrased with
    | loop _ _ becomes =>
      exact ⟨_, _, .round n _ line, .cons (.block becomes) (.cons (.loop n line becomes) .nil),
        same⟩
  | roundsEnd body line =>
    cases rephrased
    exact ⟨_, _, .roundsEnd _ line, .nil, same⟩
  | loopNone body line evaluated =>
    have counted := (same.value_eq (visible.mono Stmt.count_subset_ownNodes)).trans evaluated
    cases rephrased with
    | stmt becomes =>
      cases becomes
      exact ⟨_, _, .loopNone _ line counted, .nil, same⟩
    | call base => cases base
  | @loop count n body line evaluated =>
    have counted := (same.value_eq (visible.mono Stmt.count_subset_ownNodes)).trans evaluated
    cases rephrased with
    | stmt becomes =>
      cases becomes with
      | loop _ _ inside =>
        exact ⟨_, _, .loop _ line counted, .cons (.block inside) (.cons (.loop n line inside) .nil),
          same⟩
    | call base => cases base
  | branchNone body line =>
    cases rephrased with
    | stmt becomes =>
      cases becomes
      exact ⟨_, _, .branchNone _ line, .nil, same⟩
    | call base => cases base
  | @branchTaken condition body line holds =>
    obtain ⟨answer, tested⟩ := same.test condition
    cases rephrased with
    | stmt becomes =>
      cases becomes with
      | branch _ _ inside =>
        exact ⟨_, _, .branchTaken _ line (answer.trans holds), .cons (.block inside) .nil, tested⟩
    | call base => cases base
  | @branchSkipped condition body line fails =>
    obtain ⟨answer, tested⟩ := same.test condition
    cases rephrased with
    | stmt becomes =>
      cases becomes
      exact ⟨_, _, .branchSkipped _ line (answer.trans fails), .nil, tested⟩
    | call base => cases base
  | assign name line evaluated =>
    have found := (same.value_eq (visible.mono (List.subset_cons_self _ _))).trans evaluated
    cases rephrased with
    | stmt becomes =>
      cases becomes
      exact ⟨_, _, .assign name line found, .nil, same.assign name _⟩
    | call base => cases base
  | define name parameters body line =>
    cases rephrased with
    | stmt becomes =>
      cases becomes with
      | define _ _ _ inside =>
        refine ⟨_, _, .define name parameters _ line, .nil, same.robot, ?_, same.globals,
          same.locals⟩
        exact FunctionDef.forall₂_insert ⟨rfl, rfl, inside⟩ same.functions
    | call base => cases base
  | @call name arguments g values implicit line resolved shallow =>
    obtain ⟨arguments', rfl, alike⟩ := exists_callsAlike same only position hide rephrased
      (visible.mono (List.subset_cons_self _ _))
    obtain ⟨g', values', resolved', becomes, scopes⟩ := alike.ok resolved
    -- The depth to go back to is part of the new frame, and it is the same in both runs.
    have entered := Moves.call implicit line resolved' shallow
    rw [becomes.name, same.depth_eq] at entered
    rw [callsAfter, Store.find?_of_resolve resolved]
    exact ⟨_, _, entered, .cons (.body g.name _ becomes.body) .nil, same.push scopes⟩
  | block body line =>
    cases rephrased with
    | stmt becomes =>
      cases becomes with
      | block _ inside => exact ⟨_, _, .block _ line, .cons (.block inside) .nil, same⟩
    | call base => cases base
  | missing =>
    cases rephrased with
    | stmt becomes =>
      cases becomes
      exact ⟨_, _, .missing, .nil, same⟩
    | call base => cases base

/-- **Each visit that `Faults` does so with the same fault in both runs.** -/
theorem Faults.rephrased {stmt : Stmt} {fault : Fault}
    (faults : Faults limits store depth stmt fault)
    (same : store.SameBut (Stmt.Rephrases f.name index) hidden calls store')
    (only : ∀ g ∈ store.functions, g.name = f.name → g = f)
    (position : f.parameters[index]? = some parameter) (hide : hidden f parameter)
    (visible : Visible hidden calls stmt.ownNodes)
    (rephrased : (Frame.stmt stmt).Rephrased f.name index top') :
    ∃ stmt', top' = .stmt stmt' ∧ Faults limits store' depth stmt' fault := by
  cases faults with
  | count body line unknown =>
    have counted := (same.value_eq (visible.mono Stmt.count_subset_ownNodes)).trans unknown
    cases rephrased with
    | stmt becomes =>
      cases becomes
      exact ⟨_, rfl, .count _ line counted⟩
    | call base => cases base
  | negative body line evaluated negative =>
    have counted := (same.value_eq (visible.mono Stmt.count_subset_ownNodes)).trans evaluated
    cases rephrased with
    | stmt becomes =>
      cases becomes
      exact ⟨_, rfl, .negative _ line counted negative⟩
    | call base => cases base
  | value name line unknown =>
    have found := (same.value_eq (visible.mono (List.subset_cons_self _ _))).trans unknown
    cases rephrased with
    | stmt becomes =>
      cases becomes
      exact ⟨_, rfl, .value name line found⟩
    | call base => cases base
  | unresolved implicit line unresolved =>
    obtain ⟨arguments', rfl, alike⟩ := exists_callsAlike same only position hide rephrased
      (visible.mono (List.subset_cons_self _ _))
    exact ⟨_, rfl, .unresolved implicit line (alike.error unresolved)⟩
  | tooDeep implicit line resolved deep =>
    obtain ⟨arguments', rfl, alike⟩ := exists_callsAlike same only position hide rephrased
      (visible.mono (List.subset_cons_self _ _))
    obtain ⟨g', values', resolved', becomes, -⟩ := alike.ok resolved
    have faults := Faults.tooDeep implicit line resolved' deep
    rw [becomes.name] at faults
    exact ⟨_, rfl, faults⟩

end Visits

end Machine

end MazeRobot
