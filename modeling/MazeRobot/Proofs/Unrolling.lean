import MazeRobot.Proofs.Rewriting
import MazeRobot.Proofs.Simulations
import MazeRobot.Proofs.WellFormed

/-! # Loops that are written out

A loop with a number for its count does the same as its body written as often as the number says, at
the same place. While the loop runs, the machine with the loop has frames for it that the other
machine does not have; instead, the sequence in which the loop stands still has the statements of
all the rounds to go in front. The machine with the loop needs visits for its rounds and the other
one does not, so the other one keeps up.

* `Stmt.Unrolls`: a loop and its body written out.
* `Machine.Unrolled`: stacks of which the second one has some loops written out.
* `Machine.simulation_unrolls`: the machine without the loop keeps up.
* `Session.runs_unrolled`: sessions with a loop and with its body written out. -/

namespace MazeRobot

/-- A loop with a number for its count, and its body written as often as the number says. -/
inductive Stmt.Unrolls : Stmt → List Stmt → Prop
  /-- No statement of the body is a definition, so that none is known from the start. -/
  | intro (n : Nat) (countLine : Int) (body : List Stmt) (line : Int)
      (plain : ∀ stmt ∈ body, stmt.isDefinition = false) :
      Unrolls (.loop (.number n countLine) body line) (List.replicate n body).flatten

/-- A loop that `Unrolls` defines nothing by itself, and neither does what it unrolls to. -/
theorem Stmt.Unrolls.definition? {stmt : Stmt} {instead : List Stmt}
    (unrolls : stmt.Unrolls instead) :
    stmt.definition? = none ∧ ∀ other ∈ instead, other.definition? = none := by
  cases unrolls with
  | intro n countLine body line plain =>
    refine ⟨rfl, fun other member => ?_⟩
    obtain ⟨round, repeated, inside⟩ := List.mem_flatten.mp member
    rw [List.eq_of_mem_replicate repeated] at inside
    exact Option.not_isSome_iff_eq_none.mp (Bool.eq_false_iff.mp (plain other inside))

namespace Machine

/-! ## Stacks with loops written out -/

/-- Two frames that run sequences in the same way. -/
inductive Beside : Frame → List Stmt → Frame → List Stmt → Prop
  /-- Both are blocks. -/
  | block (rest rest' : List Stmt) : Beside (.block rest) rest (.block rest') rest'
  /-- Both are bodies of the same function. -/
  | body (rest rest' : List Stmt) (function : String) (back : Nat) :
      Beside (.body rest function back) rest (.body rest' function back) rest'

/-- Stacks of which the second one has some loops written out. Where such a loop is running, the
statements of its rounds to go stand in front of the sequence that it is part of. -/
inductive Unrolled : List Frame → List Frame → Prop
  /-- Nothing is left. -/
  | nil : Unrolled [] []
  /-- The rest of a sequence. -/
  | rest {top top' : Frame} {stmts stmts' : List Stmt} {below below' : List Frame}
      (beside : Beside top stmts top' stmts') (becomes : Stmt.BecomesAll Stmt.Unrolls stmts stmts')
      (on : Unrolled below below') : Unrolled (top :: below) (top' :: below')
  /-- A statement that is up next. -/
  | stmt {stmt stmt' : Stmt} {below below' : List Frame}
      (becomes : Stmt.Becomes Stmt.Unrolls stmt stmt') (on : Unrolled below below') :
      Unrolled (.stmt stmt :: below) (.stmt stmt' :: below')
  /-- The rounds of a loop that is not written out. -/
  | loop {body body' : List Stmt} {below below' : List Frame} (remaining : Nat) (line : Int)
      (becomes : Stmt.BecomesAll Stmt.Unrolls body body') (on : Unrolled below below') :
      Unrolled (.loop remaining body line :: below) (.loop remaining body' line :: below')
  /-- A loop that is written out is up next. -/
  | pending {top top' : Frame} {stmts stmts' : List Stmt} {below below' : List Frame} (n : Nat)
      (countLine : Int) (body : List Stmt) (line : Int)
      (beside : Beside top stmts top' ((List.replicate n body).flatten ++ stmts'))
      (becomes : Stmt.BecomesAll Stmt.Unrolls stmts stmts') (on : Unrolled below below') :
      Unrolled (.stmt (.loop (.number n countLine) body line) :: top :: below) (top' :: below')
  /-- A loop that is written out, between two rounds. -/
  | between {top top' : Frame} {stmts stmts' : List Stmt} {below below' : List Frame} (n : Nat)
      (body : List Stmt) (line : Int)
      (beside : Beside top stmts top' ((List.replicate n body).flatten ++ stmts'))
      (becomes : Stmt.BecomesAll Stmt.Unrolls stmts stmts') (on : Unrolled below below') :
      Unrolled (.loop n body line :: top :: below) (top' :: below')
  /-- A loop that is written out, within a round. -/
  | within {top top' : Frame} {stmts stmts' : List Stmt} {below below' : List Frame}
      (todo : List Stmt) (n : Nat) (body : List Stmt) (line : Int)
      (beside : Beside top stmts top' (todo ++ ((List.replicate n body).flatten ++ stmts')))
      (becomes : Stmt.BecomesAll Stmt.Unrolls stmts stmts') (on : Unrolled below below') :
      Unrolled (.block todo :: .loop n body line :: top :: below) (top' :: below')

/-- The second of two frames that stand `Beside` each other puts its next statement on top. -/
theorem Beside.next {top top' : Frame} {stmts stmts' : List Stmt} {stmt : Stmt}
    (beside : Beside top stmts top' (stmt :: stmts')) :
    ∃ next', Beside top stmts next' stmts' ∧ ∀ limits store depth,
      Moves limits store depth top' [.ofStmt stmt, next'] store depth := by
  cases beside with
  | block => exact ⟨_, .block stmts stmts', fun _ _ _ => .blockNext stmt stmts'⟩
  | body _ _ function back =>
    exact ⟨_, .body stmts stmts' function back, fun _ _ _ => .bodyNext stmt stmts' function back⟩

namespace Unrolled

variable {top top' : Frame} {stmts stmts' : List Stmt} {below below' : List Frame}

/-- A statement that `Becomes` another one goes on top of both stacks, which stay `Unrolled`. -/
theorem ofStmt {stmt stmt' : Stmt} (becomes : Stmt.Becomes Stmt.Unrolls stmt stmt')
    (on : Unrolled below below') :
    Unrolled (.ofStmt stmt :: below) (.ofStmt stmt' :: below') := by
  have frames : stmt = .missing ∧ stmt' = .missing ∨
      Frame.ofStmt stmt = .stmt stmt ∧ Frame.ofStmt stmt' = .stmt stmt' := by
    cases becomes with
    | missing => exact .inl ⟨rfl, rfl⟩
    | _ => exact .inr ⟨rfl, rfl⟩
  rcases frames with ⟨rfl, rfl⟩ | ⟨first, second⟩
  · exact .rest (.block [] []) .nil on
  · rw [first, second]
    exact .stmt becomes on

/-- A round of a loop that is written out begins, and the stacks stay `Unrolled`. -/
theorem round {n : Nat} {body : List Stmt} (line : Int)
    (beside : Beside top stmts top' ((List.replicate (n + 1) body).flatten ++ stmts'))
    (becomes : Stmt.BecomesAll Stmt.Unrolls stmts stmts') (on : Unrolled below below') :
    Unrolled (.block body :: .loop n body line :: top :: below) (top' :: below') := by
  rw [List.replicate_succ, List.flatten_cons, List.append_assoc] at beside
  exact .within body n body line beside becomes on

/-- The next statement of a sequence goes on top of the rest of it, and the stacks stay `Unrolled`.
The second machine waits for a loop that is written out. -/
theorem next {stmt : Stmt} {frame frame' : List Stmt → Frame}
    (beside : ∀ rest rest', Beside (frame rest) rest (frame' rest') rest')
    (becomes : Stmt.BecomesAll Stmt.Unrolls (stmt :: stmts) stmts') (on : Unrolled below below') :
    Unrolled (.ofStmt stmt :: frame stmts :: below) (frame' stmts' :: below') ∨
      ∃ stmt' rest', stmts' = stmt' :: rest' ∧
        Unrolled (.ofStmt stmt :: frame stmts :: below)
          (.ofStmt stmt' :: frame' rest' :: below') := by
  cases becomes with
  | kept first rest => exact .inr ⟨_, _, rfl, .ofStmt first (.rest (beside _ _) rest on)⟩
  | replaced base rest whole =>
    subst whole
    cases base with
    | intro n countLine body line plain =>
      exact .inl (.pending n countLine body line (beside _ _) rest on)

end Unrolled

/-! ## Visits -/

section Visits

variable {limits limits' : Limits} {store store' : Store} {depth depth' : Nat} {top : Frame}
  {below pushed frames : List Frame} {functions : List FunctionDef}

/-- What the machine without the loop does while the other one makes a visit: nothing, or a visit by
the same rule. -/
def MovesUnrolled (limits' : Limits) (store : Store) (functions : List FunctionDef) (depth : Nat)
    (frames : List Frame) (store' : Store) (depth' : Nat) (frames' : List Frame) : Prop :=
  (store' = store ∧ depth' = depth ∧ Unrolled frames' frames) ∨
    ∃ top below pushed functions', frames = top :: below ∧
      Moves limits' { store with functions } depth top pushed
        { store' with functions := functions' } depth' ∧
      Unrolled frames' (pushed ++ below) ∧
      List.Forall₂ (FunctionDef.Becomes Stmt.Unrolls) store'.functions functions'

/-- **The machine without the loop keeps up with a visit that `Moves` on.** -/
theorem Moves.unrolled (rule : Moves limits store depth top pushed store' depth')
    (unrolled : Unrolled (top :: below) frames)
    (known : List.Forall₂ (FunctionDef.Becomes Stmt.Unrolls) store.functions functions)
    (same : limits'.maxCallDepth = limits.maxCallDepth) :
    MovesUnrolled limits' store functions depth frames store' depth' (pushed ++ below) := by
  cases rule with
  | blockNext stmt stmts =>
    cases unrolled with
    | rest beside becomes on =>
      cases beside with
      | block _ rest =>
        rcases Unrolled.next Beside.block becomes on with still | ⟨stmt', rest', rfl, both⟩
        · exact .inl ⟨rfl, rfl, still⟩
        · exact .inr ⟨_, _, _, _, rfl, .blockNext stmt' rest', both, known⟩
    | within todo n body line beside becomes on =>
      obtain ⟨next', again, moves⟩ := beside.next
      refine .inr ⟨_, _, _, _, rfl, moves _ _ _, ?_, known⟩
      exact .ofStmt (.refl stmt) (.within stmts n body line again becomes on)
  | blockEnd =>
    cases unrolled with
    | rest beside becomes on =>
      cases beside with
      | block _ rest =>
        cases becomes
        exact .inr ⟨_, _, _, _, rfl, .blockEnd, on, known⟩
    | within todo n body line beside becomes on =>
      exact .inl ⟨rfl, rfl, .between n body line beside becomes on⟩
  | bodyNext stmt stmts function back =>
    cases unrolled with
    | rest beside becomes on =>
      cases beside with
      | body _ rest =>
        rcases Unrolled.next (fun rest rest' => Beside.body rest rest' function back) becomes on with
          still | ⟨stmt', rest', rfl, both⟩
        · exact .inl ⟨rfl, rfl, still⟩
        · exact .inr ⟨_, _, _, _, rfl, .bodyNext stmt' rest' function back, both, known⟩
  | bodyEnd function back =>
    cases unrolled with
    | rest beside becomes on =>
      cases beside with
      | body _ rest =>
        cases becomes
        exact .inr ⟨_, _, _, _, rfl, .bodyEnd function back, on, known⟩
  | round n body line =>
    cases unrolled with
    | rest beside becomes on => cases beside
    | loop _ _ becomes on =>
      refine .inr ⟨_, _, _, _, rfl, .round n _ line, ?_, known⟩
      exact .rest (.block _ _) becomes (.loop n line becomes on)
    | between _ _ _ beside becomes on => exact .inl ⟨rfl, rfl, .round line beside becomes on⟩
  | roundsEnd body line =>
    cases unrolled with
    | rest beside becomes on => cases beside
    | loop _ _ becomes on => exact .inr ⟨_, _, _, _, rfl, .roundsEnd _ line, on, known⟩
    | between _ _ _ beside becomes on => exact .inl ⟨rfl, rfl, .rest beside becomes on⟩
  | loopNone body line evaluated =>
    cases unrolled with
    | rest beside becomes on => cases beside
    | stmt becomes on =>
      cases becomes with
      | loop _ _ inside =>
        have evaluated' := (store.value_withFunctions functions _).trans evaluated
        exact .inr ⟨_, _, _, _, rfl, .loopNone _ line evaluated', on, known⟩
    | pending n countLine _ _ beside becomes on =>
      cases evaluated
      exact .inl ⟨rfl, rfl, .rest beside becomes on⟩
  | @loop count n body line evaluated =>
    cases unrolled with
    | rest beside becomes on => cases beside
    | stmt becomes on =>
      cases becomes with
      | loop _ _ inside =>
        have evaluated' := (store.value_withFunctions functions _).trans evaluated
        refine .inr ⟨_, _, _, _, rfl, .loop _ line evaluated', ?_, known⟩
        exact .rest (.block _ _) inside (.loop n line inside on)
    | pending m countLine _ _ beside becomes on =>
      cases evaluated
      exact .inl ⟨rfl, rfl, .round line beside becomes on⟩
  | branchNone body line =>
    cases unrolled with
    | rest beside becomes on => cases beside
    | stmt becomes on =>
      cases becomes
      exact .inr ⟨_, _, _, _, rfl, .branchNone _ line, on, known⟩
  | branchTaken body line holds =>
    cases unrolled with
    | rest beside becomes on => cases beside
    | stmt becomes on =>
      cases becomes with
      | branch _ _ inside =>
        refine .inr ⟨_, _, _, _, rfl, .branchTaken _ line holds, ?_, known⟩
        exact .rest (.block _ _) inside on
  | branchSkipped body line fails =>
    cases unrolled with
    | rest beside becomes on => cases beside
    | stmt becomes on =>
      cases becomes
      exact .inr ⟨_, _, _, _, rfl, .branchSkipped _ line fails, on, known⟩
  | assign name line evaluated =>
    cases unrolled with
    | rest beside becomes on => cases beside
    | stmt becomes on =>
      cases becomes
      have evaluated' := (store.value_withFunctions functions _).trans evaluated
      exact .inr ⟨_, _, _, _, rfl, .assign name line evaluated', on, known⟩
  | define name parameters body line =>
    cases unrolled with
    | rest beside becomes on => cases beside
    | stmt becomes on =>
      cases becomes with
      | define _ _ _ inside =>
        refine .inr ⟨_, _, _, _, rfl, .define name parameters _ line, on, ?_⟩
        exact FunctionDef.forall₂_insert ⟨rfl, rfl, inside⟩ known
  | call implicit line resolved shallow =>
    cases unrolled with
    | rest beside becomes on => cases beside
    | stmt becomes on =>
      cases becomes
      obtain ⟨⟨f', values'⟩, resolved', becomes, rfl⟩ :=
        (Store.agree_resolve_withFunctions known _ _ line).exists_ok resolved
      have entered : Moves limits' _ depth _ _ _ _ :=
        .call implicit line resolved' (same ▸ shallow)
      dsimp only at becomes entered
      rw [becomes.name, becomes.parameters] at entered
      exact .inr ⟨_, _, _, _, rfl, entered, .rest (.body _ _ _ _) becomes.body on, known⟩
  | block body line =>
    cases unrolled with
    | rest beside becomes on => cases beside
    | stmt becomes on =>
      cases becomes with
      | block _ inside =>
        exact .inr ⟨_, _, _, _, rfl, .block _ line, .rest (.block _ _) inside on, known⟩
  | missing =>
    cases unrolled with
    | rest beside becomes on => cases beside
    | stmt becomes on =>
      cases becomes
      exact .inr ⟨_, _, _, _, rfl, .missing, on, known⟩

/-- A statement that `Faults` does so in both machines, with the same fault. -/
theorem Faults.unrolled {stmt : Stmt} {fault : Fault}
    (faults : Faults limits store depth stmt fault)
    (unrolled : Unrolled (.stmt stmt :: below) frames)
    (known : List.Forall₂ (FunctionDef.Becomes Stmt.Unrolls) store.functions functions)
    (same : limits'.maxCallDepth = limits.maxCallDepth) :
    ∃ stmt' below', frames = .stmt stmt' :: below' ∧
      Faults limits' { store with functions } depth stmt' fault := by
  have value := fun expr => store.value_withFunctions functions expr
  have resolve := fun name arguments line =>
    Store.agree_resolve_withFunctions known name arguments line
  cases unrolled with
  | rest beside becomes on => cases beside
  | pending n countLine body line beside becomes on =>
    -- The count is a number, which is there and not negative.
    cases faults with
    | count _ _ unknown => cases unknown
    | negative _ _ evaluated negative =>
      cases evaluated
      omega
  | stmt becomes on =>
    cases faults with
    | count body line unknown =>
      cases becomes
      exact ⟨_, _, rfl, .count _ line ((value _).trans unknown)⟩
    | negative body line evaluated negative =>
      cases becomes
      exact ⟨_, _, rfl, .negative _ line ((value _).trans evaluated) negative⟩
    | value name line unknown =>
      cases becomes
      exact ⟨_, _, rfl, .value name line ((value _).trans unknown)⟩
    | unresolved implicit line unresolved =>
      cases becomes
      exact ⟨_, _, rfl, .unresolved implicit line ((resolve _ _ line).eq_error unresolved)⟩
    | tooDeep implicit line resolved deep =>
      cases becomes
      obtain ⟨⟨f', values'⟩, resolved', becomes, -⟩ := (resolve _ _ line).exists_ok resolved
      have faults : Faults limits' _ depth _ _ := .tooDeep implicit line resolved' (same ▸ deep)
      dsimp only at becomes faults
      rw [becomes.name, same] at faults
      exact ⟨_, _, rfl, faults⟩

end Visits

/-! ## Machines -/

/-- Machines of which the second one has some loops written out and no smaller budget. -/
structure Unrolls (m m' : Machine) : Prop where
  /-- The stacks. -/
  frames : Unrolled m.frames m'.frames
  /-- The functions that are known. -/
  known : List.Forall₂ (FunctionDef.Becomes Stmt.Unrolls) m.functions m'.functions
  /-- The robots and the scopes are the same. -/
  store : m'.store = { m.store with functions := m'.functions }
  /-- As many calls are active. -/
  depth : m'.callDepth = m.callDepth
  /-- As many calls may be active. -/
  maxCallDepth : m'.limits.maxCallDepth = m.limits.maxCallDepth
  /-- The budget. -/
  stepBudget : m.limits.stepBudget ≤ m'.limits.stepBudget

/-- Where the second machine stands, if the first one `Unrolls` to it. -/
theorem Unrolls.here {m m' : Machine} (unrolls : Unrolls m m') {frames : List Frame}
    (stack : m'.frames = frames) :
    m'.At frames { m.store with functions := m'.functions } m.callDepth m'.limits :=
  ⟨stack, unrolls.store, unrolls.depth, rfl⟩

/-- A machine `Unrolls` to another if they stand in places of which the second one has loops written
out. -/
theorem Unrolls.of_at {m m' : Machine} {frames frames' : List Frame} {store : Store}
    {functions : List FunctionDef} {depth : Nat} {limits limits' : Limits}
    (here : m.At frames store depth limits)
    (here' : m'.At frames' { store with functions } depth limits')
    (unrolled : Unrolled frames frames')
    (known : List.Forall₂ (FunctionDef.Becomes Stmt.Unrolls) store.functions functions)
    (maxCallDepth : limits'.maxCallDepth = limits.maxCallDepth)
    (stepBudget : limits.stepBudget ≤ limits'.stepBudget) : Unrolls m m' := by
  have old : m.functions = store.functions := congrArg Store.functions here.store
  have new : m'.functions = functions := congrArg Store.functions here'.store
  refine ⟨?_, ?_, ?_, here'.depth.trans here.depth.symm, ?_, ?_⟩
  · rw [here.frames, here'.frames]
    exact unrolled
  · rw [old, new]
    exact known
  · rw [here.store, here'.store, new]
  · rw [here.limits, here'.limits, maxCallDepth]
  · rw [here.limits, here'.limits]
    exact stepBudget

/-- The machine without the loop `KeepsUp` with a visit that goes on. -/
theorem Unrolls.keepsUp_moved {m m' next : Machine} {top : Frame} {below pushed : List Frame}
    {store : Store} {depth : Nat} (unrolls : Unrolls m m') (frames : m.frames = top :: below)
    (rule : Moves m.limits m.store m.callDepth top pushed store depth)
    (there : next.At (pushed ++ below) store depth m.limits) :
    KeepsUp Unrolls Eq m' (.moved next) := by
  have unrolled := unrolls.frames
  rw [frames] at unrolled
  rcases rule.unrolled unrolled unrolls.known unrolls.maxCallDepth with
    ⟨rfl, rfl, still⟩ | ⟨top', below', pushed', functions, stack, rule', both, known⟩
  · exact .inl (.of_at there (unrolls.here rfl) still unrolls.known unrolls.maxCallDepth
      unrolls.stepBudget)
  · obtain ⟨next', visit', there'⟩ := rule'.exists_visit (unrolls.here stack)
    exact .inr ⟨next', visit', .of_at there there' both known unrolls.maxCallDepth
      unrolls.stepBudget⟩

/-- The machine without the loop gives the same command, so it `KeepsUp`. -/
theorem Unrolls.keepsUp_command {m m' : Machine} {kind : Command} {line : Int}
    {below : List Frame} (unrolls : Unrolls m m')
    (frames : m.frames = .stmt (.command kind line) :: below) :
    KeepsUp Unrolls Eq m' (.command kind line { m with frames := below }) := by
  have unrolled := unrolls.frames
  rw [frames] at unrolled
  generalize stack : m'.frames = frames' at unrolled
  cases unrolled with
  | rest beside becomes on => cases beside
  | stmt becomes on =>
    cases becomes
    have robots : m'.robot = m.robot := congrArg Store.robot unrolls.store
    have scopes : m'.scopes = m.scopes := congrArg Store.scopes unrolls.store
    refine ⟨_, visit?_of_frames stack, on, unrolls.known, ?_, unrolls.depth, unrolls.maxCallDepth,
      unrolls.stepBudget⟩
    simp only [obey, Machine.store, robots, scopes]

/-- **The machine without the loop keeps up with the one that has it**: `Unrolls` is a
`Simulation`. -/
theorem simulation_unrolls : Simulation Unrolls Eq where
  refl _ := rfl
  robot unrolls := congrArg Store.robot unrolls.store
  budget unrolls := unrolls.stepBudget
  ended := by
    intro m m' unrolls none
    have frames := unrolls.frames
    rw [none] at frames
    generalize m'.frames = left at frames ⊢
    cases frames
    rfl
  visit := by
    intro m m' v unrolls running visit
    obtain ⟨top, below, frames, rule⟩ := visit?_cases visit
    cases v with
    | moved next =>
      obtain ⟨pushed, store, depth, rule, there⟩ := rule
      exact unrolls.keepsUp_moved frames rule there
    | command kind line next =>
      obtain ⟨rfl, rfl⟩ := rule
      exact unrolls.keepsUp_command frames
    | failed fault next =>
      obtain ⟨stmt, rfl, faults, rfl⟩ := rule
      obtain ⟨stmt', below', stack, faults'⟩ :=
        faults.unrolled (frames ▸ unrolls.frames) unrolls.known unrolls.maxCallDepth
      have visit' := faults'.exists_visit (unrolls.here stack)
      exact ⟨fault, _, visit', congrArg Store.robot unrolls.store, rfl⟩

end Machine

/-! ## Sessions -/

namespace Session

/-- A session without a loop `Follows` the one that has it, with at least as much budget. -/
theorem follows_unrolled {program program' : Program}
    (becomes : Stmt.BecomesAll Stmt.Unrolls program.body program'.body) (level : Level)
    {limits limits' : Limits} (maxCallDepth : limits'.maxCallDepth = limits.maxCallDepth)
    (stepBudget : limits.stepBudget ≤ limits'.stepBudget) (tracing tracing' : Bool) :
    (ofProgram program level limits tracing).Follows Machine.Unrolls Eq
      (ofProgram program' level limits' tracing') := by
  refine ⟨rfl, .refl (fun _ => rfl) _, fun _ => ?_⟩
  have definitions := FunctionDef.forall₂_definitions Stmt.Unrolls.definition? becomes
  have known := FunctionDef.forall₂_foldl_insert definitions .nil
  exact ⟨.rest (.block _ _) becomes .nil, known, rfl, rfl, maxCallDepth, stepBudget⟩

/-- A session with a greater budget `Follows` the one with a smaller one. -/
theorem follows_withBudget (program : Program) (level : Level) (limits : Limits) {budget : Nat}
    (more : limits.stepBudget ≤ budget) (tracing : Bool) :
    (ofProgram program level limits tracing).Follows
      (fun m m' => m.limits.stepBudget ≤ budget ∧ m' = m.withBudget budget) Eq
      (ofProgram program level { limits with stepBudget := budget } tracing) :=
  ⟨rfl, .refl (fun _ => rfl) _, fun _ => ⟨more, rfl⟩⟩

/-- **Programs of which one `BecomesAll` the other by writing out loops run alike.** -/
theorem runs_alike_of_becomesAll {program program' : Program}
    (becomes : Stmt.BecomesAll Stmt.Unrolls program.body program'.body) (level : Level)
    {limits limits' : Limits} (maxCallDepth : limits'.maxCallDepth = limits.maxCallDepth)
    {tracing tracing' : Bool} (affordable : (ofProgram program level limits tracing).Affordable)
    (affordable' : (ofProgram program' level limits' tracing').Affordable) (k : Nat) :
    let session := ofProgram program level limits tracing
    let session' := ofProgram program' level limits' tracing'
    session'.reports k = session.reports k ∧
      (session'.stepped k).robot = (session.stepped k).robot ∧
      ((session.stepped k).outcome = .outOfProgram →
        (session'.stepped k).machine.scopes = (session.stepped k).machine.scopes) := by
  intro session session'
  -- Both sessions are followed by a third one, which has the greater of the two budgets.
  let budget := max limits.stepBudget limits'.stepBudget
  let third := ofProgram program' level { limits' with stepBudget := budget } tracing'
  have raised : ({ limits' with stepBudget := budget } : Limits).maxCallDepth =
      limits.maxCallDepth := maxCallDepth
  have follows : session.Follows Machine.Unrolls Eq third :=
    follows_unrolled becomes level raised (Nat.le_max_left _ _) tracing tracing'
  have follows' : session'.Follows _ Eq third :=
    follows_withBudget program' level limits' (Nat.le_max_right _ _) tracing'
  have simulation := Machine.simulation_unrolls
  have simulation' := Machine.simulation_withBudget budget
  have stands := follows.stepped simulation affordable k
  have stands' := follows'.stepped simulation' affordable' k
  refine ⟨?_, stands'.robots.eq.symm.trans stands.robots.eq, fun out => ?_⟩
  · exact (follows'.reports_eq simulation' affordable' k).symm.trans
      (follows.reports_eq simulation affordable k)
  · have out' : (session'.stepped k).outcome = .outOfProgram := by
      rw [← out, ← stands.outcome, ← stands'.outcome]
    have last := follows.related_of_outOfProgram simulation affordable rfl out
    obtain ⟨-, last'⟩ := follows'.related_of_outOfProgram simulation' affordable' rfl out'
    calc (session'.stepped k).machine.scopes = (third.stepped k).machine.scopes := by rw [last']; rfl
      _ = (session.stepped k).machine.scopes := congrArg Store.scopes last.store

/-- **A loop may be written out.** Every loop of a program stands at some `Site`. If its count is a
number and no statement of its body is a definition, its body may be written as often as the number
says at that site. With as many calls allowed, and as long as both programs are `Affordable`, that
is no step fails for lack of budget, both programs are reported alike at every level, with the same
commands, lines and failures, and the robot is the same after each step; where the program runs out,
so are all variables. -/
theorem runs_unrolled (program : Program) (n : Nat) (countLine : Int) (body : List Stmt)
    (line : Int) (plain : ∀ stmt ∈ body, stmt.isDefinition = false) :
    (Node.stmt (.loop (.number n countLine) body line) ∈ program.nodes →
      ∃ site : Site, program.body = site.fill [.loop (.number n countLine) body line]) ∧
    ∀ site : Site, program.body = site.fill [.loop (.number n countLine) body line] →
      ∀ (level : Level) (limits limits' : Limits) (tracing tracing' : Bool),
        limits'.maxCallDepth = limits.maxCallDepth →
        let session := ofProgram program level limits tracing
        let session' := ofProgram
          { program with body := site.fill (List.replicate n body).flatten } level limits' tracing'
        session.Affordable → session'.Affordable →
          ∀ k, session'.reports k = session.reports k ∧
            (session'.stepped k).robot = (session.stepped k).robot ∧
            ((session.stepped k).outcome = .outOfProgram →
              (session'.stepped k).machine.scopes = (session.stepped k).machine.scopes) := by
  constructor
  · exact fun member => Program.exists_site member nofun
  · intro site place level limits limits' tracing tracing' maxCallDepth session session'
      affordable affordable' k
    refine runs_alike_of_becomesAll ?_ level maxCallDepth affordable affordable' k
    rw [place]
    exact site.becomesAll_fill (.intro n countLine body line plain)

/-- A source with a loop inside a conditional of a function. -/
def spinSource : List UInt8 := Text.utf8
  ("(function spin () (if (not (sensor front)) (repeat 2 (turn left) (set n (distance-to-end)))))\n" ++
    "(spin)\n(set m 7)")

/-- The source with the loop written out. -/
def spinTwiceSource : List UInt8 := Text.utf8
  ("(function spin () (if (not (sensor front)) " ++
    "(turn left) (set n (distance-to-end)) (turn left) (set n (distance-to-end))))\n(spin)\n(set m 7)")

/-- The place of the loop. -/
def spinSite : Site :=
  .inside [] (.define "spin" [] 1)
    (.inside [] (.branch (some ⟨.sensor, true, .front, 1⟩) 1) (.here [] []) [])
    [.call "spin" [] true 2, .assign "m" (.number 7 3) 3]

/-- The body of the loop. -/
def spinBody : List Stmt := [.command .turnLeft 1, .assign "n" (.distance 1) 1]

/-- The program of that source. -/
def spinProgram : Program := ⟨spinSite.fill [.loop (.number 2 1) spinBody 1], 1⟩

/-- The program with the loop written out. -/
def spinTwiceProgram : Program := ⟨spinSite.fill (List.replicate 2 spinBody).flatten, 1⟩

/-- `spinProgram` takes ten visits for its first step, and the program with its loop written out
takes eight. -/
theorem runs_unrolled_spin :
    let session := ofProgram spinProgram corridor ⟨1, 10⟩ false
    let session' := ofProgram spinTwiceProgram corridor ⟨1, 8⟩ false
    Program.parse spinSource = .ok spinProgram ∧
      Program.parse spinTwiceSource = .ok spinTwiceProgram ∧
      session.Affordable ∧ session'.Affordable ∧
      (session.stepped 3).outcome = .outOfProgram ∧
      (session.stepped 3).machine.scopes.globals = ⟨[("m", 7)]⟩ ∧
      ∀ k, session'.reports k = session.reports k ∧
        (session'.stepped k).robot = (session.stepped k).robot ∧
        ((session.stepped k).outcome = .outOfProgram →
          (session'.stepped k).machine.scopes = (session.stepped k).machine.scopes) := by
  intro session session'
  have affordable : session.Affordable :=
    affordable_of_terminal (n := 3) (by decide +kernel) (by decide +kernel)
  have affordable' : session'.Affordable :=
    affordable_of_terminal (n := 3) (by decide +kernel) (by decide +kernel)
  refine ⟨eq_ok_of_toOption (by decide +kernel), eq_ok_of_toOption (by decide +kernel), affordable,
    affordable', by decide +kernel, by decide +kernel, ?_⟩
  have runs := (runs_unrolled spinProgram 2 1 spinBody 1 (by decide)).2 spinSite rfl corridor ⟨1, 10⟩
    ⟨1, 8⟩ false false rfl
  exact runs affordable affordable'

end Session

end MazeRobot
