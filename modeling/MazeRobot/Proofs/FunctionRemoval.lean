import MazeRobot.Proofs.Parts

/-! # Programs without a function

A function is taken out of a program by leaving out all its definitions, also those inside loops,
conditionals and other definitions. A machine of the shorter program knows one function less and
does not come to the definitions. As long as the function is not called, every rule of visits still
holds for what is left of the innermost frame, or nothing is left to do. Only the hint about an
unknown function may name another candidate.

* `Stmt.without`, `Program.without`: statements and programs without a function.
* `Frame.without?`, `Store.without`: what is left of frames and of what is known.
* `Text.SameButHint`: texts that differ in a hint.
* `Machine.Moves.without`, `Machine.Faults.without`: the rules of visits without a function. -/

namespace MazeRobot

/-! ## Programs without a function -/

namespace Stmt

/-- Whether a statement defines the function with the given name. -/
def defines (name : String) (stmt : Stmt) : Bool := stmt.definition?.any (·.name = name)

mutual

/-- A statement without the definitions of a function that stand inside it. -/
def without (name : String) : Stmt → Stmt
  | block body line => block (withoutAll name body) line
  | command kind line => command kind line
  | loop count body line => loop count (withoutAll name body) line
  | branch condition body line => branch condition (withoutAll name body) line
  | assign target value line => assign target value line
  | define other parameters body line => define other parameters (withoutAll name body) line
  | call other arguments implicit line => call other arguments implicit line
  | missing => missing

/-- Statements without the definitions of a function, wherever they stand. -/
def withoutAll (name : String) : List Stmt → List Stmt
  | [] => []
  | stmt :: stmts =>
    if stmt.defines name then withoutAll name stmts
    else without name stmt :: withoutAll name stmts

end

variable {name : String}

/-- A statement `defines` a function exactly if it is a definition with its name. -/
theorem defines_eq_true_iff {stmt : Stmt} :
    stmt.defines name = true ↔ ∃ f, stmt.definition? = some f ∧ f.name = name := by
  simp [defines, Option.any_eq_true]

mutual

/-- `without` keeps no definition of the function inside a statement. -/
theorem name_ne_of_mem_nodes_without {g : FunctionDef} (stmt : Stmt)
    (other : stmt.defines name = false) (member : Node.stmt g.toStmt ∈ (stmt.without name).nodes) :
    g.name ≠ name := by
  cases stmt with
  | block body line =>
    simp only [without, nodes_block, FunctionDef.toStmt, List.mem_cons, Node.stmt.injEq,
      reduceCtorEq, false_or] at member
    exact name_ne_of_mem_nodesAll_withoutAll body member
  | command kind line => simp [without, FunctionDef.toStmt] at member
  | loop count body line =>
    simp only [without, nodes_loop, FunctionDef.toStmt, List.mem_cons, Node.stmt.injEq,
      reduceCtorEq, false_or, List.mem_append, stmt_notMem_walk] at member
    exact name_ne_of_mem_nodesAll_withoutAll body member
  | branch condition body line =>
    simp only [without, nodes_branch, FunctionDef.toStmt, List.mem_cons, Node.stmt.injEq,
      reduceCtorEq, false_or, List.mem_append, List.mem_map, and_false, exists_false] at member
    exact name_ne_of_mem_nodesAll_withoutAll body member
  | assign target value line =>
    simp [without, FunctionDef.toStmt, stmt_notMem_walk] at member
  | define own parameters body line =>
    rw [without, nodes_define] at member
    rcases List.mem_cons.mp member with here | inside
    · have same : g.name = own := by
        simp only [FunctionDef.toStmt, Node.stmt.injEq, define.injEq] at here
        exact here.1
      rw [same]
      simpa [defines, definition?] using other
    · exact name_ne_of_mem_nodesAll_withoutAll body inside
  | call callee arguments implicit line =>
    simp [without, FunctionDef.toStmt, stmt_notMem_walk] at member
  | missing => simp [without] at member

/-- `withoutAll` keeps no definition of the function. -/
theorem name_ne_of_mem_nodesAll_withoutAll {g : FunctionDef} (stmts : List Stmt)
    (member : Node.stmt g.toStmt ∈ nodesAll (withoutAll name stmts)) : g.name ≠ name := by
  cases stmts with
  | nil => simp [withoutAll] at member
  | cons stmt stmts =>
    rw [withoutAll] at member
    cases other : stmt.defines name with
    | true =>
      rw [if_pos other] at member
      exact name_ne_of_mem_nodesAll_withoutAll stmts member
    | false =>
      rw [if_neg (by simp [other]), nodesAll_cons] at member
      rcases List.mem_append.mp member with here | later
      · exact name_ne_of_mem_nodes_without stmt other here
      · exact name_ne_of_mem_nodesAll_withoutAll stmts later

end

end Stmt

/-- A program without the definitions of a function, wherever they stand. -/
def Program.without (name : String) (program : Program) : Program :=
  { program with body := Stmt.withoutAll name program.body }

/-- A definition without the definitions of a function inside it. -/
def FunctionDef.without (name : String) (f : FunctionDef) : FunctionDef :=
  { f with body := Stmt.withoutAll name f.body }

/-- `Stmt.without` of a definition defines `FunctionDef.without` of its function. -/
theorem Stmt.definition?_without (name : String) (stmt : Stmt) :
    (stmt.without name).definition? = stmt.definition?.map (FunctionDef.without name) := by
  cases stmt <;> simp [without, definition?, FunctionDef.without]

/-- Known functions without one of them. -/
def FunctionDef.withoutAll (name : String) (functions : List FunctionDef) : List FunctionDef :=
  (functions.filter (·.name ≠ name)).map (without name)

/-- A store that does not know a function. -/
def Store.without (name : String) (store : Store) : Store :=
  { store with functions := FunctionDef.withoutAll name store.functions }

/-- A frame without the definitions of a function. Where nothing is left to run the frame is left
out. -/
def Frame.without? (name : String) : Frame → Option Frame
  | block rest => some (block (Stmt.withoutAll name rest))
  | body rest function depth => some (body (Stmt.withoutAll name rest) function depth)
  | stmt next => if next.defines name then none else some (stmt (next.without name))
  | loop remaining again line => some (loop remaining (Stmt.withoutAll name again) line)

/-- `Program.without` a function does not define it. -/
theorem Program.name_ne_of_mem_definitions_without {program : Program} {name : String}
    {f : FunctionDef} (member : f ∈ Node.definitions (program.without name).nodes) :
    f.name ≠ name := by
  rw [Node.mem_definitions, nodes_eq] at member
  have inside := (List.mem_cons.mp member).resolve_left (by simp [toStmt, FunctionDef.toStmt])
  exact Stmt.name_ne_of_mem_nodesAll_withoutAll program.body inside

/-! ## Known functions -/

namespace FunctionDef

variable {name : String} {f : FunctionDef}

/-- `withoutAll` is not changed by a definition of the function itself. -/
theorem withoutAll_insert_self (own : f.name = name) (functions : List FunctionDef) :
    withoutAll name (f.insert functions) = withoutAll name functions := by
  simp [withoutAll, FunctionDef.insert, own, List.filter_filter]

/-- `withoutAll` takes any other definition in the place of those of its own name. -/
theorem withoutAll_insert_of_ne (other : f.name ≠ name) (functions : List FunctionDef) :
    withoutAll name (f.insert functions) = (f.without name).insert (withoutAll name functions) := by
  have kept : ((f.without name).insert (withoutAll name functions)) =
      f.without name :: ((functions.filter (·.name ≠ name)).filter (·.name ≠ f.name)).map
        (without name) := by
    rw [FunctionDef.insert, withoutAll, List.filter_map]
    rfl
  rw [kept, withoutAll, FunctionDef.insert, List.filter_cons_of_pos (by simpa using other),
    List.map_cons, List.filter_comm]

/-- The definitions that statements `withoutAll` of a function make, one after the other. -/
theorem foldl_insert_withoutAll (name : String) (stmts : List Stmt) (known : List FunctionDef) :
    ((Stmt.withoutAll name stmts).filterMap Stmt.definition?).foldl (fun fs f => f.insert fs)
        (withoutAll name known) =
      withoutAll name
        ((stmts.filterMap Stmt.definition?).foldl (fun fs f => f.insert fs) known) := by
  induction stmts generalizing known with
  | nil => rfl
  | cons stmt stmts ih =>
    rw [Stmt.withoutAll]
    cases defined : stmt.definition? with
    | none =>
      have other : stmt.defines name = false := by simp [Stmt.defines, defined]
      rw [if_neg (by simp [other]), List.filterMap_cons, Stmt.definition?_without, defined,
        List.filterMap_cons, defined]
      exact ih known
    | some f =>
      -- What is known afterwards is the start of the induction for the statements that follow.
      rw [List.filterMap_cons (f := Stmt.definition?) (a := stmt), defined, List.foldl_cons, ← ih]
      by_cases own : f.name = name
      · have defines : stmt.defines name = true :=
          Stmt.defines_eq_true_iff.mpr ⟨f, defined, own⟩
        rw [if_pos defines, withoutAll_insert_self own]
      · have other : stmt.defines name = false := by simp [Stmt.defines, defined, own]
        rw [if_neg (by simp [other]), List.filterMap_cons, Stmt.definition?_without, defined,
          withoutAll_insert_of_ne own]
        rfl

/-- `withoutAll` finds any other function by its name. -/
theorem find?_withoutAll {other : String} (ne : other ≠ name) (functions : List FunctionDef) :
    (withoutAll name functions).find? (·.name = other) =
      (functions.find? (·.name = other)).map (without name) := by
  have same : (functions.filter (·.name ≠ name)).find? (·.name = other) =
      functions.find? (·.name = other) := by
    rw [List.find?_filter]
    congr 1
    funext f
    by_cases named : f.name = other
    · simp [named, ne]
    · simp [named]
  rw [withoutAll, List.find?_map, ← same]
  rfl

end FunctionDef

/-! ## Texts that differ in a hint -/

namespace Text

/-- What may stand behind a message: nothing, or the name of a candidate. -/
def IsSuggestion (hint : String) : Prop :=
  hint = "" ∨ ∃ name : String, hint = s!" (did you mean '{name}'?)"

/-- Texts that differ at most in the hint behind them. -/
def SameButHint (text text' : String) : Prop :=
  ∃ message hint hint', IsSuggestion hint ∧ IsSuggestion hint' ∧
    text = message ++ hint ∧ text' = message ++ hint'

/-- `SameButHint` is reflexive. -/
theorem SameButHint.refl (text : String) : SameButHint text text :=
  ⟨text, "", "", Or.inl rfl, Or.inl rfl, by simp, by simp⟩

/-- `suggestion?` names a candidate, if there is one, and says nothing else. -/
theorem suggestion?_cases (target : String) (candidates : List String) :
    suggestion? target candidates = none ∨
      ∃ best : String, suggestion? target candidates = some s!"did you mean '{best}'?" := by
  rw [suggestion?]
  cases closest? target candidates with
  | none => exact .inl rfl
  | some best =>
    dsimp only
    by_cases empty : best.isEmpty
    · exact .inl (if_pos empty)
    · exact .inr ⟨best, if_neg empty⟩

end Text

/-- The `detail` of an unknown function is its message and a hint, which depends on what is
known. -/
theorem Fault.exists_detail_unknownFunction (name : String) (known : List String) (line : Int) :
    ∃ hint, Text.IsSuggestion hint ∧
      (Fault.mk (.unknownFunction name known) line 0).detail =
        (Fault.mk (.unknownFunction name known) line 0).text ++ hint := by
  have told (hint? : Option String) (same : Text.suggestion? name known = hint?) :
      (Fault.mk (.unknownFunction name known) line 0).notice.hint? = hint? := same
  rcases Text.suggestion?_cases name known with none | ⟨best, some⟩
  · refine ⟨"", .inl rfl, ?_⟩
    rw [detail, Notice.detail, told _ none, String.append_empty]
    rfl
  · refine ⟨s!" (did you mean '{best}'?)", .inr ⟨best, rfl⟩, ?_⟩
    rw [detail, Notice.detail, told _ some]
    apply String.toList_injective
    simp [toString, text]

/-- Unknown functions of one name on one line have the same `detail` but for the hint, whatever is
known. -/
theorem Fault.sameButHint_unknownFunction (name : String) (known known' : List String)
    (line : Int) :
    Text.SameButHint (Fault.mk (.unknownFunction name known) line 0).detail
      (Fault.mk (.unknownFunction name known') line 0).detail := by
  obtain ⟨hint, suggests, told⟩ := exists_detail_unknownFunction name known line
  obtain ⟨hint', suggests', told'⟩ := exists_detail_unknownFunction name known' line
  exact ⟨_, hint, hint', suggests, suggests', told, told'⟩

/-! ## Rules of visits without a function -/

namespace Store

variable {name other : String} {store : Store} {arguments : List Expr} {line : Int}

/-- `value` does not depend on what is known. -/
theorem value_without (store : Store) (expr : Expr) :
    (store.without name).value expr = store.value expr :=
  store.value_withFunctions _ expr

/-- `values` does not depend on what is known. -/
theorem values_without (store : Store) (exprs : List Expr) :
    (store.without name).values exprs = store.values exprs :=
  store.values_withFunctions _ exprs

/-- `resolve` of a call of another function leads to what is left of it. -/
theorem resolve_without (ne : other ≠ name) {f : FunctionDef} {values : List Int}
    (resolved : store.resolve other arguments line = .ok (f, values)) :
    (store.without name).resolve other arguments line = .ok (f.without name, values) := by
  obtain ⟨found, evaluated⟩ := resolve_eq_ok_cases resolved
  have left : (store.without name).functions.find? (·.name = other) = some (f.without name) := by
    rw [without, FunctionDef.find?_withoutAll ne, found]
    rfl
  have counted : values.length = (f.without name).parameters.length := by
    rw [resolve, found, evaluated] at resolved
    by_contra miscounted
    cases (if_neg miscounted).symm.trans resolved
  rw [resolve, left, values_without, evaluated]
  exact if_pos counted

/-- `resolve` of a call of another function that leads nowhere still fails, and is told alike. -/
theorem exists_resolve_without (ne : other ≠ name) {fault : Fault}
    (unresolved : store.resolve other arguments line = .error fault) :
    ∃ fault', (store.without name).resolve other arguments line = .error fault' ∧
      Text.SameButHint fault.detail fault'.detail := by
  have left := FunctionDef.find?_withoutAll ne store.functions
  cases found : store.functions.find? (·.name = other) with
  | none =>
    -- The name is unknown to both, but the candidates for a hint differ.
    rw [found] at left
    rw [resolve, found] at unresolved
    cases unresolved
    have unknown : (store.without name).resolve other arguments line =
        .error ⟨.unknownFunction other ((store.without name).functions.map (·.name)), line, 0⟩ := by
      rw [resolve, without, left]
      rfl
    exact ⟨_, unknown, Fault.sameButHint_unknownFunction other _ _ line⟩
  | some f =>
    rw [found] at left
    refine ⟨fault, ?_, .refl _⟩
    rw [resolve, found] at unresolved
    rw [resolve, values_without, without, left]
    cases evaluated : store.values arguments with
    | error other =>
      rw [evaluated] at unresolved
      exact unresolved
    | ok values =>
      rw [evaluated] at unresolved
      dsimp only at unresolved
      by_cases counted : values.length = f.parameters.length
      · rw [if_pos counted] at unresolved
        cases unresolved
      · rw [if_neg counted] at unresolved
        cases unresolved
        exact if_neg counted

end Store

/-- `without?` of a stack is that of its innermost frame, and of the others. -/
theorem Frame.filterMap_without?_cons (name : String) (top : Frame) (below : List Frame) :
    (top :: below).filterMap (without? name) =
      (top.without? name).toList ++ below.filterMap (without? name) := by
  rw [List.filterMap_cons]
  cases top.without? name <;> rfl

/-- `Frame.without?` leaves out a statement that comes up where it `defines` the function. -/
theorem Frame.filterMap_ofStmt_cons (name : String) (stmt : Stmt) (frames : List Frame) :
    (ofStmt stmt :: frames).filterMap (without? name) =
      if stmt.defines name then frames.filterMap (without? name)
      else ofStmt (stmt.without name) :: frames.filterMap (without? name) := by
  have here : (ofStmt stmt).without? name =
      if stmt.defines name then none else some (ofStmt (stmt.without name)) := by
    cases stmt <;> rfl
  rw [filterMap_without?_cons, here]
  cases stmt.defines name <;> rfl

namespace Machine

variable {name : String} {limits : Limits} {store store' : Store} {depth depth' : Nat}
  {top : Frame} {pushed : List Frame}

/-- What becomes of a rule without a function: nothing happens, or there is a rule for what is
left. -/
def MovesWithout (name : String) (limits : Limits) (store : Store) (depth : Nat) (top : Frame)
    (pushed : List Frame) (store' : Store) (depth' : Nat) : Prop :=
  (pushed.filterMap (Frame.without? name) = (top.without? name).toList ∧
    store'.without name = store.without name ∧ depth' = depth) ∨
  ∃ top', top.without? name = some top' ∧
    Moves limits (store.without name) depth top' (pushed.filterMap (Frame.without? name))
      (store'.without name) depth'

/-- The next statement of a sequence comes up, unless it is left out: `MovesWithout` holds. -/
theorem movesWithout_next (frame : List Stmt → Frame) (stmt : Stmt) (stmts : List Stmt)
    (left : ∀ stmts, (frame stmts).without? name = some (frame (Stmt.withoutAll name stmts)))
    (next : ∀ stmt stmts, Moves limits (store.without name) depth (frame (stmt :: stmts))
      [.ofStmt stmt, frame stmts] (store.without name) depth) :
    MovesWithout name limits store depth (frame (stmt :: stmts)) [.ofStmt stmt, frame stmts] store
      depth := by
  have rest : [frame stmts].filterMap (Frame.without? name) =
      [frame (Stmt.withoutAll name stmts)] := by
    simp [left]
  cases own : stmt.defines name with
  | true =>
    refine .inl ⟨?_, rfl, rfl⟩
    rw [Frame.filterMap_ofStmt_cons, if_pos own, rest, left, Stmt.withoutAll, if_pos own]
    rfl
  | false =>
    have other : ¬ stmt.defines name = true := by simp [own]
    refine .inr ⟨frame (stmt.without name :: Stmt.withoutAll name stmts), ?_, ?_⟩
    · rw [left, Stmt.withoutAll, if_neg other]
    · rw [Frame.filterMap_ofStmt_cons, if_neg other, rest]
      exact next _ _

/-- **A rule by which a visit `Moves` on is the same rule without a function, or nothing happens.**
Nothing happens where a definition of the function comes up or is run. -/
theorem Moves.without (rule : Moves limits store depth top pushed store' depth')
    (uncalled : ∀ arguments implicit line, top ≠ .stmt (.call name arguments implicit line)) :
    MovesWithout name limits store depth top pushed store' depth' := by
  cases rule with
  | blockNext stmt stmts => exact movesWithout_next .block stmt stmts (fun _ => rfl) .blockNext
  | blockEnd => exact .inr ⟨_, rfl, .blockEnd⟩
  | bodyNext stmt stmts function back =>
    exact movesWithout_next (.body · function back) stmt stmts (fun _ => rfl)
      fun _ _ => .bodyNext _ _ function back
  | bodyEnd function back => exact .inr ⟨_, rfl, .bodyEnd function back⟩
  | round n body line => exact .inr ⟨_, rfl, .round n _ line⟩
  | roundsEnd body line => exact .inr ⟨_, rfl, .roundsEnd _ line⟩
  | loopNone body line evaluated =>
    exact .inr ⟨_, rfl, .loopNone _ line ((store.value_without _).trans evaluated)⟩
  | loop body line evaluated =>
    exact .inr ⟨_, rfl, .loop _ line ((store.value_without _).trans evaluated)⟩
  | branchNone body line => exact .inr ⟨_, rfl, .branchNone _ line⟩
  | branchTaken body line holds => exact .inr ⟨_, rfl, .branchTaken _ line holds⟩
  | branchSkipped body line fails => exact .inr ⟨_, rfl, .branchSkipped _ line fails⟩
  | assign target line evaluated =>
    exact .inr ⟨_, rfl, .assign target line ((store.value_without _).trans evaluated)⟩
  | define other parameters body line =>
    by_cases own : other = name
    · -- The definition is run by one machine only, and only that one gets to know the function.
      refine .inl ⟨?_, ?_, rfl⟩
      · simp [Frame.without?, Stmt.defines, Stmt.definition?, own]
      · simp only [Store.without]
        rw [FunctionDef.withoutAll_insert_self own]
    · refine .inr ⟨.stmt (.define other parameters (Stmt.withoutAll name body) line), ?_, ?_⟩
      · simp [Frame.without?, Stmt.defines, Stmt.definition?, own, Stmt.without]
      · simp only [Store.without]
        rw [FunctionDef.withoutAll_insert_of_ne own]
        exact .define other parameters _ line
  | @call other arguments f values implicit line resolved shallow =>
    have ne : other ≠ name := by
      rintro rfl
      exact uncalled arguments implicit line rfl
    exact .inr ⟨_, rfl, .call implicit line (Store.resolve_without ne resolved) shallow⟩
  | block body line => exact .inr ⟨_, rfl, .block _ line⟩
  | missing => exact .inr ⟨_, rfl, .missing⟩

/-- A statement that `Faults` still does without a function that it does not call, and is told
alike. -/
theorem Faults.without {stmt : Stmt} {fault : Fault} (faults : Faults limits store depth stmt fault)
    (uncalled : ∀ arguments implicit line, stmt ≠ .call name arguments implicit line) :
    (Frame.stmt stmt).without? name = some (.stmt (stmt.without name)) ∧
      ∃ fault', Faults limits (store.without name) depth (stmt.without name) fault' ∧
        Text.SameButHint fault.detail fault'.detail := by
  cases faults with
  | count body line unknown =>
    exact ⟨rfl, fault, .count _ line ((store.value_without _).trans unknown), .refl _⟩
  | negative body line evaluated negative =>
    exact ⟨rfl, _, .negative _ line ((store.value_without _).trans evaluated) negative, .refl _⟩
  | value target line unknown =>
    exact ⟨rfl, fault, .value target line ((store.value_without _).trans unknown), .refl _⟩
  | @unresolved other arguments _ implicit line unresolved =>
    have ne : other ≠ name := by
      rintro rfl
      exact uncalled arguments implicit line rfl
    obtain ⟨fault', unresolved', alike⟩ := Store.exists_resolve_without ne unresolved
    exact ⟨rfl, fault', .unresolved implicit line unresolved', alike⟩
  | @tooDeep other arguments f values implicit line resolved deep =>
    have ne : other ≠ name := by
      rintro rfl
      exact uncalled arguments implicit line rfl
    exact ⟨rfl, _, .tooDeep implicit line (Store.resolve_without ne resolved) deep, .refl _⟩

end Machine

end MazeRobot
