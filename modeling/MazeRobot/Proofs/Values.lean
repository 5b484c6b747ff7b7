import MazeRobot.Proofs.Parts

/-! # Where values come from

There is no arithmetic in programs: a value is a number that is written in the program or a distance
in the maze, and from there on it is only passed along, by assignments and by arguments of calls. So
whatever holds of the written numbers and of all distances that the robot can come to see holds of
every value of every variable.

* `Scope.All`, `Scopes.All`: scopes whose values all have a property.
* `Program.Literals`: programs whose written numbers all have it.
* `Store.good_of_value`: a value has it where the scopes, the distance and the numbers do.
* `Machine.Sourced`, `Machine.Sourced.moves`: the invariant of a run, and that every rule keeps it.
* `Machine.Reaches.sourced`: it holds of every machine of a run. -/

namespace MazeRobot

variable {good : Int → Prop}

/-! ## Scopes -/

/-- Whether all values of a scope have a property. -/
def Scope.All (good : Int → Prop) (scope : Scope) : Prop :=
  ∀ binding ∈ scope.bindings, good binding.2

namespace Scope

/-- `All` holds of the scope without names, which has no values. -/
theorem all_empty : empty.All good := by
  intro binding member
  cases member

/-- `define` adds the value of a name, so `All` holds if it holds of that. -/
theorem All.define {scope : Scope} (all : scope.All good) {value : Int} (fine : good value)
    (name : String) : (scope.define name value).All good := by
  intro binding member
  rcases List.mem_cons.mp member with rfl | old
  · exact fine
  · exact all binding (List.mem_of_mem_filter old)

/-- What `get?` finds is one of the values. -/
theorem All.get? {scope : Scope} (all : scope.All good) {name : String} {value : Int}
    (found : scope.get? name = some value) : good value := by
  obtain ⟨bindings⟩ := scope
  change bindings.lookup name = some value at found
  induction bindings with
  | nil => cases found
  | cons binding bindings ih =>
    obtain ⟨key, bound⟩ := binding
    rw [List.lookup_cons] at found
    cases same : name == key with
    | true =>
      rw [same] at found
      cases found
      exact all (key, value) List.mem_cons_self
    | false =>
      rw [same] at found
      exact ih (fun other member => all other (List.mem_cons_of_mem _ member)) found

/-- `ofArguments` binds parameters to the values of the arguments. -/
theorem all_ofArguments (parameters : List String) {arguments : List Int}
    (fine : ∀ value ∈ arguments, good value) : (ofArguments parameters arguments).All good := by
  have pairs : ∀ pair ∈ parameters.zip arguments, good pair.2 := by
    intro pair member
    exact fine pair.2 (List.of_mem_zip member).2
  -- The parameters are bound one after the other, starting from the scope without names.
  have all : ∀ (pairs : List (String × Int)) (scope : Scope), scope.All good →
      (∀ pair ∈ pairs, good pair.2) →
        (pairs.foldl (fun scope pair => scope.define pair.1 pair.2) scope).All good := by
    intro pairs
    induction pairs with
    | nil => exact fun scope all _ => all
    | cons pair pairs ih =>
      intro scope all fine
      have first := all.define (fine pair List.mem_cons_self) pair.1
      exact ih _ first fun other member => fine other (List.mem_cons_of_mem _ member)
  exact all _ empty all_empty pairs

end Scope

/-- Whether all values of all scopes have a property. -/
def Scopes.All (good : Int → Prop) (scopes : Scopes) : Prop :=
  ∀ scope ∈ scopes.globals :: scopes.locals, scope.All good

namespace Scopes

/-- `All` holds of `initial`: at the start of a program no name has a value. -/
theorem all_initial : initial.All good := by
  intro scope member
  rw [List.mem_singleton.mp member]
  exact Scope.all_empty

variable {scopes : Scopes}

/-- The `innermost` scope is one of the scopes. -/
theorem All.innermost (all : scopes.All good) : scopes.innermost.All good := by
  obtain ⟨globals, locals⟩ := scopes
  cases locals with
  | nil => exact all globals List.mem_cons_self
  | cons scope outer => exact all scope (List.mem_cons_of_mem _ List.mem_cons_self)

/-- What `get?` finds is one of the values. -/
theorem All.get? (all : scopes.All good) {name : String} {value : Int}
    (found : scopes.get? name = some value) : good value := by
  rw [Scopes.get?, Option.or_eq_some_iff] at found
  rcases found with inner | ⟨-, outer⟩
  · exact all.innermost.get? inner
  · exact (all scopes.globals List.mem_cons_self).get? outer

/-- `assign` adds its value, so `All` holds if it holds of that. -/
theorem All.assign (all : scopes.All good) {value : Int} (fine : good value) (name : String) :
    (scopes.assign name value).All good := by
  obtain ⟨globals, locals⟩ := scopes
  have outermost : globals.All good := all globals List.mem_cons_self
  cases locals with
  | nil =>
    intro scope member
    rw [List.mem_singleton.mp member]
    exact outermost.define fine name
  | cons inner outer =>
    intro scope member
    rcases List.mem_cons.mp member with rfl | member
    · exact outermost
    · rcases List.mem_cons.mp member with rfl | later
      · exact (all inner (by simp)).define fine name
      · exact all scope (by simp [later])

/-- `push` adds a scope, so `All` holds if it holds of that. -/
theorem All.push (all : scopes.All good) {scope : Scope} (fine : scope.All good) :
    (scopes.push scope).All good := by
  intro other member
  rcases List.mem_cons.mp member with rfl | member
  · exact all _ List.mem_cons_self
  · rcases List.mem_cons.mp member with rfl | later
    · exact fine
    · exact all other (List.mem_cons_of_mem _ later)

/-- `All` holds of some of the scopes if it holds of all of them. -/
theorem All.of_subset (all : scopes.All good) {locals : List Scope}
    (fewer : locals ⊆ scopes.locals) : Scopes.All good { scopes with locals } := by
  intro scope member
  rcases List.mem_cons.mp member with rfl | inner
  · exact all _ List.mem_cons_self
  · exact all scope (List.mem_cons_of_mem _ (fewer inner))

/-- `popTo` drops scopes, so `All` still holds. -/
theorem All.popTo (all : scopes.All good) (depth : Nat) : (scopes.popTo depth).All good :=
  all.of_subset (List.drop_subset _ _)

end Scopes

/-! ## Values -/

/-- Whether all numbers that are written in a program have a property. -/
def Program.Literals (good : Int → Prop) (program : Program) : Prop :=
  ∀ value line, Node.expr (.number value line) ∈ program.nodes → good value

namespace Store

variable {store : Store}

/-- A `value` is a written number, that of a variable, or the distance. -/
theorem good_of_value {expr : Expr} {value : Int} (evaluated : store.value expr = .ok value)
    (all : store.scopes.All good) (far : good store.robot.distanceToGoal)
    (literals : ∀ value line, Node.expr (.number value line) ∈ expr.walk → good value) :
    good value := by
  cases expr with
  | number number line =>
    cases evaluated
    exact literals value line (by simp [Expr.walk])
  | var name line =>
    rw [Store.value] at evaluated
    cases found : store.scopes.get? name with
    | none =>
      rw [found] at evaluated
      cases evaluated
    | some bound =>
      rw [found] at evaluated
      cases evaluated
      exact all.get? found
  | distance line =>
    cases evaluated
    exact far
  | missing => cases evaluated

/-- `values` in a row are each of that kind. -/
theorem good_of_values {exprs : List Expr} {values : List Int}
    (evaluated : store.values exprs = .ok values) (all : store.scopes.All good)
    (far : good store.robot.distanceToGoal)
    (literals : ∀ value line, Node.expr (.number value line) ∈ exprs.flatMap Expr.walk →
      good value) : ∀ value ∈ values, good value := by
  induction exprs generalizing values with
  | nil =>
    cases evaluated
    intro value member
    cases member
  | cons expr exprs ih =>
    rw [Store.values] at evaluated
    cases first : store.value expr with
    | error fault =>
      rw [first] at evaluated
      cases evaluated
    | ok head =>
      rw [first] at evaluated
      cases rest : store.values exprs with
      | error fault =>
        rw [rest] at evaluated
        cases evaluated
      | ok tail =>
        rw [rest] at evaluated
        cases evaluated
        have here := good_of_value first all far fun value line member =>
          literals value line (List.mem_append_left _ member)
        have later := ih rest fun value line member =>
          literals value line (List.mem_append_right _ member)
        intro value member
        rcases List.mem_cons.mp member with rfl | inside
        · exact here
        · exact later value inside

end Store

/-! ## Runs -/

/-- A region of a maze that no step to a free place leads out of, and in which all distances have a
property. -/
structure Grid.Region (g : Grid) (good : Int → Prop) (region : Position → Prop) : Prop where
  /-- No step leads out of the region. -/
  closed : ∀ {p}, region p → ∀ heading, g.blocked (p.step heading) = false →
    region (p.step heading)
  /-- The distances in the region have the property. -/
  good : ∀ {p}, region p → good (g.distance p)

namespace Machine

/-- Frames and a store in a run of a program whose numbers have a property, with the robot in a
region whose distances have it: the values of all variables have it too. -/
structure Sourced (program : Program) (g : Grid) (good : Int → Prop) (region : Position → Prop)
    (frames : List Frame) (store : Store) : Prop where
  /-- Only the program is run. -/
  confined : Confined program frames store
  /-- The values of all variables have the property. -/
  scopes : store.scopes.All good
  /-- The robot is in the maze. -/
  grid : store.robot.grid = g
  /-- The robot is in the region. -/
  place : region store.robot.position

namespace Sourced

variable {program : Program} {g : Grid} {region : Position → Prop} {limits : Limits} {top : Frame}
  {frames below pushed : List Frame} {store store' : Store} {depth depth' : Nat}

/-- Where the values are `Sourced` the distance that the robot sees has the property. -/
theorem distance (sourced : Sourced program g good region frames store)
    (inside : g.Region good region) : good store.robot.distanceToGoal := by
  rw [Robot.distanceToGoal, sourced.grid]
  exact inside.good sourced.place

/-- Where the values are `Sourced` that of an expression in the statement on top has the
property. -/
theorem value {stmt : Stmt} {expr : Expr} {value : Int}
    (sourced : Sourced program g good region (.stmt stmt :: below) store)
    (inside : g.Region good region) (literals : program.Literals good)
    (part : expr.walk ⊆ stmt.nodes) (evaluated : store.value expr = .ok value) : good value := by
  refine Store.good_of_value evaluated sourced.scopes (sourced.distance inside) ?_
  intro value line member
  exact literals value line
    (sourced.confined.nodes _ (List.mem_append_left _ (part member)))

/-- Where the values are `Sourced` those of expressions in the statement on top have the
property. -/
theorem values {stmt : Stmt} {exprs : List Expr} {values : List Int}
    (sourced : Sourced program g good region (.stmt stmt :: below) store)
    (inside : g.Region good region) (literals : program.Literals good)
    (parts : exprs.flatMap Expr.walk ⊆ stmt.nodes) (evaluated : store.values exprs = .ok values) :
    ∀ value ∈ values, good value := by
  refine Store.good_of_values evaluated sourced.scopes (sourced.distance inside) ?_
  intro value line member
  exact literals value line
    (sourced.confined.nodes _ (List.mem_append_left _ (parts member)))

/-- What changes neither the variables nor the place of the robot keeps the values `Sourced`. -/
theorem keep (sourced : Sourced program g good region frames store)
    (confined : Confined program pushed store') (scopes : store'.scopes = store.scopes)
    (grid : store'.robot.grid = store.robot.grid)
    (position : store'.robot.position = store.robot.position) :
    Sourced program g good region pushed store' where
  confined := confined
  scopes := scopes ▸ sourced.scopes
  grid := grid.trans sourced.grid
  place := position ▸ sourced.place

/-- `test` does not move the robot. -/
theorem test_keeps (store : Store) (condition : Condition) :
    (store.test condition).1.scopes = store.scopes ∧
      (store.test condition).1.robot.grid = store.robot.grid ∧
      (store.test condition).1.robot.position = store.robot.position := by
  obtain ⟨query, negated, direction, line⟩ := condition
  cases query <;> exact ⟨rfl, rfl, rfl⟩

/-- **A visit that `Moves` on keeps the values `Sourced`.** -/
theorem moves (inside : g.Region good region) (literals : program.Literals good)
    (rule : Moves limits store depth top pushed store' depth')
    (sourced : Sourced program g good region (top :: below) store) :
    Sourced program g good region (pushed ++ below) store' := by
  have confined := sourced.confined.moves rule
  cases rule with
  | assign name line evaluated =>
    have fine := sourced.value inside literals (by simp) evaluated
    exact ⟨confined, sourced.scopes.assign fine name, sourced.grid, sourced.place⟩
  | call implicit line resolved shallow =>
    have fine := sourced.values inside literals (by simp) (Store.resolve_eq_ok_cases resolved).2
    exact ⟨confined, sourced.scopes.push (Scope.all_ofArguments _ fine), sourced.grid,
      sourced.place⟩
  | bodyEnd function back =>
    exact ⟨confined, sourced.scopes.popTo back, sourced.grid, sourced.place⟩
  | branchTaken body line holds =>
    obtain ⟨scopes, grid, position⟩ := test_keeps store _
    exact sourced.keep confined scopes grid position
  | branchSkipped body line fails =>
    obtain ⟨scopes, grid, position⟩ := test_keeps store _
    exact sourced.keep confined scopes grid position
  | _ => exact sourced.keep confined rfl rfl rfl

/-- A command keeps the robot in its region, so the values stay `Sourced`. -/
theorem command (inside : g.Region good region) {kind : Command} {line : Int}
    (sourced : Sourced program g good region (.stmt (.command kind line) :: below) store) :
    Sourced program g good region below
      { store with robot := (store.robot.perform kind).1 } where
  confined := by
    show Confined program ([] ++ below) _
    exact sourced.confined.replace (by simp) rfl
  scopes := sourced.scopes
  grid := (store.robot.grid_perform kind).trans sourced.grid
  place := by
    show region (store.robot.perform kind).1.position
    rcases store.robot.position_perform kind with stays | ⟨free, moves⟩
    · rw [stays]
      exact sourced.place
    · rw [sourced.grid] at free
      rw [moves]
      exact inside.closed sourced.place _ free

end Sourced

/-- **In every machine that a run `Reaches` the values are `Sourced`**: they come from the program
and the maze. -/
theorem Reaches.sourced {g : Grid} {origin : Position} {heading : Heading} {limits : Limits}
    {tracing : Bool} {program : Program} {region : Position → Prop} (literals : program.Literals good)
    (inside : g.Region good region) (here : region origin) {m : Machine}
    (reached : (load (.start g origin heading) limits tracing program).Reaches m) :
    Sourced program g good region m.frames m.store := by
  have first : Reaches (load (.start g origin heading) limits tracing program) _ := .start
  refine reached.preserves (P := fun frames store _ => Sourced program g good region frames store)
    ?_ (Sourced.moves inside literals) (Sourced.command inside)
  exact ⟨first.confined, Scopes.all_initial, rfl, here⟩

end Machine

end MazeRobot
