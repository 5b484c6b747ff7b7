import MazeRobot.Machine.Horizon
import MazeRobot.Proofs.Distance
import MazeRobot.Proofs.Refinement
import MazeRobot.Proofs.Values
import Mathlib.Algebra.Group.Nat.Defs

/-! # The horizon bounds the commands

No loop has more rounds than the greatest value, so a piece of a program gives at most as many
commands as the rounds of the loops around each of its nodes allow, where every call counts as many
commands as calls may give. Calls that may nest no deeper give none, and every further level takes
the bound of one body.

* `allowance`: a bound on the commands of a piece with a number of nodes.
* `Store.Bounded`: stores of a program in a maze whose values are not too great.
* `Run.AtMost`, `Stmt.interpret_atMost`, `Store.call_atMost`: runs that give few commands.
* `Program.interpret_le_horizon`: the horizon bounds the commands of a program.
* `Machine.Halts.step`: a step of a machine takes one command off those that it has left. -/

namespace MazeRobot

/-! ## Values -/

/-- `Grid.distance` is at most `cellCount`. -/
theorem Grid.distance_le_cellCount (g : Grid) (p : Position) : g.distance p ≤ g.cellCount := by
  cases found : g.distance? p with
  | none =>
    rw [Grid.distance_eq_neg_one_iff.mpr found]
    omega
  | some n =>
    rw [Grid.distance_eq_natCast_iff.mpr found]
    obtain ⟨⟨goal, reaches, isGoal⟩, least⟩ := Grid.distance?_eq_some_iff.mp found
    -- The goal that is reached in the fewest steps is at that distance.
    obtain ⟨m, le, nearest⟩ := reaches.exists_atDistance
    have same : n ≤ m := least ⟨goal, nearest.1, isGoal⟩
    have few := nearest.lt_cellCount
    omega

/-- The greatest number is no less than the one at the start and those that are met. -/
theorem le_foldl_max (xs : List Nat) (a : Nat) :
    a ≤ xs.foldl max a ∧ ∀ x ∈ xs, x ≤ xs.foldl max a := by
  induction xs generalizing a with
  | nil => simp
  | cons first xs ih =>
    obtain ⟨start, met⟩ := ih (max a first)
    rw [List.foldl_cons]
    refine ⟨by omega, fun x member => ?_⟩
    rcases List.mem_cons.mp member with rfl | later
    · omega
    · exact met x later

/-- No `distance` is greater than `greatestValue`. -/
theorem Program.distance_le_greatestValue (program : Program) (g : Grid) (p : Position) :
    g.distance p ≤ program.greatestValue g := by
  have cells : g.cellCount ≤ program.greatestValue g := (le_foldl_max _ _).1
  have far := g.distance_le_cellCount p
  omega

/-- No written number is greater than `greatestValue`. -/
theorem Program.literals_le_greatestValue (program : Program) (g : Grid) :
    program.Literals (· ≤ program.greatestValue g) := by
  intro value line member
  have written : value.toNat ∈ program.nodes.map Node.literal := List.mem_map.mpr ⟨_, member, rfl⟩
  have le : value.toNat ≤ program.greatestValue g := (le_foldl_max _ _).2 _ written
  show value ≤ program.greatestValue g
  omega

/-- A store of a program in a maze: its values are not too great and its functions stand in the
program. -/
structure Store.Bounded (program : Program) (g : Grid) (store : Store) : Prop where
  /-- The values are not greater than the greatest value. -/
  scopes : store.scopes.All (· ≤ program.greatestValue g)
  /-- The known functions are defined in the program. -/
  functions : ∀ f ∈ store.functions, f ∈ Node.definitions program.nodes
  /-- The robot is in the maze. -/
  grid : store.robot.grid = g

namespace Store.Bounded

variable {program : Program} {g : Grid} {store : Store}

/-- In a `Bounded` store the distance that the robot sees is at most `greatestValue`. -/
theorem distance (bounded : store.Bounded program g) :
    store.robot.distanceToGoal ≤ program.greatestValue g := by
  rw [Robot.distanceToGoal, bounded.grid]
  exact program.distance_le_greatestValue g _

/-- In a `Bounded` store a `value` is at most `greatestValue`. -/
theorem value (bounded : store.Bounded program g) {expr : Expr} {value : Int}
    (part : expr.walk ⊆ program.nodes) (evaluated : store.value expr = .ok value) :
    value ≤ program.greatestValue g := by
  have fine := good_of_value evaluated bounded.scopes bounded.distance fun value line member =>
    program.literals_le_greatestValue g value line (part member)
  exact fine

/-- In a `Bounded` store all `values` are at most `greatestValue`. -/
theorem values (bounded : store.Bounded program g) {exprs : List Expr} {values : List Int}
    (parts : exprs.flatMap Expr.walk ⊆ program.nodes) (evaluated : store.values exprs = .ok values) :
    ∀ value ∈ values, value ≤ program.greatestValue g := by
  refine good_of_values evaluated bounded.scopes bounded.distance ?_
  intro value line member
  exact program.literals_le_greatestValue g value line (parts member)

/-- A `test` changes nothing but the sensors, so the store stays `Bounded`. -/
theorem test (bounded : store.Bounded program g) (condition : Condition) :
    (store.test condition).1.Bounded program g := by
  obtain ⟨query, negated, direction, line⟩ := condition
  cases query <;> exact ⟨bounded.scopes, bounded.functions, bounded.grid⟩

end Store.Bounded

/-! ## Runs with few commands -/

/-- A run that gives at most a number of commands. If it comes to its end, then with a store of the
given kind. -/
structure Run.AtMost (kind : Store → Prop) (bound : Nat) (run : Run) : Prop where
  /-- The commands are few. -/
  few : run.issued.length ≤ bound
  /-- The store at the end is of that kind. -/
  ending : ∀ store, run.ending = .finished store → kind store

namespace Run.AtMost

variable {kind : Store → Prop} {bound more : Nat} {run : Run} {store : Store}

/-- `AtMost` a bound is at most a greater one. -/
theorem mono (atMost : run.AtMost kind bound) (le : bound ≤ more) : run.AtMost kind more :=
  ⟨Nat.le_trans atMost.few le, atMost.ending⟩

/-- `Run.finish` gives no commands. -/
theorem finish (good : kind store) : (Run.finish store).AtMost kind bound := by
  refine ⟨Nat.zero_le _, ?_⟩
  rintro _ ⟨⟩
  exact good

/-- `Run.fault` gives no commands. -/
theorem fault (store : Store) (f : Fault) : (Run.fault store f).AtMost kind bound := by
  refine ⟨Nat.zero_le _, ?_⟩
  rintro _ ⟨⟩

/-- The commands of two pieces in a row add up in `AtMost`. -/
theorem andThen {next : Store → Run} {later : Nat} (first : run.AtMost kind bound)
    (second : ∀ store, kind store → (next store).AtMost kind later) :
    (run.andThen next).AtMost kind (bound + later) := by
  unfold Run.andThen
  cases ended : run.ending with
  | finished store =>
    have rest := second store (first.ending store ended)
    refine ⟨?_, rest.ending⟩
    rw [List.length_append]
    exact Nat.add_le_add first.few rest.few
  | stopped robot => exact first.mono (Nat.le_add_right _ _)

/-- The commands of `Run.rounds` add up in `AtMost`. -/
theorem rounds {piece : Store → Run} (each : ∀ store, kind store → (piece store).AtMost kind bound)
    (n : Nat) (good : kind store) : (Run.rounds piece n store).AtMost kind (n * bound) := by
  induction n generalizing store with
  | zero => exact finish good
  | succ n ih =>
    have both := (each store good).andThen fun _ kept => ih kept
    rw [Nat.succ_mul, Nat.add_comm]
    exact both

end Run.AtMost

/-! ## Allowances -/

/-- A bound on the commands of a piece of a program with a number of nodes, where a call counts as
one and no loop has more rounds than the value. -/
def allowance (value size : Nat) : Nat := size * (value + 1) ^ size

section Allowance

variable {value few many : Nat}

/-- `allowance` grows with the number of nodes. -/
theorem allowance_mono (le : few ≤ many) : allowance value few ≤ allowance value many :=
  Nat.mul_le_mul le (Nat.pow_le_pow_right (Nat.succ_pos value) le)

/-- `allowance` of a node is not zero. -/
theorem one_le_allowance (some : 1 ≤ few) : 1 ≤ allowance value few :=
  Nat.mul_pos some (Nat.pow_pos (Nat.succ_pos value))

/-- `allowance` of two pieces together is no less than the sum of both. -/
theorem allowance_add_le (value first second : Nat) :
    allowance value first + allowance value second ≤ allowance value (first + second) := by
  have left : (value + 1) ^ first ≤ (value + 1) ^ (first + second) :=
    Nat.pow_le_pow_right (Nat.succ_pos value) (Nat.le_add_right _ _)
  have right : (value + 1) ^ second ≤ (value + 1) ^ (first + second) :=
    Nat.pow_le_pow_right (Nat.succ_pos value) (Nat.le_add_left _ _)
  calc allowance value first + allowance value second
      ≤ first * (value + 1) ^ (first + second) + second * (value + 1) ^ (first + second) :=
        Nat.add_le_add (Nat.mul_le_mul_left first left) (Nat.mul_le_mul_left second right)
    _ = allowance value (first + second) := (Nat.add_mul _ _ _).symm

/-- `allowance` of a loop is no less than that of all its rounds. -/
theorem mul_allowance_le {rounds : Nat} (le : rounds ≤ value) (size : Nat) :
    rounds * allowance value size ≤ allowance value (size + 1) := by
  calc rounds * allowance value size
      = size * (rounds * (value + 1) ^ size) := by rw [allowance, Nat.mul_left_comm]
    _ ≤ size * ((value + 1) * (value + 1) ^ size) :=
        Nat.mul_le_mul_left size (Nat.mul_le_mul_right _ (Nat.le_succ_of_le le))
    _ = size * (value + 1) ^ (size + 1) := by rw [Nat.pow_succ']
    _ ≤ allowance value (size + 1) := Nat.mul_le_mul_right _ (Nat.le_succ size)

end Allowance

/-! ## Statements -/

/-- Whether calls in a program give at most a number of commands. -/
def Calling.AtMost (calling : Calling) (program : Program) (g : Grid) (bound : Nat) : Prop :=
  ∀ name arguments line store, arguments.flatMap Expr.walk ⊆ program.nodes →
    store.Bounded program g → (calling name arguments line store).AtMost (·.Bounded program g) bound

namespace Stmt

variable {calling : Calling} {program : Program} {g : Grid} {bound : Nat} {store : Store}

/-- `interpret` of a command gives one command. -/
theorem interpret_command_atMost (kind : Command) (line : Int) (bounded : store.Bounded program g) :
    (interpret calling (.command kind line) store).AtMost (·.Bounded program g) 1 := by
  refine ⟨Nat.le_refl 1, fun after ended => ?_⟩
  rw [interpret] at ended
  dsimp only at ended
  split at ended <;> cases ended
  exact ⟨bounded.scopes, bounded.functions, (store.robot.grid_perform kind).trans bounded.grid⟩

/-- `interpret` of a loop gives the commands of its rounds. -/
theorem interpret_loop_atMost {count : Expr} {body : List Stmt} {size : Nat} (line : Int)
    (part : count.walk ⊆ program.nodes)
    (bodies : ∀ store, store.Bounded program g → (interpretAll calling body store).AtMost
      (·.Bounded program g) (allowance (program.greatestValue g) size * bound))
    (bounded : store.Bounded program g) :
    (interpret calling (.loop count body line) store).AtMost (·.Bounded program g)
      (allowance (program.greatestValue g) (size + 1) * bound) := by
  rw [interpret]
  cases evaluated : store.value count with
  | error fault => exact .fault store fault
  | ok value =>
    dsimp only
    by_cases negative : value < 0
    · rw [if_pos negative]
      exact .fault store _
    · rw [if_neg negative]
      have le : value.toNat ≤ program.greatestValue g := by
        have := bounded.value part evaluated
        omega
      refine (Run.AtMost.rounds bodies value.toNat bounded).mono ?_
      rw [← Nat.mul_assoc]
      exact Nat.mul_le_mul_right bound (mul_allowance_le le size)

mutual

/-- **`interpret` of a statement gives `AtMost` its `allowance`, if calls do.** -/
theorem interpret_atMost (calls : calling.AtMost program g bound) (some : 1 ≤ bound) (stmt : Stmt)
    (inside : stmt.nodes ⊆ program.nodes) {store : Store} (bounded : store.Bounded program g) :
    (interpret calling stmt store).AtMost (·.Bounded program g)
      (allowance (program.greatestValue g) stmt.nodes.length * bound) := by
  -- Whatever stands in a statement has fewer nodes than the statement.
  have body_le {few : Nat} (le : few ≤ stmt.nodes.length) :
      allowance (program.greatestValue g) few * bound ≤
        allowance (program.greatestValue g) stmt.nodes.length * bound :=
    Nat.mul_le_mul_right bound (allowance_mono le)
  cases stmt with
  | block body line =>
    rw [nodes_block, List.cons_subset] at inside
    rw [interpret]
    exact (interpretAll_atMost calls some body inside.2 bounded).mono (body_le (by simp))
  | command kind line =>
    refine (interpret_command_atMost kind line bounded).mono ?_
    exact Nat.mul_pos (one_le_allowance (by simp)) some
  | loop count body line =>
    rw [nodes_loop, List.cons_subset, List.append_subset] at inside
    have rounds := interpret_loop_atMost line inside.2.1
      (fun _ kept => interpretAll_atMost calls some body inside.2.2 kept) bounded
    exact rounds.mono (body_le (by simp))
  | branch condition body line =>
    rw [nodes_branch, List.cons_subset, List.append_subset] at inside
    cases condition with
    | none =>
      rw [interpret]
      exact .finish bounded
    | some condition =>
      rw [interpret]
      have tested := bounded.test condition
      dsimp only
      split
      · refine (interpretAll_atMost calls some body inside.2.2 tested).mono (body_le ?_)
        simp
        omega
      · exact .finish tested
  | assign name value line =>
    rw [nodes_assign, List.cons_subset] at inside
    rw [interpret]
    cases evaluated : store.value value with
    | error fault => exact .fault store fault
    | ok number =>
      have le := bounded.value inside.2 evaluated
      exact .finish ⟨bounded.scopes.assign le name, bounded.functions, bounded.grid⟩
  | define name parameters body line =>
    rw [interpret]
    refine .finish ⟨bounded.scopes, fun f member => ?_, bounded.grid⟩
    rcases FunctionDef.mem_insert.mp member with rfl | ⟨old, -⟩
    · exact Node.mem_definitions.mpr (inside List.mem_cons_self)
    · exact bounded.functions f old
  | call name arguments implicit line =>
    rw [nodes_call, List.cons_subset] at inside
    rw [interpret]
    refine (calls name arguments line store inside.2 bounded).mono ?_
    exact Nat.le_mul_of_pos_left bound (one_le_allowance (by simp))
  | missing =>
    rw [interpret]
    exact .finish bounded

/-- `interpretAll` of a sequence gives `AtMost` its `allowance`, if calls do. -/
theorem interpretAll_atMost (calls : calling.AtMost program g bound) (some : 1 ≤ bound)
    (stmts : List Stmt) (inside : nodesAll stmts ⊆ program.nodes) {store : Store}
    (bounded : store.Bounded program g) :
    (interpretAll calling stmts store).AtMost (·.Bounded program g)
      (allowance (program.greatestValue g) (nodesAll stmts).length * bound) := by
  cases stmts with
  | nil =>
    rw [interpretAll]
    exact .finish bounded
  | cons stmt stmts =>
    rw [nodesAll_cons, List.append_subset] at inside
    rw [interpretAll, nodesAll_cons, List.length_append]
    refine ((interpret_atMost calls some stmt inside.1 bounded).andThen fun _ kept =>
      interpretAll_atMost calls some stmts inside.2 kept).mono ?_
    rw [← Nat.add_mul]
    exact Nat.mul_le_mul_right bound (allowance_add_le _ _ _)

end

end Stmt

/-! ## Programs -/

section Programs

variable {program : Program} {g : Grid}

/-- `bodyHorizon` is what all nodes of the program are allowed. -/
theorem Program.allowance_le_bodyHorizon {size : Nat} (le : size ≤ program.nodes.length) :
    allowance (program.greatestValue g) size ≤ program.bodyHorizon g :=
  allowance_mono (Nat.le_succ_of_le le)

/-- `bodyHorizon` is not zero. -/
theorem Program.one_le_bodyHorizon : 1 ≤ program.bodyHorizon g :=
  one_le_allowance (Nat.le_add_left 1 program.nodes.length)

/-- `Store.call` that may nest some levels deeper gives as many commands as so many bodies in one
another. -/
theorem Store.call_atMost (limit remaining : Nat) :
    Calling.AtMost (Store.call limit remaining) program g (program.bodyHorizon g ^ remaining) := by
  induction remaining with
  | zero =>
    intro name arguments line store parts bounded
    rw [Store.call]
    cases store.resolve name arguments line with
    | error fault => exact .fault store fault
    | ok found => exact .fault store _
  | succ remaining ih =>
    intro name arguments line store parts bounded
    rw [Store.call]
    cases resolved : store.resolve name arguments line with
    | error fault => exact .fault store fault
    | ok found =>
      obtain ⟨f, values⟩ := found
      have le := bounded.values parts (resolve_eq_ok_cases resolved).2
      have inner : Bounded program g
          { store with scopes := store.scopes.push (.ofArguments f.parameters values) } :=
        ⟨bounded.scopes.push (Scope.all_ofArguments _ le), bounded.functions, bounded.grid⟩
      -- The body of the function is a part of the program.
      have defined := Node.mem_definitions.mp (bounded.functions f (mem_of_resolve resolved))
      have within : (Stmt.nodesAll f.body).Sublist program.nodes :=
        (List.sublist_cons_self _ _).trans (program.nodes_sublist_of_mem defined)
      have body := Stmt.interpretAll_atMost ih (Nat.pow_pos Program.one_le_bodyHorizon) f.body
        within.subset inner
      have left : ∀ after : Store, after.Bounded program g → (Run.finish
          { after with scopes := after.scopes.pop }).AtMost (·.Bounded program g) 0 :=
        fun after kept => .finish ⟨kept.scopes.of_subset (List.tail_sublist _).subset, kept.functions,
          kept.grid⟩
      refine (body.andThen left).mono ?_
      rw [Nat.add_zero, Nat.pow_succ']
      exact Nat.mul_le_mul_right _ (Program.allowance_le_bodyHorizon within.length_le)

/-- **The `horizon` bounds the commands of a program.** -/
theorem Program.interpret_le_horizon (program : Program) (robot : Robot) (limits : Limits) :
    (program.interpret limits.maxCallDepth robot).issued.length ≤
      program.horizon robot.grid limits := by
  unfold Program.interpret
  split
  · exact Nat.zero_le _
  · have bounded : (program.initialStore robot).Bounded program robot.grid := by
      refine ⟨Scopes.all_initial, fun f member => ?_, rfl⟩
      have nothing := (FunctionDef.foldl_insert (program.body.filterMap Stmt.definition?) []).1
      exact program.mem_definitions_of_topLevel ((nothing f member).resolve_left (by simp))
    have calls : Calling.AtMost _ program robot.grid _ :=
      Store.call_atMost limits.maxCallDepth limits.maxCallDepth
    have within : (Stmt.nodesAll program.body).Sublist program.nodes := List.sublist_cons_self _ _
    have few := (Stmt.interpretAll_atMost calls (Nat.pow_pos one_le_bodyHorizon) program.body
      within.subset bounded).few
    refine Nat.le_trans few ?_
    show _ ≤ program.bodyHorizon robot.grid ^ (limits.maxCallDepth + 1)
    rw [Nat.pow_succ']
    exact Nat.mul_le_mul_right _ (allowance_le_bodyHorizon within.length_le)

end Programs

/-! ## Machines -/

namespace Machine

/-- A machine that may go on after `advance` up to a command had some budget for it. -/
theorem exists_succ_of_hasMore {m : Machine} {left : Nat}
    (more : (conclude (m.advance left)).2.hasMore = true) : ∃ fewer, left = fewer + 1 := by
  cases left with
  | zero =>
    unfold advance at more
    split at more <;> cases more
  | succ fewer => exact ⟨fewer, rfl⟩

/-- `conclude` of `advance` up to a command after which the machine may go on takes one command off
those that are left. -/
theorem Halts.conclude {m last : Machine} {trace : Trace} (halts : Halts m trace last) {left : Nat}
    (more : (conclude (m.advance left)).2.hasMore = true) :
    ∃ rest, Halts (conclude (m.advance left)).1 rest last ∧
      trace.reduceOption.length = rest.reduceOption.length + 1 := by
  induction halts generalizing left with
  | @ended m none =>
    rw [advance_of_frames_eq_nil none] at more
    cases more
  | @failed m middle fault visit =>
    obtain ⟨fewer, rfl⟩ := exists_succ_of_hasMore more
    rw [advance_succ visit] at more
    cases more
  | @stopped m middle kind line visit ended =>
    obtain ⟨fewer, rfl⟩ := exists_succ_of_hasMore more
    rw [advance_succ visit] at more
    simp [Visit.advance, Machine.conclude, ended] at more
  | @moved m middle last trace visit rest ih =>
    obtain ⟨fewer, rfl⟩ := exists_succ_of_hasMore more
    rw [advance_succ visit] at more ⊢
    exact ih more
  | @command m middle last kind line trace visit on rest ih =>
    obtain ⟨fewer, rfl⟩ := exists_succ_of_hasMore more
    rw [advance_succ visit]
    exact ⟨trace, rest, by simp [List.reduceOption_cons_of_some]⟩

/-- **A `step` after which a machine may go on takes one command off those that are left.** -/
theorem Halts.step {m last : Machine} {trace : Trace} (halts : Halts m trace last)
    (more : m.step.2.hasMore = true) :
    ∃ rest, Halts m.step.1 rest last ∧
      trace.reduceOption.length = rest.reduceOption.length + 1 := by
  cases running : m.robot.done with
  | true =>
    rw [Machine.step, if_pos running] at more
    cases more
  | false =>
    rw [step_eq_conclude running] at more ⊢
    exact halts.conclude more

end Machine

end MazeRobot
