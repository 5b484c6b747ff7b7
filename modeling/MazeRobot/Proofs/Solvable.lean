import MazeRobot.Proofs.Descent
import MazeRobot.Proofs.Values
import MazeRobot.Proofs.WellFormed

/-! # Levels that can be solved

In a maze steps go both ways, so from wherever the robot gets it can get back; where a goal can be
reached at the start, one can be reached for ever, and the distance that a program sees is never
`-1`. The numbers of a program that is read are not negative either. Every count of a loop is one of
these, so on a level that can be solved no loop fails for a negative count.

* `Grid.nonneg_distance_step`: a step does not cut the robot off from the goals.
* `Stmt.wellFormed_of_mem_nodes`: the values in a program that is read can be written.
* `Grid.region_solvable`, `Grid.region_everywhere`: the two regions of a maze, with the bounds on
  the distances in them.
* `Machine.solvable_run_nonneg`: the run of a program on a level that can be solved. -/

namespace MazeRobot

/-! ## Distances -/

namespace Grid

variable {g : Grid} {p : Position}

/-- `distance` is not negative exactly where `distance?` finds a goal. -/
theorem nonneg_distance_iff : 0 ≤ g.distance p ↔ ∃ n, g.distance? p = some n := by
  unfold distance
  cases g.distance? p with
  | none => simp
  | some hops => simp

/-- A distance is `-1` at least. -/
theorem neg_one_le_distance (g : Grid) (p : Position) : -1 ≤ g.distance p := by
  unfold distance
  cases g.distance? p with
  | none => exact Int.le_refl (-1)
  | some hops =>
    show (-1 : Int) ≤ hops
    omega

/-- **A `step` does not cut the robot off from the goals:** the step back leads to where a goal
could be reached. -/
theorem nonneg_distance_step (here : 0 ≤ g.distance p) {heading : Heading}
    (free : g.blocked (p.step heading) = false) : 0 ≤ g.distance (p.step heading) := by
  obtain ⟨n, found⟩ := nonneg_distance_iff.mp here
  obtain ⟨⟨goal, reaches, isGoal⟩, -⟩ := distance?_eq_some_iff.mp found
  have back : (p.step heading).Adjacent p := (p.adjacent_step heading).symm
  have again := reaches.after (free_iff.mpr free) back
  refine nonneg_distance_iff.mpr (Option.ne_none_iff_exists'.mp ?_)
  intro nothing
  exact distance?_eq_none_iff.mp nothing (n + 1) goal again isGoal

/-- The places from which a goal can be reached, where distances are not negative, are a
`Region`. -/
theorem region_solvable (g : Grid) : g.Region (0 ≤ ·) fun p => 0 ≤ g.distance p where
  closed := fun here _ free => nonneg_distance_step here free
  good := fun here => here

/-- All places, where distances are `-1` at least. -/
theorem region_everywhere (g : Grid) : g.Region (-1 ≤ ·) fun _ => True where
  closed := fun _ _ _ => trivial
  good := fun _ => g.neg_one_le_distance _

end Grid

/-! ## Numbers in programs -/

namespace Stmt

mutual

/-- The values in a statement that is `WellFormed` are so. -/
theorem wellFormed_of_mem_nodes {expr : Expr} (stmt : Stmt) (wellFormed : stmt.WellFormed)
    (member : Node.expr expr ∈ stmt.nodes) : expr.WellFormed := by
  cases stmt with
  | block body line => exact wellFormed.elim
  | command kind line => simp at member
  | loop count body line =>
    obtain ⟨own, inside⟩ := wellFormed
    have member : Node.expr expr ∈ count.walk ++ nodesAll body := by simpa using member
    rcases List.mem_append.mp member with here | later
    · exact Expr.eq_of_mem_walk here ▸ own
    · exact wellFormed_of_mem_nodesAll body inside later
  | branch condition body line =>
    have member : Node.expr expr ∈ nodesAll body := by simpa using member
    exact wellFormed_of_mem_nodesAll body wellFormed.2 member
  | assign name value line =>
    have member : Node.expr expr ∈ value.walk := by simpa using member
    exact Expr.eq_of_mem_walk member ▸ wellFormed.2
  | define name parameters body line =>
    obtain ⟨-, -, -, inside⟩ := wellFormed
    have member : Node.expr expr ∈ nodesAll body := by simpa using member
    exact wellFormed_of_mem_nodesAll body inside member
  | call name arguments implicit line =>
    have member : Node.expr expr ∈ arguments.flatMap Expr.walk :=
      (List.mem_cons.mp member).resolve_left (by simp)
    obtain ⟨argument, among, here⟩ := List.mem_flatMap.mp member
    exact Expr.eq_of_mem_walk here ▸ wellFormed.2 argument among
  | missing => exact wellFormed.elim

/-- The values in statements that are `AllWellFormed` are well-formed. -/
theorem wellFormed_of_mem_nodesAll {expr : Expr} (stmts : List Stmt)
    (wellFormed : AllWellFormed stmts) (member : Node.expr expr ∈ nodesAll stmts) :
    expr.WellFormed := by
  cases stmts with
  | nil => cases member
  | cons stmt stmts =>
    rw [nodesAll_cons] at member
    rcases List.mem_append.mp member with first | later
    · exact wellFormed_of_mem_nodes stmt wellFormed.1 first
    · exact wellFormed_of_mem_nodesAll stmts wellFormed.2 later

end

end Stmt

/-- The `Literals` of a program that is `WellFormed` are not negative. -/
theorem Program.WellFormed.literals {program : Program} (wellFormed : program.WellFormed) :
    program.Literals (0 ≤ ·) := by
  intro value line member
  rw [Program.nodes_eq] at member
  have inside : Node.expr (.number value line) ∈ Stmt.nodesAll program.body :=
    (List.mem_cons.mp member).resolve_left (by simp)
  exact (Stmt.wellFormed_of_mem_nodesAll program.body wellFormed inside).1

/-- What holds of the `Literals` holds of them if it is weakened. -/
theorem Program.Literals.mono {good fair : Int → Prop} {program : Program}
    (literals : program.Literals good) (weaker : ∀ value, good value → fair value) :
    program.Literals fair :=
  fun value line member => weaker value (literals value line member)

/-! ## Runs -/

namespace Machine

/-- A visit that `Faults` for a negative count is that of a loop with such a count. -/
theorem Faults.exists_negative {limits : Limits} {store : Store} {depth : Nat} {stmt : Stmt}
    {fault : Fault} (faults : Faults limits store depth stmt fault)
    (kind : fault.kind = .negativeRepeatCount) :
    ∃ count body line value, stmt = .loop count body line ∧ store.value count = .ok value ∧
      value < 0 := by
  cases faults with
  | count body line unknown =>
    rcases Store.kind_of_value_eq_error unknown with other | other <;> simp [other] at kind
  | negative body line evaluated negative => exact ⟨_, body, line, _, rfl, evaluated, negative⟩
  | value name line unknown =>
    rcases Store.kind_of_value_eq_error unknown with other | other <;> simp [other] at kind
  | unresolved implicit line unresolved =>
    rcases Store.resolve_eq_error_cases unresolved with
      ⟨-, other⟩ | other | other | ⟨f, -, -, other⟩ <;> simp [other] at kind
  | tooDeep implicit line resolved deep => cases kind

section Run

variable {g : Grid} {origin : Position} {heading : Heading} {limits : Limits} {tracing : Bool}
  {program : Program} {good : Int → Prop} {region : Position → Prop}

/-- The machines of a run and those after its steps have their values from the `Literals` of the
program and the distances of a `Region`, also after a step that failed. -/
theorem values_of_run (literals : program.Literals good) (inside : g.Region good region)
    (here : region origin) {m : Machine} :
    let start := load (.start g origin heading) limits tracing program
    start.Reaches m ∨ (∃ n, start.stepped n = m) →
      good m.robot.distanceToGoal ∧ m.scopes.All good := by
  intro start occurs
  rcases occurs with reached | ⟨n, rfl⟩
  · have sourced := reached.sourced literals inside here
    exact ⟨sourced.distance inside, sourced.scopes⟩
  · have first : start.Reaches start := .start
    obtain ⟨last, reached, scopes, -, robot⟩ := first.exists_reaches_stepped n
    have sourced := reached.sourced literals inside here
    have far : (start.stepped n).robot.distanceToGoal = last.robot.distanceToGoal := by
      rcases robot with same | ⟨message, failed⟩
      · rw [same]
      · rw [failed, Robot.fail]
        split <;> rfl
    rw [far, scopes]
    exact ⟨sourced.distance inside, sourced.scopes⟩

/-- Where neither the `Literals` nor the distances of the `Region` are negative no loop fails for a
negative count. -/
theorem kind_ne_negativeRepeatCount (literals : program.Literals (0 ≤ ·))
    (inside : g.Region (0 ≤ ·) region) (here : region origin) {n : Nat} {fault : Fault}
    (failed : ((load (.start g origin heading) limits tracing program).stepped n).fault? =
      some fault) : fault.kind ≠ .negativeRepeatCount := by
  intro kind
  rcases exists_visit_of_fault? failed with budget | ⟨m, m', reached, visit⟩
  · rw [kind] at budget
    cases budget
  · obtain ⟨top, below, frames, stmt, rfl, faults, -⟩ := visit?_cases visit
    obtain ⟨count, body, line, value, rfl, evaluated, negative⟩ := faults.exists_negative kind
    have sourced := reached.sourced literals inside here
    rw [frames] at sourced
    have nonneg : 0 ≤ value := sourced.value inside literals (by simp) evaluated
    omega

end Run

/-- **On a level that can be solved no run fails for a negative count.** Whatever program is read
and run on a grid: if a goal can be reached from the start, then in every machine of the run,
between the visits of a step and after the steps, a goal can still be reached and no variable has a
negative value, and no step fails for a negative count. On any grid no variable has a value below
`-1`. -/
theorem solvable_run_nonneg (source : List UInt8) (program : Program)
    (parsed : Program.parse source = .ok program) (g : Grid) (origin : Position)
    (heading : Heading) (limits : Limits) (tracing : Bool) :
    let start := load (.start g origin heading) limits tracing program
    (0 ≤ start.robot.distanceToGoal →
      (∀ m, start.Reaches m ∨ (∃ n, start.stepped n = m) →
        0 ≤ m.robot.distanceToGoal ∧ m.scopes.All (0 ≤ ·)) ∧
      ∀ n fault, (start.stepped n).fault? = some fault → fault.kind ≠ .negativeRepeatCount) ∧
    ∀ m, start.Reaches m ∨ (∃ n, start.stepped n = m) → m.scopes.All (-1 ≤ ·) := by
  intro start
  have literals := (Program.wellFormed_of_parse parsed).literals
  refine ⟨fun solvable => ⟨fun m occurs => ?_, fun n fault failed => ?_⟩, fun m occurs => ?_⟩
  · exact values_of_run literals g.region_solvable solvable occurs
  · exact kind_ne_negativeRepeatCount literals g.region_solvable solvable failed
  · have weaker : program.Literals (-1 ≤ ·) := literals.mono fun value nonneg => by omega
    exact (values_of_run weaker g.region_everywhere trivial occurs).2

/-- A source that remembers the distance, passes it to a function and walks so far. -/
def walkDistanceSource : List UInt8 :=
  Text.utf8 "(function walk (n) (repeat n (forward))) (set d (distance)) (walk d)"

/-- The program of that source. -/
def walkDistanceProgram : Program :=
  ⟨[.define "walk" ["n"] [.loop (.var "n" 1) [.command .forward 1] 1] 1,
    .assign "d" (.distance 1) 1, .call "walk" [.var "d" 1] true 1], 1⟩

/-- Where the goal is behind a wall this program fails for a negative count. Where it can be reached
the same program has two variables with the distance after its first step, and does not fail. -/
theorem solvable_run_nonneg_walkDistance :
    let cutOff := load (.start ⟨[[.start, .wall, .goal]]⟩ ⟨0, 0⟩ .east) {} false
      walkDistanceProgram
    let start := load (.start ⟨[[.start, .empty, .goal]]⟩ ⟨0, 0⟩ .east) {} false
      walkDistanceProgram
    Program.parse walkDistanceSource = .ok walkDistanceProgram ∧
      cutOff.fault?.map Fault.kind = some .negativeRepeatCount ∧
      0 ≤ start.robot.distanceToGoal ∧
      (start.stepped 1).scopes = ⟨⟨[("d", 2)]⟩, [⟨[("n", 2)]⟩]⟩ ∧
      (start.stepped 1).scopes.All (0 ≤ ·) ∧
      ∀ n fault, (start.stepped n).fault? = some fault → fault.kind ≠ .negativeRepeatCount := by
  intro cutOff start
  have parsed : Program.parse walkDistanceSource = .ok walkDistanceProgram :=
    eq_ok_of_toOption (by decide +kernel)
  have solvable : 0 ≤ start.robot.distanceToGoal := by decide +kernel
  have run := (solvable_run_nonneg walkDistanceSource walkDistanceProgram parsed
    ⟨[[.start, .empty, .goal]]⟩ ⟨0, 0⟩ .east {} false).1 solvable
  exact ⟨parsed, by decide +kernel, solvable, by decide +kernel, (run.1 _ (.inr ⟨1, rfl⟩)).2, run.2⟩

end Machine

end MazeRobot
