import MazeRobot.Proofs.CallStack
import MazeRobot.Proofs.Sessions
import MazeRobot.Proofs.WellFormed

/-! # Straight-line programs

A program without loops, conditionals and calls runs its statements once and in order. Definitions
are statements too, but running one only makes a function known, and nobody calls it. So a run that
comes to the end of such a program has given the commands that stand outside definitions, in source
order. These are all commands of the program exactly if no definition holds one.

* `Node.command?`, `Node.isControl`: commands, and the nodes that a straight-line program lacks.
* `Program.ownCommands`: the commands of a program that stand outside definitions.
* `Program.ownCommands_eq_commands_iff`: when these are all of its commands.
* `Stmt.interpretAll_gives`: the run of straight-line statements.
* `Machine.straightLine_issued`: the steps of a machine on a straight-line program. -/

namespace MazeRobot

/-! ## Commands among nodes -/

namespace Node

/-- The command that a node is, if it is one. -/
def command? : Node → Option Command
  | .stmt (.command kind _) => some kind
  | _ => none

/-- Whether a node is a loop, a conditional or a call. -/
def isControl : Node → Bool
  | .stmt (.loop _ _ _) => true
  | .stmt (.branch _ _ _) => true
  | .stmt (.call _ _ _ _) => true
  | _ => false

/-- The commands among some nodes, in their order. -/
def commandsAmong (nodes : List Node) : List Command := nodes.filterMap command?

/-- `commandsAmong` of no nodes is empty. -/
@[simp] theorem commandsAmong_nil : commandsAmong [] = [] := rfl

/-- `commandsAmong` of nodes in a row has those of the first and then those of the others. -/
@[simp] theorem commandsAmong_append (first second : List Node) :
    commandsAmong (first ++ second) = commandsAmong first ++ commandsAmong second :=
  List.filterMap_append

/-- `commandsAmong` gets nothing from a node that is no command. -/
theorem commandsAmong_cons_of_none {node : Node} (other : node.command? = none)
    (nodes : List Node) : commandsAmong (node :: nodes) = commandsAmong nodes :=
  List.filterMap_cons_none other

/-- `commandsAmong` of a part of some nodes is a part of the commands of all of them. -/
theorem commandsAmong_sublist {part whole : List Node} (sublist : part.Sublist whole) :
    (commandsAmong part).Sublist (commandsAmong whole) :=
  sublist.filterMap command?

/-- `commandsAmong` of the nodes of a value is empty. -/
@[simp] theorem commandsAmong_walk (expr : Expr) : commandsAmong expr.walk = [] := by
  cases expr <;> rfl

/-- `commandsAmong` of conditions is empty. -/
@[simp] theorem commandsAmong_conditions (conditions : List Condition) :
    commandsAmong (conditions.map .condition) = [] := by
  induction conditions with
  | nil => rfl
  | cons condition conditions ih => exact ih

end Node

open Node

/-- The commands of a program that stand outside definitions. -/
def Program.ownCommands (program : Program) : List Command := commandsAmong (program.ownNodes none)

/-- The `commands` of a program are those among its nodes. -/
theorem Program.commands_eq (program : Program) :
    program.commands = commandsAmong (Stmt.nodesAll program.body) := by
  refine (List.filterMap_congr fun node _ => ?_ :
    program.commands = commandsAmong program.nodes).trans rfl
  cases node with
  | stmt stmt => cases stmt <;> rfl
  | expr expr => rfl
  | condition condition => rfl

/-! ## Definitions that hold no command -/

/-- Definitions among some nodes that hold no command. -/
def Node.Quiet (nodes : List Node) : Prop :=
  ∀ f : FunctionDef, Node.stmt f.toStmt ∈ nodes → commandsAmong (Stmt.nodesAll f.body) = []

namespace Node.Quiet

/-- Nodes without statements hold no definitions, so they are `Quiet`. -/
theorem of_no_stmt {nodes : List Node} (none : ∀ stmt, Node.stmt stmt ∉ nodes) : Quiet nodes :=
  fun f member => absurd member (none f.toStmt)

/-- Nodes in a row are `Quiet` exactly if the first and the others are. -/
theorem append_iff {first second : List Node} :
    Quiet (first ++ second) ↔ Quiet first ∧ Quiet second := by
  constructor
  · intro quiet
    exact ⟨fun f member => quiet f (List.mem_append_left _ member),
      fun f member => quiet f (List.mem_append_right _ member)⟩
  · rintro ⟨left, right⟩ f member
    rcases List.mem_append.mp member with inside | inside
    · exact left f inside
    · exact right f inside

/-- A statement that is no definition does not matter for `Quiet`. -/
theorem cons_iff {stmt : Stmt} (other : stmt.isDefinition = false) {nodes : List Node} :
    Quiet (.stmt stmt :: nodes) ↔ Quiet nodes := by
  constructor
  · exact fun quiet f member => quiet f (List.mem_cons_of_mem _ member)
  · intro quiet f member
    rcases List.mem_cons.mp member with same | later
    · injection same with same
      rw [← same] at other
      cases other
    · exact quiet f later

/-- A definition is `Quiet` exactly if its body holds no command; then so are the definitions
inside. -/
theorem define_iff {name : String} {parameters : List String} {body : List Stmt} {line : Int} :
    Quiet (Stmt.define name parameters body line).nodes ↔
      commandsAmong (Stmt.nodesAll body) = [] := by
  constructor
  · exact fun quiet => quiet ⟨name, parameters, body, line⟩ List.mem_cons_self
  · intro none f member
    rcases List.mem_cons.mp member with same | inside
    · cases same
      exact none
    · -- What stands in an inner definition stands in the outer one.
      have part : (Stmt.nodesAll f.body).Sublist (Stmt.nodesAll body) :=
        (List.sublist_cons_self _ _).trans (Stmt.nodesAll_sublist_of_mem body inside)
      have few := commandsAmong_sublist part
      rw [none] at few
      exact List.sublist_nil.mp few

end Node.Quiet

/-- Where two lists are made up of parts of two others, they are equal exactly if the parts are. -/
theorem append_eq_append_iff_of_sublist {α : Type} {first second whole rest : List α}
    (left : first.Sublist whole) (right : second.Sublist rest) :
    first ++ second = whole ++ rest ↔ first = whole ∧ second = rest := by
  constructor
  · intro same
    have lengths := congrArg List.length same
    rw [List.length_append, List.length_append] at lengths
    have short := left.length_le
    have shorter := right.length_le
    exact ⟨left.eq_of_length (by omega), right.eq_of_length (by omega)⟩
  · rintro ⟨rfl, rfl⟩
    rfl

namespace Stmt

section Control

variable (count : Expr) (condition : Option Condition) (body : List Stmt) (line : Int)

/-- `commandsAmong` of the `nodes` of a loop is that of its body. -/
theorem commandsAmong_nodes_loop :
    commandsAmong (loop count body line).nodes = commandsAmong (nodesAll body) := by
  rw [nodes_loop, commandsAmong_cons_of_none rfl, commandsAmong_append, commandsAmong_walk,
    List.nil_append]

/-- `commandsAmong` of the `ownNodes` of a loop is that of its body. -/
theorem commandsAmong_ownNodes_loop :
    commandsAmong (loop count body line).ownNodes = commandsAmong (ownNodesAll body) := by
  rw [ownNodes_loop, commandsAmong_cons_of_none rfl, commandsAmong_append, commandsAmong_walk,
    List.nil_append]

/-- `commandsAmong` of the `nodes` of a conditional is that of its body. -/
theorem commandsAmong_nodes_branch :
    commandsAmong (branch condition body line).nodes = commandsAmong (nodesAll body) := by
  rw [nodes_branch, commandsAmong_cons_of_none rfl, commandsAmong_append, commandsAmong_conditions,
    List.nil_append]

/-- `commandsAmong` of the `ownNodes` of a conditional is that of its body. -/
theorem commandsAmong_ownNodes_branch :
    commandsAmong (branch condition body line).ownNodes = commandsAmong (ownNodesAll body) := by
  rw [ownNodes_branch, commandsAmong_cons_of_none rfl, commandsAmong_append,
    commandsAmong_conditions, List.nil_append]

/-- Only the body of a loop can hold definitions, so the loop is `Quiet` if that is. -/
theorem quiet_nodes_loop : Quiet (loop count body line).nodes ↔ Quiet (nodesAll body) := by
  have values : Quiet count.walk := .of_no_stmt fun stmt => stmt_notMem_walk stmt count
  rw [nodes_loop, Quiet.cons_iff rfl, Quiet.append_iff, and_iff_right values]

/-- Only the body of a conditional can hold definitions, so it is `Quiet` if that is. -/
theorem quiet_nodes_branch : Quiet (branch condition body line).nodes ↔ Quiet (nodesAll body) := by
  have test : Quiet (condition.toList.map .condition) := .of_no_stmt fun stmt => by simp
  rw [nodes_branch, Quiet.cons_iff rfl, Quiet.append_iff, and_iff_right test]

end Control

mutual

/-- `ownNodes`, what stands outside definitions, is a part of `nodes`, in the same order. -/
theorem ownNodes_sublist (stmt : Stmt) : stmt.ownNodes.Sublist stmt.nodes := by
  cases stmt with
  | block body line => exact (ownNodesAll_sublist body).cons_cons _
  | loop count body line =>
    exact ((List.Sublist.refl count.walk).append (ownNodesAll_sublist body)).cons_cons _
  | branch condition body line =>
    exact ((List.Sublist.refl _).append (ownNodesAll_sublist body)).cons_cons _
  | define name parameters body line => exact (List.nil_sublist _).cons_cons _
  | _ => exact List.Sublist.refl _

/-- `ownNodesAll` is a part of `nodesAll`, in the same order. -/
theorem ownNodesAll_sublist (stmts : List Stmt) :
    (ownNodesAll stmts).Sublist (nodesAll stmts) := by
  cases stmts with
  | nil => exact List.Sublist.refl _
  | cons stmt stmts => exact (ownNodes_sublist stmt).append (ownNodesAll_sublist stmts)

end

mutual

/-- The commands among `ownNodes` are all commands exactly if the definitions hold none. -/
theorem ownCommands_eq_iff (stmt : Stmt) :
    commandsAmong stmt.ownNodes = commandsAmong stmt.nodes ↔ Quiet stmt.nodes := by
  cases stmt with
  | block body line =>
    rw [nodes_block, Quiet.cons_iff rfl, ← ownCommandsAll_eq_iff body]
    rfl
  | loop count body line =>
    rw [commandsAmong_ownNodes_loop, commandsAmong_nodes_loop, quiet_nodes_loop,
      ownCommandsAll_eq_iff body]
  | branch condition body line =>
    rw [commandsAmong_ownNodes_branch, commandsAmong_nodes_branch, quiet_nodes_branch,
      ownCommandsAll_eq_iff body]
  | define name parameters body line =>
    rw [Quiet.define_iff]
    exact eq_comm
  | command kind line =>
    exact iff_of_true rfl ((Quiet.cons_iff rfl).mpr (.of_no_stmt fun _ => List.not_mem_nil))
  | assign name value line =>
    exact iff_of_true rfl ((Quiet.cons_iff rfl).mpr
      (.of_no_stmt fun stmt => stmt_notMem_walk stmt value))
  | call name arguments implicit line =>
    refine iff_of_true rfl ((Quiet.cons_iff rfl).mpr (.of_no_stmt fun stmt member => ?_))
    obtain ⟨argument, -, value⟩ := List.mem_flatMap.mp member
    exact stmt_notMem_walk stmt argument value
  | missing => exact iff_of_true rfl (.of_no_stmt fun _ => List.not_mem_nil)

/-- The commands among `ownNodesAll` are all commands exactly if the definitions hold none. -/
theorem ownCommandsAll_eq_iff (stmts : List Stmt) :
    commandsAmong (ownNodesAll stmts) = commandsAmong (nodesAll stmts) ↔
      Quiet (nodesAll stmts) := by
  cases stmts with
  | nil => simp [Quiet.of_no_stmt]
  | cons stmt stmts =>
    rw [ownNodesAll_cons, nodesAll_cons, commandsAmong_append, commandsAmong_append,
      append_eq_append_iff_of_sublist (commandsAmong_sublist (ownNodes_sublist stmt))
        (commandsAmong_sublist (ownNodesAll_sublist stmts)),
      ownCommands_eq_iff stmt, ownCommandsAll_eq_iff stmts, Quiet.append_iff]

end

end Stmt

/-- **The `ownCommands` of a program, which stand outside definitions, are all of its `commands`
exactly if no definition holds one.** -/
theorem Program.ownCommands_eq_commands_iff (program : Program) :
    program.ownCommands = program.commands ↔ Quiet program.nodes := by
  rw [commands_eq, nodes_eq, Quiet.cons_iff rfl, ← Stmt.ownCommandsAll_eq_iff]
  rfl

/-! ## Runs of straight-line statements -/

/-- A run that gives some commands if it comes to its end, with the robot still running, and that
otherwise ends the run of the robot. -/
def Run.Gives (run : Run) (commands : List Command) : Prop :=
  match run.ending with
  | .finished store => store.robot.done = false ∧ run.issued.map Prod.fst = commands
  | .stopped robot => robot.done = true

namespace Run.Gives

variable {store : Store} {run : Run} {commands later : List Command}

/-- A run that does nothing `Gives` no commands. -/
theorem finish (running : store.robot.done = false) : (Run.finish store).Gives [] := ⟨running, rfl⟩

/-- A run that fails `Gives` any commands, as it does not come to its end. -/
theorem fault (running : store.robot.done = false) (fault : Fault) :
    (Run.fault store fault).Gives commands := by
  have told : store.robot.fail fault.detail =
      { store.robot with failure? := some fault.detail } := by
    simp [Robot.fail, running, fault.isEmpty_detail]
  have failed : (store.robot.fail fault.detail).done = true := by simp [told, Robot.done]
  exact failed

/-- Runs one after the other give their commands in a row, in the sense of `Gives`. -/
theorem andThen {next : Store → Run} (first : run.Gives commands)
    (second : ∀ store, store.robot.done = false → (next store).Gives later) :
    (run.andThen next).Gives (commands ++ later) := by
  unfold Run.andThen
  cases ended : run.ending with
  | stopped robot =>
    rw [Gives, ended] at first
    rw [Gives, ended]
    exact first
  | finished store =>
    rw [Gives, ended] at first
    obtain ⟨running, given⟩ := first
    have rest := second store running
    rw [Gives] at rest ⊢
    dsimp only
    cases final : (next store).ending with
    | stopped robot =>
      rw [final] at rest
      exact rest
    | finished after =>
      rw [final] at rest
      exact ⟨rest.1, by rw [List.map_append, given, rest.2]⟩

/-- If the robot runs on after a run that `Gives` commands, the run has come to its end and issued
them. -/
theorem issued_eq (gives : run.Gives commands) (running : run.robot.done = false) :
    run.issued.map Prod.fst = commands := by
  rw [Gives] at gives
  rw [Run.robot] at running
  cases ended : run.ending with
  | finished store =>
    rw [ended] at gives
    exact gives.2
  | stopped robot =>
    rw [ended] at gives running
    cases gives.symm.trans running

end Run.Gives

namespace Stmt

variable {calling : Calling}

mutual

/-- **`interpret` of a straight-line statement `Gives` its commands**, those inside definitions
apart. -/
theorem interpret_gives (stmt : Stmt) {store : Store}
    (straight : ∀ node ∈ stmt.ownNodes, node.isControl = false)
    (running : store.robot.done = false) :
    (interpret calling stmt store).Gives (commandsAmong stmt.ownNodes) := by
  cases stmt with
  | block body line =>
    exact interpretAll_gives body (fun node member => straight node (List.mem_cons_of_mem _ member))
      running
  | command kind line =>
    rw [interpret, Run.Gives]
    cases ended : (store.robot.perform kind).1.done with
    | true => exact ended
    | false => exact ⟨ended, rfl⟩
  | assign name value line =>
    rw [interpret, ownNodes_assign, commandsAmong_cons_of_none rfl, commandsAmong_walk]
    cases store.value value with
    | error fault => exact .fault running fault
    | ok value => exact .finish running
  | define name parameters body line => exact .finish running
  | missing => exact .finish running
  | loop count body line => cases straight _ List.mem_cons_self
  | branch condition body line => cases straight _ List.mem_cons_self
  | call name arguments implicit line => cases straight _ List.mem_cons_self

/-- `interpretAll` of straight-line statements `Gives` their commands one after the other. -/
theorem interpretAll_gives (stmts : List Stmt) {store : Store}
    (straight : ∀ node ∈ ownNodesAll stmts, node.isControl = false)
    (running : store.robot.done = false) :
    (interpretAll calling stmts store).Gives (commandsAmong (ownNodesAll stmts)) := by
  cases stmts with
  | nil => exact .finish running
  | cons stmt stmts =>
    rw [interpretAll, ownNodesAll_cons, commandsAmong_append]
    have first := interpret_gives stmt
      (fun node member => straight node (List.mem_append_left _ member)) running
    refine first.andThen fun middle on => ?_
    exact interpretAll_gives stmts
      (fun node member => straight node (List.mem_append_right _ member)) on

end

end Stmt

/-- **`interpret` of a straight-line program** after which the robot still runs has issued the
`ownCommands`, which stand outside definitions. -/
theorem Program.interpret_issued_of_straight {program : Program} {limit : Nat} {robot : Robot}
    (straight : ∀ node ∈ program.nodes, node.isControl = false)
    (running : (program.interpret limit robot).robot.done = false) :
    (program.interpret limit robot).issued.map Prod.fst = program.ownCommands := by
  have own : ∀ node ∈ Stmt.ownNodesAll program.body, node.isControl = false := fun node member =>
    straight node (List.mem_cons_of_mem _ ((Stmt.ownNodesAll_sublist program.body).subset member))
  cases ended : robot.done with
  | true =>
    rw [interpret, if_pos ended] at running
    cases ended.symm.trans running
  | false =>
    have start : (program.initialStore robot).robot.done = false := ended
    rw [interpret, ended, if_neg Bool.false_ne_true] at running ⊢
    exact (Stmt.interpretAll_gives program.body own start).issued_eq running

namespace Machine

/-- `stepTimes` takes no more steps once the machine may not go on. -/
theorem stepTimes_eq_of_stopped {m : Machine} {n k : Nat}
    (stopped : (m.stepTimes n).1.hasMore = false) (le : n ≤ k) :
    m.stepTimes k = m.stepTimes n := by
  induction n generalizing m k with
  | zero => exact stepTimes_of_hasMore_eq_false stopped k
  | succ n ih =>
    cases more : m.hasMore with
    | false => rw [stepTimes_of_hasMore_eq_false more, stepTimes_of_hasMore_eq_false more]
    | true =>
      obtain ⟨k, rfl⟩ := Nat.exists_eq_succ_of_ne_zero (Nat.ne_of_gt (Nat.lt_of_lt_of_le
        (Nat.succ_pos n) le))
      have unfolded : ∀ j, m.stepTimes (j + 1) =
          ((m.step.1.stepTimes j).1, m.step.2 :: (m.step.1.stepTimes j).2) := fun j => by
        rw [stepTimes, if_pos more]
      rw [unfolded] at stopped
      rw [unfolded, unfolded, ih stopped (Nat.le_of_succ_le_succ le)]

variable {program : Program} {robot : Robot} {limits : Limits} {tracing : Bool} {n : Nat}

/-- A robot that runs after `stepTimes` has run from the start. -/
theorem running_of_running_stepTimes
    (running : ((load robot limits tracing program).stepTimes n).1.robot.done = false) :
    robot.done = false := by
  by_contra ended
  have no : (load robot limits tracing program).hasMore = false := by
    simp [hasMore, load, idle, Bool.eq_true_of_not_eq_false ended]
  rw [stepTimes_of_hasMore_eq_false no] at running
  exact ended running

/-- **A machine that comes to the end of its program has run it as `interpret` does**: as its robot
has not failed, the budget was enough. -/
theorem issued_eq_interpret
    (stopped : ((load robot limits tracing program).stepTimes n).1.hasMore = false)
    (running : ((load robot limits tracing program).stepTimes n).1.robot.done = false) :
    issued ((load robot limits tracing program).stepTimes n).2 =
        (program.interpret limits.maxCallDepth robot).issued ∧
      ((load robot limits tracing program).stepTimes n).1.robot =
        (program.interpret limits.maxCallDepth robot).robot := by
  have start := running_of_running_stepTimes running
  obtain ⟨trace, last, halts, commands, same⟩ := load_halts program robot limits tracing start
  obtain ⟨k, ended, outcome⟩ := halts.exists_stepTimes start
  -- Both numbers of steps are enough, so they lead to the same place.
  have meet : (load robot limits tracing program).stepTimes n =
      (load robot limits tracing program).stepTimes k := by
    rcases Nat.le_total n k with le | le
    · exact (stepTimes_eq_of_stopped stopped le).symm
    · exact stepTimes_eq_of_stopped ended le
  rw [meet] at running ⊢
  rw [← commands, ← same]
  rw [ComesTo] at outcome
  split at outcome
  · exact ⟨outcome.2, by rw [outcome.1]⟩
  · obtain ⟨⟨-, line, failure⟩, -⟩ := outcome
    rw [Robot.done, failure] at running
    simp at running

/-- **The steps of a machine on a straight-line program.** Where the program has no loop, no
conditional and no call, and the machine comes to its end with the robot still running, the commands
are those that stand outside definitions, in source order. These are all commands of the program
exactly if no definition holds one. -/
theorem straightLine_issued (straight : ∀ node ∈ program.nodes, node.isControl = false)
    (stopped : ((load robot limits tracing program).stepTimes n).1.hasMore = false)
    (running : ((load robot limits tracing program).stepTimes n).1.robot.done = false) :
    let given := (issued ((load robot limits tracing program).stepTimes n).2).map Prod.fst
    given = program.ownCommands ∧ (given = program.commands ↔ Quiet program.nodes) := by
  obtain ⟨same, robots⟩ := issued_eq_interpret stopped running
  rw [robots] at running
  have own := Program.interpret_issued_of_straight straight running
  rw [← same] at own
  exact ⟨own, own ▸ program.ownCommands_eq_commands_iff⟩

/-- A source that defines a walk without taking it, and turns. -/
def unusedWalkSource : List UInt8 := Text.utf8 "(function walk () (forward)) (turn-left)"

/-- The program of that source. -/
def unusedWalk : Program :=
  ⟨[.define "walk" [] [.command .forward 1] 1, .command .turnLeft 1], 1⟩

/-- `parse` reads `unusedWalkSource` as `unusedWalk`. -/
theorem parse_unusedWalkSource : Program.parse unusedWalkSource = .ok unusedWalk :=
  eq_ok_of_toOption (by decide +kernel)

/-- `unusedWalk` is a straight-line program. -/
theorem straight_unusedWalk : ∀ node ∈ unusedWalk.nodes, node.isControl = false := by decide

/-- In `unusedWalk` the robot turns and does not walk. -/
theorem straightLine_issued_unusedWalk :
    let ran := (load Session.corridor.robot {} false unusedWalk).stepTimes 2
    (∀ node ∈ unusedWalk.nodes, node.isControl = false) ∧
      ran.1.hasMore = false ∧ ran.1.robot.done = false ∧
      (issued ran.2).map Prod.fst = [.turnLeft] ∧ ¬ Quiet unusedWalk.nodes := by
  intro ran
  have stopped : ran.1.hasMore = false := by decide +kernel
  have running : ran.1.robot.done = false := by decide +kernel
  obtain ⟨own, all⟩ := straightLine_issued straight_unusedWalk stopped running
  refine ⟨straight_unusedWalk, stopped, running, own, fun quiet => ?_⟩
  exact absurd (own.symm.trans (all.mpr quiet)) (by decide)

/-- **A straight-line program does not always give all of its commands.** -/
theorem straightLine_not_commands :
    ¬ ∀ (source : List UInt8) (program : Program) (level : Level) (limits : Limits) (tracing : Bool)
      (n : Nat), Program.parse source = .ok program →
      (∀ node ∈ program.nodes, node.isControl = false) →
      ((load level.robot limits tracing program).stepTimes n).1.hasMore = false →
      ((load level.robot limits tracing program).stepTimes n).1.robot.done = false →
      (issued ((load level.robot limits tracing program).stepTimes n).2).map Prod.fst =
        program.commands := by
  intro always
  have all := always _ _ Session.corridor {} false 2 parse_unusedWalkSource straight_unusedWalk
    (by decide +kernel) (by decide +kernel)
  exact absurd all (by decide +kernel)

end Machine

end MazeRobot
