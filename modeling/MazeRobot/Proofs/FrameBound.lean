import MazeRobot.Proofs.Parts
import MazeRobot.Proofs.Scoping
import MazeRobot.Proofs.WellFormed

/-! # How high the stack of frames grows

A call needs a bounded number of frames. Its body takes one, every loop around the statement that is
up next takes two, one for the rounds to go and one for the round, every conditional takes one, and
the statement itself takes one. So a run needs no more frames than its active calls have room for,
however long it goes on.

* `Stmt.nesting`, `Stmt.nestingAll`: how deeply loops and conditionals are nested.
* `Machine.Piled`: frames with room for those that what is left of them may need.
* `Machine.Roomy.moves`: the rules of visits keep to that room.
* `Machine.reaches_frames_bounded`: the frames of a run are bounded by its active calls. -/

namespace MazeRobot

/-! ## Nesting -/

namespace Stmt

mutual

/-- The greatest number of loops and conditionals on a path down a statement. -/
def nesting : Stmt → Nat
  | block body _ => nestingAll body
  | command _ _ => 0
  | loop _ body _ => nestingAll body + 1
  | branch _ body _ => nestingAll body + 1
  | assign _ _ _ => 0
  | define _ _ body _ => nestingAll body
  | call _ _ _ _ => 0
  | missing => 0

/-- The greatest number of loops and conditionals on a path down one of some statements. -/
def nestingAll : List Stmt → Nat
  | [] => 0
  | stmt :: stmts => max (nesting stmt) (nestingAll stmts)

end

/-- `Frame.ofStmt` of a statement that is `WellFormed` runs the statement. -/
theorem WellFormed.ofStmt_eq {stmt : Stmt} (formed : stmt.WellFormed) :
    Frame.ofStmt stmt = .stmt stmt := by
  cases stmt with
  | missing => exact formed.elim
  | _ => rfl

/-- The functions that statements define have no greater `nestingAll` than the statements. -/
theorem nestingAll_body_le_of_mem {f : FunctionDef} {stmts : List Stmt}
    (formed : AllWellFormed stmts) (member : f ∈ stmts.filterMap Stmt.definition?) :
    AllWellFormed f.body ∧ nestingAll f.body ≤ nestingAll stmts := by
  induction stmts with
  | nil => cases member
  | cons stmt stmts ih =>
    rw [nestingAll]
    obtain ⟨defining, inside, defines⟩ := List.mem_filterMap.mp member
    rcases List.mem_cons.mp inside with rfl | later
    · rw [Stmt.definition?_eq_some_iff] at defines
      subst defines
      exact ⟨formed.1.2.2.2, Nat.le_max_left _ _⟩
    · obtain ⟨written, nests⟩ := ih formed.2 (List.mem_filterMap.mpr ⟨defining, later, defines⟩)
      exact ⟨written, Nat.le_trans nests (Nat.le_max_right _ _)⟩

end Stmt

namespace Machine

/-! ## Room on the stack -/

/-- Frames of a number of active calls, each of which has `2 * bound + 2` frames at its disposal,
and so has the program itself. The innermost one has room for some more, and every frame finds as
much room above it as what it runs may need. -/
inductive Piled (bound : Nat) : List Frame → Nat → Nat → Prop
  /-- Before its first frame, a program has all its room. -/
  | nil : Piled bound [] (2 * bound + 2) 0
  /-- A sequence needs room for its statements, one at a time. -/
  | block {rest : List Stmt} {below : List Frame} {room calls : Nat}
      (formed : Stmt.AllWellFormed rest) (fits : 2 * Stmt.nestingAll rest + 1 ≤ room)
      (piled : Piled bound below (room + 1) calls) : Piled bound (.block rest :: below) room calls
  /-- A call has its own room, whatever is left to its caller. -/
  | body {rest : List Stmt} {below : List Frame} {room calls : Nat} (function : String) (back : Nat)
      (formed : Stmt.AllWellFormed rest) (fits : Stmt.nestingAll rest ≤ bound)
      (piled : Piled bound below room calls) :
      Piled bound (.body rest function back :: below) (2 * bound + 1) (calls + 1)
  /-- A statement makes way for the frames that it leads to. -/
  | stmt {next : Stmt} {below : List Frame} {room calls : Nat}
      (formed : next.WellFormed) (fits : 2 * next.nesting ≤ room)
      (piled : Piled bound below (room + 1) calls) : Piled bound (.stmt next :: below) room calls
  /-- A loop stays on the stack during its rounds. -/
  | loop {again : List Stmt} {below : List Frame} {room calls : Nat} (remaining : Nat) (line : Int)
      (formed : Stmt.AllWellFormed again) (fits : 2 * Stmt.nestingAll again + 2 ≤ room)
      (piled : Piled bound below (room + 1) calls) :
      Piled bound (.loop remaining again line :: below) room calls

namespace Piled

variable {bound room calls : Nat} {frames below : List Frame}

/-- On a `Piled` stack there is never more room than that of one call. -/
theorem room_le (piled : Piled bound frames room calls) : room ≤ 2 * bound + 2 := by
  induction piled with
  | nil => exact Nat.le_refl _
  | body function back formed fits piled ih => omega
  | block formed fits piled ih => omega
  | stmt formed fits piled ih => omega
  | loop remaining line formed fits piled ih => omega

/-- **The frames of a `Piled` stack and the room above them fit into the room of all active
calls.** -/
theorem length_add_room_le (piled : Piled bound frames room calls) :
    frames.length + room ≤ (calls + 1) * (2 * bound + 2) := by
  induction piled with
  | nil =>
    rw [List.length_nil]
    omega
  | @body rest below room calls function back formed fits piled ih =>
    rw [List.length_cons, Nat.succ_mul (calls + 1)]
    omega
  | block formed fits piled ih =>
    rw [List.length_cons]
    omega
  | stmt formed fits piled ih =>
    rw [List.length_cons]
    omega
  | loop remaining line formed fits piled ih =>
    rw [List.length_cons]
    omega

/-- Another round of a loop fits on a `Piled` stack. -/
theorem round {again : List Stmt} (remaining : Nat) (line : Int)
    (formed : Stmt.AllWellFormed again) (fits : 2 * Stmt.nestingAll again + 2 ≤ room)
    (piled : Piled bound below (room + 1) calls) :
    Piled bound (.block again :: .loop remaining again line :: below) (room - 1) calls := by
  refine .block formed (by omega) ?_
  rw [Nat.sub_add_cancel (by omega)]
  exact .loop remaining line formed fits piled

/-- The next statement of a sequence fits above the rest of it on a `Piled` stack. -/
theorem next {stmt : Stmt} {stmts : List Stmt} (formed : Stmt.AllWellFormed (stmt :: stmts))
    (fits : 2 * Stmt.nestingAll (stmt :: stmts) + 1 ≤ room) (piled : Piled bound below room calls) :
    Piled bound (.ofStmt stmt :: below) (room - 1) calls := by
  rw [Stmt.nestingAll] at fits
  rw [formed.1.ofStmt_eq]
  refine .stmt formed.1 (by omega) ?_
  rw [Nat.sub_add_cancel (by omega)]
  exact piled

end Piled

/-! ## Machines with room -/

/-- Frames, known functions and active calls of a program that can be written and nests loops and
conditionals no deeper than a bound. -/
structure Roomy (bound : Nat) (frames : List Frame) (store : Store) (depth : Nat) : Prop where
  /-- The frames find their room. -/
  piled : ∃ room, Piled bound frames room depth
  /-- The bodies of the known functions can be written and nest no deeper. -/
  functions : ∀ f ∈ store.functions, Stmt.AllWellFormed f.body ∧ Stmt.nestingAll f.body ≤ bound

namespace Roomy

variable {bound : Nat} {limits : Limits} {top : Frame} {below pushed : List Frame}
  {store store' : Store} {depth depth' : Nat}

/-- A definition that is reached nests no deeper, so the store stays `Roomy`. -/
theorem define {f : FunctionDef} (roomy : Roomy bound (.stmt f.toStmt :: below) store depth) :
    Roomy bound below { store with functions := f.insert store.functions } depth := by
  obtain ⟨⟨room, piled⟩, functions⟩ := roomy
  cases piled with
  | stmt formed fits piled =>
    refine ⟨⟨_, piled⟩, fun g member => ?_⟩
    rcases FunctionDef.mem_insert.mp member with rfl | ⟨old, -⟩
    · have least := piled.room_le
      have nests : 2 * Stmt.nestingAll g.body ≤ room := fits
      exact ⟨formed.2.2.2, by omega⟩
    · exact functions g old

/-- **A visit that `Moves` on keeps to the room that there is**: the machine stays `Roomy`. -/
theorem moves (rule : Moves limits store depth top pushed store' depth')
    (roomy : Roomy bound (top :: below) store depth) :
    Roomy bound (pushed ++ below) store' depth' := by
  obtain ⟨⟨room, piled⟩, functions⟩ := roomy
  cases rule with
  | blockNext stmt stmts =>
    cases piled with
    | block formed fits piled =>
      have rest : 2 * Stmt.nestingAll stmts + 1 ≤ room := by
        rw [Stmt.nestingAll] at fits
        omega
      exact ⟨⟨_, .next formed fits (.block formed.2 rest piled)⟩, functions⟩
  | blockEnd =>
    cases piled with
    | block formed fits piled => exact ⟨⟨_, piled⟩, functions⟩
  | bodyNext stmt stmts function back =>
    cases piled with
    | body _ _ formed fits piled =>
      have rest : Stmt.nestingAll stmts ≤ bound := by
        rw [Stmt.nestingAll] at fits
        omega
      exact ⟨⟨_, .next formed (by omega) (.body function back formed.2 rest piled)⟩, functions⟩
  | bodyEnd function back =>
    cases piled with
    | body _ _ formed fits piled => exact ⟨⟨_, piled⟩, functions⟩
  | round n body line =>
    cases piled with
    | loop _ _ formed fits piled => exact ⟨⟨_, .round n line formed fits piled⟩, functions⟩
  | roundsEnd body line =>
    cases piled with
    | loop _ _ formed fits piled => exact ⟨⟨_, piled⟩, functions⟩
  | loop body line evaluated =>
    -- The loop gives way to two frames, and its nesting counts one more than that of its body.
    cases piled with
    | stmt formed fits piled =>
      rw [Stmt.nesting] at fits
      exact ⟨⟨_, .round _ line formed.2 (by omega) piled⟩, functions⟩
  | branchTaken body line holds =>
    cases piled with
    | stmt formed fits piled =>
      rw [Stmt.nesting] at fits
      exact ⟨⟨_, .block formed.2 (by omega) piled⟩, functions⟩
  | define name parameters body line =>
    exact define (f := ⟨name, parameters, body, line⟩) ⟨⟨room, piled⟩, functions⟩
  | call implicit line resolved shallow =>
    -- What is left of the caller's room stays unused until the call returns.
    cases piled with
    | stmt formed fits piled =>
      obtain ⟨written, nests⟩ := functions _ (Store.mem_of_resolve resolved)
      exact ⟨⟨_, .body _ _ written nests piled⟩, functions⟩
  | block body line =>
    -- A source cannot write down a block inside another.
    cases piled with
    | stmt formed fits piled => exact formed.elim
  | loopNone | branchNone | branchSkipped | assign | missing =>
    cases piled with
    | stmt formed fits piled => exact ⟨⟨_, piled⟩, functions⟩

end Roomy

/-! ## Every machine of a run -/

/-- The machines that a run `Reaches` are `Roomy`: there is room for their frames. -/
theorem Reaches.roomy {robot : Robot} {limits : Limits} {tracing : Bool} {program : Program}
    {m : Machine} {bound : Nat} (formed : program.WellFormed)
    (nests : Stmt.nestingAll program.body ≤ bound)
    (reached : (load robot limits tracing program).Reaches m) :
    Roomy bound m.frames m.store m.callDepth := by
  refine reached.preserves ⟨⟨_, .block formed (by omega) .nil⟩, fun f member => ?_⟩ Roomy.moves ?_
  · rcases (FunctionDef.foldl_insert _ []).1 f member with none | topLevel
    · cases none
    · obtain ⟨written, inside⟩ := Stmt.nestingAll_body_le_of_mem formed topLevel
      exact ⟨written, Nat.le_trans inside nests⟩
  · rintro kind line below store depth ⟨⟨room, piled⟩, functions⟩
    cases piled with
    | stmt _ fits piled => exact ⟨⟨_, piled⟩, functions⟩

/-- **The stack of frames is bounded by the active calls and the nesting of the program.** If loops
and conditionals of a program that has been read nest no deeper than a bound, then every machine
that a run comes to without failing, also between the visits of a step, has at most `2 * bound + 2`
frames for the program and for each active call, hence for each call that the limit allows. The
machines after any number of steps without a fault are among these. -/
theorem reaches_frames_bounded {source : List UInt8} {program : Program} {bound : Nat}
    (parsed : Program.parse source = .ok program) (nests : Stmt.nestingAll program.body ≤ bound)
    (robot : Robot) (limits : Limits) (tracing : Bool) :
    let start := load robot limits tracing program
    (∀ m, start.Reaches m →
      m.frames.length ≤ (m.callDepth + 1) * (2 * bound + 2) ∧
        m.frames.length ≤ (limits.maxCallDepth + 1) * (2 * bound + 2)) ∧
      ∀ n, (∀ k < n, (start.stepped k).fault? = none) → start.Reaches (start.stepped n) := by
  intro start
  refine ⟨fun m reached => ?_, fun n fine => Reaches.start.stepped_of_fault? fine⟩
  obtain ⟨⟨room, piled⟩, -⟩ := reached.roomy (Program.wellFormed_of_parse parsed) nests
  have calls : m.frames.length ≤ (m.callDepth + 1) * (2 * bound + 2) :=
    Nat.le_trans (Nat.le_add_right _ room) piled.length_add_room_le
  have allowed : m.callDepth ≤ limits.maxCallDepth := reached.nested.limit
  exact ⟨calls, Nat.le_trans calls (Nat.mul_le_mul_right _ (Nat.succ_le_succ allowed))⟩

/-- A source with a function that calls itself from within a loop and a conditional. -/
def digSource : List UInt8 := Text.utf8
  "(function dig () (repeat 2 (forward) (if (not (sensor front)) (dig))))\n(dig)"

/-- The program of that source. -/
def digProgram : Program :=
  ⟨[.define "dig" [] [.loop (.number 2 1) [.command .forward 1,
        .branch (some ⟨.sensor, true, .front, 1⟩) [.call "dig" [] true 1] 1] 1] 1,
      .call "dig" [] true 2], 1⟩

/-- Inside the second call there are eight frames. -/
theorem reaches_frames_bounded_dig :
    let robot := Robot.start ⟨[[.empty, .empty, .empty, .empty]]⟩ ⟨0, 0⟩ .east
    let m := (load robot ⟨2, 20⟩ false digProgram).stepped 2
    Program.parse digSource = .ok digProgram ∧ Stmt.nestingAll digProgram.body ≤ 2 ∧
      m.callDepth = 2 ∧ m.frames.length = 8 ∧
      (load robot ⟨2, 20⟩ false digProgram).Reaches m ∧
      m.frames.length ≤ (m.callDepth + 1) * (2 * 2 + 2) ∧
      m.frames.length ≤ (2 + 1) * (2 * 2 + 2) := by
  intro robot m
  have parsed : Program.parse digSource = .ok digProgram := eq_ok_of_toOption (by decide +kernel)
  have nests : Stmt.nestingAll digProgram.body ≤ 2 := by decide +kernel
  obtain ⟨all, steps⟩ := reaches_frames_bounded parsed nests robot ⟨2, 20⟩ false
  have fine : ∀ k < 2, ((load robot ⟨2, 20⟩ false digProgram).stepped k).fault? = none := by
    decide +kernel
  have reached := steps 2 fine
  exact ⟨parsed, nests, by decide +kernel, by decide +kernel, reached, all m reached⟩

end Machine

end MazeRobot
