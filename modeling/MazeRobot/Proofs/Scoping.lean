import MazeRobot.Proofs.Reachable

/-! # Scopes follow calls

A machine counts its active calls, keeps a scope for each, and keeps a frame for each that says how
many scopes to go back to. The three are changed in different places and always agree: a call adds
one of each, and its end takes one of each away, so the global scope is never dropped.

* `Machine.Disciplined`: how the calls, the scopes and the frames of a machine agree.
* `Machine.Nested`: the same as one list of numbers, which the rules of visits keep.
* `Machine.reaches_disciplined`: they agree in every machine of a run. -/

namespace MazeRobot

namespace Frame

/-- The number of scopes to which a frame goes back, if it is that of a call. -/
def back? : Frame → Option Nat
  | .body _ _ back => some back
  | _ => none

/-- Whether a frame is that of a call. -/
def isCall (frame : Frame) : Bool := frame.back?.isSome

/-- `ofStmt` is not the frame of a call. -/
@[simp] theorem back?_ofStmt (stmt : Stmt) : (ofStmt stmt).back? = none := by
  cases stmt <;> rfl

end Frame

namespace Machine

/-- A machine whose calls, scopes and frames agree, under the given limits. -/
structure Disciplined (limits : Limits) (m : Machine) : Prop where
  /-- There are as many active calls as frames of calls. -/
  calls : m.callDepth = m.frames.countP Frame.isCall
  /-- There is one scope for each active call, and the global one. -/
  scopes : m.scopes.depth = m.callDepth + 1
  /-- The frame of a call goes back to one scope for each call below it, and the global one. -/
  returns : ∀ above stmts function back below,
    m.frames = above ++ .body stmts function back :: below →
      back = 1 + below.countP Frame.isCall
  /-- The end of a call drops its scope, counts the call off and leaves all other scopes. -/
  leaves : ∀ function back below, m.frames = .body [] function back :: below →
    ∃ m', m.visit? = some (.moved m') ∧ m'.frames = below ∧ m'.scopes = m.scopes.pop ∧
      m'.scopes.depth + 1 = m.scopes.depth ∧ m'.callDepth + 1 = m.callDepth
  /-- No more calls are active than the limit allows. -/
  limit : m.callDepth ≤ limits.maxCallDepth
  /-- At the end of the program no call is active and only the global scope is left. -/
  ended : m.frames = [] → m.callDepth = 0 ∧ m.scopes.locals = []

/-! ## Calls as a list of numbers -/

/-- The numbers from a number down to one. -/
def countdown : Nat → List Nat
  | 0 => []
  | n + 1 => (n + 1) :: countdown n

/-- `countdown` has as many numbers as the first one says. -/
@[simp] theorem length_countdown (n : Nat) : (countdown n).length = n := by
  induction n with
  | zero => rfl
  | succ n ih => rw [countdown, List.length_cons, ih]

/-- Each number of a `countdown` tells how many come after it. -/
theorem eq_length_succ_of_countdown {above below : List Nat} {back n : Nat}
    (split : countdown n = above ++ back :: below) : back = below.length + 1 := by
  induction above generalizing n with
  | nil =>
    cases n with
    | zero => cases split
    | succ n =>
      rw [countdown, List.nil_append] at split
      cases split
      rw [length_countdown]
  | cons first above ih =>
    cases n with
    | zero => cases split
    | succ n =>
      rw [countdown, List.cons_append] at split
      exact ih (List.cons.inj split).2

/-- The numbers of scopes to which the frames of calls go back, innermost first. -/
def backs (frames : List Frame) : List Nat := frames.filterMap Frame.back?

/-- `backs` of frames in a row are those of the first and of the others. -/
theorem backs_append (frames others : List Frame) :
    backs (frames ++ others) = backs frames ++ backs others :=
  List.filterMap_append

/-- `backs` gets from the frame of a call the number to which it goes back. -/
theorem backs_body (stmts : List Stmt) (function : String) (back : Nat) (below : List Frame) :
    backs (.body stmts function back :: below) = back :: backs below := rfl

/-- `backs` gets nothing from any other frame. -/
theorem backs_cons_of_none {top : Frame} (plain : top.back? = none) (below : List Frame) :
    backs (top :: below) = backs below :=
  List.filterMap_cons_none plain

/-- `backs` has as many numbers as there are frames of calls. -/
theorem length_backs (frames : List Frame) : (backs frames).length = frames.countP Frame.isCall :=
  List.length_filterMap_eq_countP

/-- Frames, a store and a number of active calls that agree: the calls go back to as many scopes as
there are, one less each time, down to the global one. -/
structure Nested (limits : Limits) (frames : List Frame) (store : Store) (depth : Nat) : Prop where
  /-- The calls go back to one scope less each time. -/
  backs_eq : backs frames = countdown depth
  /-- There is one scope for each active call, and the global one. -/
  scopes : store.scopes.depth = depth + 1
  /-- No more calls are active than the limit allows. -/
  limit : depth ≤ limits.maxCallDepth

namespace Nested

variable {limits : Limits} {top : Frame} {below pushed : List Frame} {store store' : Store}
  {depth depth' : Nat}

/-- Other frames with the same calls, and other scopes of the same number, are `Nested` as well. -/
theorem replace (nested : Nested limits (top :: below) store depth)
    (same : backs pushed = backs [top]) (scopes : store'.scopes.depth = store.scopes.depth) :
    Nested limits (pushed ++ below) store' depth where
  backs_eq := by
    rw [← nested.backs_eq, backs_append, same, ← backs_append, List.singleton_append]
  scopes := scopes.trans nested.scopes
  limit := nested.limit

/-- A call that is entered goes back to the scopes that there are, so the stack stays `Nested`. -/
theorem enter (nested : Nested limits (top :: below) store depth) (plain : top.back? = none)
    (shallow : depth < limits.maxCallDepth) (stmts : List Stmt) (function : String)
    (scope : Scope) :
    Nested limits (.body stmts function store.scopes.depth :: below)
      { store with scopes := store.scopes.push scope } (depth + 1) where
  backs_eq := by
    have calls := nested.backs_eq
    rw [backs_cons_of_none plain] at calls
    rw [backs_body, calls, nested.scopes, countdown]
  scopes := by
    rw [Scopes.depth_push, nested.scopes]
  limit := shallow

/-- On a `Nested` stack the innermost call goes back to all scopes but its own. -/
theorem back_eq {stmts : List Stmt} {function : String} {back : Nat}
    (nested : Nested limits (.body stmts function back :: below) store depth) :
    depth = back ∧ 0 < back ∧ backs below = countdown (depth - 1) := by
  have calls := nested.backs_eq
  rw [backs_body] at calls
  cases depth with
  | zero => cases calls
  | succ n =>
    rw [countdown] at calls
    obtain ⟨rfl, rest⟩ := List.cons.inj calls
    exact ⟨rfl, Nat.succ_pos n, rest⟩

/-- The end of a call goes back to the scopes before it, so the stack stays `Nested`. -/
theorem leave {function : String} {back : Nat}
    (nested : Nested limits (.body [] function back :: below) store depth) :
    Nested limits below { store with scopes := store.scopes.popTo back } (depth - 1) ∧
      store.scopes.popTo back = store.scopes.pop := by
  obtain ⟨rfl, positive, rest⟩ := nested.back_eq
  have scopes := nested.scopes
  have dropped := Scopes.popTo_eq_pop scopes
  obtain ⟨n, rfl⟩ : ∃ n, depth = n + 1 := ⟨depth - 1, by omega⟩
  refine ⟨⟨rest, ?_, ?_⟩, dropped⟩
  · rw [dropped]
    exact Scopes.depth_pop scopes
  · have limit := nested.limit
    omega

/-- **A visit that `Moves` on keeps calls, scopes and frames `Nested`.** -/
theorem moves (rule : Moves limits store depth top pushed store' depth')
    (nested : Nested limits (top :: below) store depth) :
    Nested limits (pushed ++ below) store' depth' := by
  cases rule with
  | blockNext stmt stmts =>
    exact nested.replace (backs_cons_of_none (Frame.back?_ofStmt stmt) _) rfl
  | blockEnd => exact nested.replace rfl rfl
  | bodyNext stmt stmts function back =>
    exact nested.replace (backs_cons_of_none (Frame.back?_ofStmt stmt) _) rfl
  | bodyEnd function back => exact nested.leave.1
  | round n body line => exact nested.replace rfl rfl
  | roundsEnd body line => exact nested.replace rfl rfl
  | loopNone body line evaluated => exact nested.replace rfl rfl
  | loop body line evaluated => exact nested.replace rfl rfl
  | branchNone body line => exact nested.replace rfl rfl
  | branchTaken body line holds => exact nested.replace rfl rfl
  | branchSkipped body line fails => exact nested.replace rfl rfl
  | assign name line evaluated => exact nested.replace rfl (Scopes.depth_assign _ _ _)
  | define name parameters body line => exact nested.replace rfl rfl
  | call implicit line resolved shallow => exact nested.enter rfl shallow _ _ _
  | block body line => exact nested.replace rfl rfl
  | missing => exact nested.replace rfl rfl

end Nested

/-! ## Every machine of a run -/

/-- The machines that a run `Reaches` have their calls, scopes and frames `Nested`. -/
theorem Reaches.nested {robot : Robot} {limits : Limits} {tracing : Bool} {program : Program}
    {m : Machine} (reached : (load robot limits tracing program).Reaches m) :
    Nested limits m.frames m.store m.callDepth := by
  refine reached.preserves ⟨rfl, rfl, Nat.zero_le _⟩ Nested.moves fun nested => ?_
  show Nested limits ([] ++ _) _ _
  exact nested.replace rfl rfl

/-- A `Nested` machine is `Disciplined`. -/
theorem Nested.disciplined {limits : Limits} {m : Machine}
    (nested : Nested limits m.frames m.store m.callDepth) : Disciplined limits m where
  calls := by
    rw [← length_backs, nested.backs_eq, length_countdown]
  scopes := nested.scopes
  returns := by
    intro above stmts function back below frames
    have split : countdown m.callDepth = backs above ++ back :: backs below := by
      rw [← nested.backs_eq, frames, backs_append, backs_body]
    rw [eq_length_succ_of_countdown split, length_backs, Nat.add_comm]
  leaves := by
    intro function back below frames
    have visit := visit?_of_frames frames
    rw [visitFrame, note_eq] at visit
    rw [frames] at nested
    obtain ⟨after, dropped⟩ := nested.leave
    obtain ⟨rfl, positive, -⟩ := nested.back_eq
    have scopes := nested.scopes
    refine ⟨_, visit, rfl, dropped, ?_, Nat.sub_add_cancel positive⟩
    have fewer := after.scopes
    change (m.scopes.popTo m.callDepth).depth + 1 = m.scopes.depth
    change (m.scopes.popTo m.callDepth).depth = m.callDepth - 1 + 1 at fewer
    change m.scopes.depth = m.callDepth + 1 at scopes
    omega
  limit := nested.limit
  ended := by
    intro none
    have calls := nested.backs_eq
    rw [none] at calls
    have zero : m.callDepth = 0 := by
      rw [← length_countdown m.callDepth, ← calls]
      rfl
    have scopes := nested.scopes
    change m.scopes.locals.length + 1 = m.callDepth + 1 at scopes
    exact ⟨zero, List.length_eq_zero_iff.mp (by omega)⟩

/-- **Calls, scopes and frames agree throughout a run.** Every machine that a run of a program comes
to without failing, also between the visits of a step, is `Disciplined`: there are as many frames of
calls and scopes beyond the global one as active calls, and no more than the limit; each call goes
back to the scopes below it and drops exactly its own; at the end only the global scope is left. The
machines after any number of steps without a fault are among these. -/
theorem reaches_disciplined (program : Program) (robot : Robot) (limits : Limits) (tracing : Bool) :
    let start := load robot limits tracing program
    (∀ m, start.Reaches m → Disciplined limits m) ∧
      ∀ n, (∀ k < n, (start.stepped k).fault? = none) → start.Reaches (start.stepped n) := by
  intro start
  refine ⟨fun m reached => reached.nested.disciplined, fun n fine => ?_⟩
  exact Reaches.start.stepped_of_fault? fine

/-- A program with a call inside a call: the inner one moves the robot. -/
def nestedCalls : Program :=
  ⟨[.define "inner" ["n"] [.loop (.var "n" 1) [.command .forward 1] 1] 1,
    .define "outer" [] [.call "inner" [.number 2 2] true 2] 2,
    .call "outer" [] true 3], 1⟩

/-- Inside the inner call, in the middle of a loop, two calls are active, as many as the limit
allows. -/
theorem reaches_disciplined_nestedCalls :
    let robot := Robot.start ⟨[[.empty, .empty, .empty]]⟩ ⟨0, 0⟩ .east
    let m := (load robot ⟨2, 20⟩ false nestedCalls).stepped 1
    m.callDepth = 2 ∧ m.robot.path = [⟨0, 0⟩, ⟨1, 0⟩] ∧
      (load robot ⟨2, 20⟩ false nestedCalls).Reaches m ∧ Disciplined ⟨2, 20⟩ m := by
  intro robot m
  obtain ⟨all, steps⟩ := reaches_disciplined nestedCalls robot ⟨2, 20⟩ false
  have fine : ∀ k < 1, ((load robot ⟨2, 20⟩ false nestedCalls).stepped k).fault? = none := by
    decide +kernel
  have reached := steps 1 fine
  exact ⟨by decide +kernel, by decide +kernel, reached, all m reached⟩

end Machine

end MazeRobot
