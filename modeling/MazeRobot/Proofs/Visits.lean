import MazeRobot.Proofs.Interpreter
import Mathlib.Data.List.ReduceOption

/-! # Visits and steps

How the visits of a machine add up to steps. A trace lists visits, each with the command that came
up in it, if one did. Whether a machine gets through a trace depends on its budget only by the
number of visits from one command to the next, so what a program does can be said by traces first
and turned into steps later.

* `Machine.Goes`, `Machine.Halts`: the visits from one machine to another, and to the end.
* `Trace.fits`: whether a budget allows the visits of a trace.
* `Machine.Halts.exists_stepTimes`: the steps of a machine that halts. -/

namespace MazeRobot

/-- Visits in a row, each with the command that came up, if one did. -/
abbrev Trace := List (Option (Command × Int))

namespace Machine

/-- What the program of a machine reads and changes. -/
def store (m : Machine) : Store := ⟨m.robot, m.functions, m.scopes⟩

/-- The machine after its robot got a command. -/
def obey (m : Machine) (kind : Command) : Machine :=
  { m with robot := (m.robot.perform kind).1, steps := m.steps + 1 }

/-! ## What no visit changes -/

/-- `note` changes the journal only. -/
@[simp] theorem note_eq (m : Machine) (event : Event) :
    m.note event =
      { m with journal := if m.tracing then event :: m.journal else m.journal } := by
  unfold note
  split <;> rfl

/-- `ask` does not end the run of the robot. -/
@[simp] theorem done_ask (robot : Robot) (condition : Condition) :
    (ask robot condition).1.done = robot.done := by
  unfold ask
  split <;> rfl

/-- `enter` keeps the limits and the robot. -/
theorem enter_keeps (m : Machine) (name : String) (arguments : List Expr) (line : Int) :
    (m.enter name arguments line).machine.limits = m.limits ∧
      (m.enter name arguments line).machine.robot = m.robot := by
  unfold enter
  repeat' split
  all_goals simp [Visit.machine]

/-- `run` keeps the limits, and whether the run of the robot is over. -/
theorem run_keeps (m : Machine) (stmt : Stmt) :
    (m.run stmt).machine.limits = m.limits ∧
      (m.run stmt).machine.robot.done = m.robot.done := by
  cases stmt with
  | call name arguments implicit line =>
    obtain ⟨limits, robot⟩ := m.enter_keeps name arguments line
    exact ⟨limits, by rw [run, robot]⟩
  | loop count body line =>
    simp only [run]
    repeat' split
    all_goals simp [Visit.machine]
  | branch condition body line =>
    cases condition <;> simp [run, Visit.machine]
  | assign name value line =>
    simp only [run]
    split <;> simp [Visit.machine]
  | _ => simp [run, Visit.machine]

/-- `visit?` keeps the limits, and whether the run of the robot is over. -/
theorem visit?_keeps {m : Machine} {v : Visit} (visit : m.visit? = some v) :
    v.machine.limits = m.limits ∧ v.machine.robot.done = m.robot.done := by
  unfold visit? at visit
  split at visit
  · cases visit
  · next frame rest _ =>
    cases visit
    cases frame with
    | stmt stmt => exact run_keeps { m with frames := rest } stmt
    | block stmts => cases stmts <;> simp [visitFrame, Visit.machine]
    | body stmts function depth => cases stmts <;> simp [visitFrame, Visit.machine]
    | loop remaining body line => cases remaining <;> simp [visitFrame, Visit.machine]

/-! ## Traces -/

/-- The visits from one machine to another. The run of the robot is not over in between. -/
inductive Goes : Machine → Trace → Machine → Prop
  /-- No visit. -/
  | stay (m : Machine) : Goes m [] m
  /-- A visit without a command, and more visits. -/
  | moved {m middle last : Machine} {trace : Trace} (visit : m.visit? = some (.moved middle))
      (rest : Goes middle trace last) : Goes m (none :: trace) last
  /-- A visit with a command, and more visits. -/
  | command {m middle last : Machine} {kind : Command} {line : Int} {trace : Trace}
      (visit : m.visit? = some (.command kind line middle))
      (running : (middle.obey kind).robot.done = false)
      (rest : Goes (middle.obey kind) trace last) : Goes m (some (kind, line) :: trace) last

/-- The visits from a machine up to its end. -/
inductive Halts : Machine → Trace → Machine → Prop
  /-- Nothing is left to run. -/
  | ended {m : Machine} (none : m.frames = []) : Halts m [] m
  /-- A visit with a fault. -/
  | failed {m middle : Machine} {fault : Fault} (visit : m.visit? = some (.failed fault middle)) :
      Halts m [none] (middle.fail fault)
  /-- A visit with a command that ends the run of the robot. -/
  | stopped {m middle : Machine} {kind : Command} {line : Int}
      (visit : m.visit? = some (.command kind line middle))
      (ended : (middle.obey kind).robot.done = true) :
      Halts m [some (kind, line)] (middle.obey kind)
  /-- A visit without a command, and more visits. -/
  | moved {m middle last : Machine} {trace : Trace} (visit : m.visit? = some (.moved middle))
      (rest : Halts middle trace last) : Halts m (none :: trace) last
  /-- A visit with a command, and more visits. -/
  | command {m middle last : Machine} {kind : Command} {line : Int} {trace : Trace}
      (visit : m.visit? = some (.command kind line middle))
      (running : (middle.obey kind).robot.done = false)
      (rest : Halts (middle.obey kind) trace last) : Halts m (some (kind, line) :: trace) last

/-- `Goes` is transitive: visits may be followed by more visits. -/
theorem Goes.trans {m middle last : Machine} {first second : Trace} (goes : Goes m first middle)
    (on : Goes middle second last) : Goes m (first ++ second) last := by
  induction goes with
  | stay => exact on
  | moved visit _ ih => exact .moved visit (ih on)
  | command visit running _ ih => exact .command visit running (ih on)

/-- Where a machine `Goes` to one that `Halts` it halts after the visits of both. -/
theorem Goes.halts {m middle last : Machine} {first second : Trace} (goes : Goes m first middle)
    (on : Halts middle second last) : Halts m (first ++ second) last := by
  induction goes with
  | stay => exact on
  | moved visit _ ih => exact .moved visit (ih on)
  | command visit running _ ih => exact .command visit running (ih on)

/-! ## What limits mean for visits -/

/-- The machine with other limits. -/
def withLimits (m : Machine) (limits : Limits) : Machine := { m with limits }

/-- The visit of the machine with other limits. -/
def Visit.withLimits (limits : Limits) : Visit → Visit
  | .moved m => .moved (m.withLimits limits)
  | .command kind line m => .command kind line (m.withLimits limits)
  | .failed fault m => .failed fault (m.withLimits limits)

/-- Whether a visit fails because a call nests too deeply. -/
def Visit.TooDeep : Visit → Prop
  | .failed fault _ => fault.kind = .recursionLimit
  | _ => False

/-- `evaluate` does not depend on the limits. -/
theorem evaluate_withLimits (m : Machine) (limits : Limits) (expr : Expr) :
    (m.withLimits limits).evaluate expr = m.evaluate expr := by
  cases expr <;> rfl

/-- `evaluateAll` does not depend on the limits. -/
theorem evaluateAll_withLimits (m : Machine) (limits : Limits) (exprs : List Expr) :
    (m.withLimits limits).evaluateAll exprs = m.evaluateAll exprs := by
  induction exprs with
  | nil => rfl
  | cons expr exprs ih => rw [evaluateAll, evaluateAll, ih, evaluate_withLimits]

/-- `enter` does the same where calls may nest deeper, unless this call is `TooDeep`. -/
theorem enter_withLimits {m : Machine} {limits : Limits} {name : String} {arguments : List Expr}
    {line : Int} (raised : m.limits.maxCallDepth ≤ limits.maxCallDepth)
    (spared : (m.enter name arguments line).TooDeep →
      limits.maxCallDepth = m.limits.maxCallDepth) :
    (m.withLimits limits).enter name arguments line =
      (m.enter name arguments line).withLimits limits := by
  have table : (m.withLimits limits).function? name = m.function? name := rfl
  simp only [enter, note_eq] at spared
  simp only [enter, table, evaluateAll_withLimits, note_eq]
  cases known : m.function? name with
  | none => rfl
  | some f =>
    cases evaluated : m.evaluateAll arguments with
    | error fault => rfl
    | ok values =>
      simp only [known, evaluated] at spared
      dsimp only
      by_cases arity : values.length ≠ f.parameters.length
      · rw [if_pos arity, if_pos arity]
        rfl
      · rw [if_neg arity] at spared
        rw [if_neg arity, if_neg arity]
        have depth : (m.withLimits limits).callDepth = m.callDepth := rfl
        have ceiling : (m.withLimits limits).limits.maxCallDepth = limits.maxCallDepth := rfl
        rw [depth, ceiling]
        by_cases deep : m.limits.maxCallDepth ≤ m.callDepth
        · -- The fault tells the limit, so only the same limit gives the same fault.
          rw [if_pos deep] at spared
          have same := spared rfl
          rw [same, if_pos deep, if_pos deep]
          rfl
        · have shallow : ¬ limits.maxCallDepth ≤ m.callDepth := by omega
          rw [if_neg deep, if_neg shallow]
          rfl

/-- `run` does the same where calls may nest deeper, unless the statement is a call that is
`TooDeep`. -/
theorem run_withLimits {m : Machine} {limits : Limits} {stmt : Stmt}
    (raised : m.limits.maxCallDepth ≤ limits.maxCallDepth)
    (spared : (m.run stmt).TooDeep → limits.maxCallDepth = m.limits.maxCallDepth) :
    (m.withLimits limits).run stmt = (m.run stmt).withLimits limits := by
  cases stmt with
  | call name arguments implicit line => exact enter_withLimits raised spared
  | loop count body line =>
    simp only [run, evaluate_withLimits, note_eq]
    cases m.evaluate count with
    | error fault => rfl
    | ok value =>
      dsimp only
      by_cases negative : value < 0
      · rw [if_pos negative, if_pos negative]
        rfl
      · rw [if_neg negative, if_neg negative]
        cases value.toNat <;> rfl
  | branch condition body line => cases condition <;> rfl
  | assign name value line =>
    simp only [run, evaluate_withLimits]
    cases m.evaluate value <;> rfl
  | _ => rfl

/-- **`visit?` is the same where calls may nest deeper**, unless it is that of a call that is
`TooDeep`. The budget plays no part in it. -/
theorem visit?_withLimits {m : Machine} {v : Visit} (visit : m.visit? = some v) {limits : Limits}
    (raised : m.limits.maxCallDepth ≤ limits.maxCallDepth)
    (spared : v.TooDeep → limits.maxCallDepth = m.limits.maxCallDepth) :
    (m.withLimits limits).visit? = some (v.withLimits limits) := by
  unfold visit? at visit
  split at visit
  · cases visit
  · next frame rest top =>
    cases visit
    rw [visit?_of_frames (m := m.withLimits limits) top]
    cases frame with
    | stmt stmt =>
      exact congrArg some (run_withLimits (m := { m with frames := rest }) raised spared)
    | block stmts => cases stmts <;> rfl
    | body stmts function depth =>
      cases stmts with
      | nil => simp only [visitFrame, note_eq]; rfl
      | cons => rfl
    | loop remaining body line => cases remaining <;> rfl

/-- The machine with another budget. -/
def withBudget (m : Machine) (budget : Nat) : Machine :=
  { m with limits := { m.limits with stepBudget := budget } }

/-- The visit of the machine with another budget. -/
def Visit.withBudget (budget : Nat) : Visit → Visit
  | .moved m => .moved (m.withBudget budget)
  | .command kind line m => .command kind line (m.withBudget budget)
  | .failed fault m => .failed fault (m.withBudget budget)

/-- `visit?` does not depend on the budget. -/
theorem visit?_withBudget {m : Machine} {v : Visit} (visit : m.visit? = some v) (budget : Nat) :
    (m.withBudget budget).visit? = some (v.withBudget budget) := by
  have kept := (visit?_keeps visit).1
  have other : (m.withBudget budget).visit? =
      some (v.withLimits { m.limits with stepBudget := budget }) :=
    visit?_withLimits visit (Nat.le_refl _) fun _ => rfl
  rw [other, ← kept]
  cases v <;> rfl

/-- How a machine `Halts` does not depend on the budget. -/
theorem Halts.withBudget {m last : Machine} {trace : Trace} (halts : Halts m trace last)
    (budget : Nat) : Halts (m.withBudget budget) trace (last.withBudget budget) := by
  induction halts with
  | ended none => exact .ended none
  | @failed m middle fault visit =>
    have same : (middle.fail fault).withBudget budget = (middle.withBudget budget).fail fault := by
      simp only [fail, note_eq]
      rfl
    exact same ▸ .failed (visit?_withBudget visit budget)
  | stopped visit ended => exact .stopped (visit?_withBudget visit budget) ended
  | moved visit _ ih => exact .moved (visit?_withBudget visit budget) ih
  | command visit running _ ih => exact .command (visit?_withBudget visit budget) running ih

/-- `fail` leaves nothing to run. -/
@[simp] theorem frames_fail (m : Machine) (fault : Fault) : (m.fail fault).frames = [] := by
  simp [fail]

/-- Where a machine `Halts` it may not go on. -/
theorem Halts.hasMore_eq_false {m last : Machine} {trace : Trace} (halts : Halts m trace last) :
    last.hasMore = false := by
  induction halts with
  | ended none => simp [hasMore, none]
  | failed => simp [hasMore]
  | stopped _ ended => simp [hasMore, ended]
  | moved _ _ ih => exact ih
  | command _ _ _ ih => exact ih

end Machine

/-! ## Texts of faults -/

/-- A text that starts with something is not empty. -/
theorem isEmpty_append_of_left {a : String} (some : a.isEmpty = false) (b : String) :
    (a ++ b).isEmpty = false := by
  simp only [String.isEmpty, String.utf8ByteSize_append, beq_eq_false_iff_ne] at some ⊢
  omega

/-- The `detail` of a notice with a message tells something. -/
theorem Notice.isEmpty_detail {notice : Notice} (some : notice.message.isEmpty = false) :
    notice.detail.isEmpty = false := by
  have text : notice.text.isEmpty = false := by
    simp only [Notice.text]
    split
    · exact isEmpty_append_of_left some _
    · exact some
  unfold Notice.detail
  split
  · exact isEmpty_append_of_left text _
  · exact text

/-- The `message` of a cause is never empty. -/
theorem Cause.isEmpty_message (cause : Cause) : cause.message.isEmpty = false := by
  unfold Cause.message
  split
  all_goals simp [String.isEmpty_eq_false_iff, toString]

/-- The `detail` of a fault is never empty. -/
theorem Fault.isEmpty_detail (fault : Fault) : fault.detail.isEmpty = false :=
  Notice.isEmpty_detail (Cause.isEmpty_message fault.cause)

/-! ## Budgets -/

/-- Whether a budget allows the visits of a trace, where `left` visits are left up to the first
command. A command makes the whole budget available again. -/
def Trace.fits (budget : Nat) : Nat → Trace → Bool
  | _, [] => true
  | 0, _ :: _ => false
  | left + 1, none :: trace => fits budget left trace
  | _ + 1, some _ :: trace => fits budget budget trace

/-- A trace that is no longer than the budget `fits` it. -/
theorem Trace.fits_of_length_le {budget left : Nat} {trace : Trace}
    (enough : trace.length ≤ left) (more : left ≤ budget) : trace.fits budget left = true := by
  induction trace generalizing left with
  | nil => simp [fits]
  | cons entry trace ih =>
    rw [List.length_cons] at enough
    cases left with
    | zero => omega
    | succ left =>
      cases entry with
      | none => exact ih (by omega) (by omega)
      | some issued => exact ih (by omega) (Nat.le_refl budget)

/-- A trace that `fits` also does so with more visits left. -/
theorem Trace.fits_mono {budget left more : Nat} {trace : Trace}
    (fits : trace.fits budget left = true) (le : left ≤ more) : trace.fits budget more = true := by
  induction trace generalizing left more with
  | nil => simp [Trace.fits]
  | cons entry trace ih =>
    cases left with
    | zero => cases fits
    | succ left =>
      cases more with
      | zero => omega
      | succ more =>
        cases entry with
        | none => exact ih fits (Nat.le_of_succ_le_succ le)
        | some issued => exact fits

namespace Machine

/-- A machine that has used up its budget: its robot has failed for that reason and nothing is left
to run. -/
def Exhausted (m : Machine) (budget : Nat) : Prop :=
  m.frames = [] ∧
    ∃ line, m.robot.failure? = some (Fault.detail ⟨.budgetExceeded budget, line, 0⟩)

/-- The commands that the results of some steps report. -/
def issued (results : List StepResult) : List (Command × Int) := results.filterMap (·.issued)

/-- The machine and the result after running up to the next command. -/
def conclude : Advance → Machine × StepResult
  | .ended m => (m, .nothing)
  | .failed fault m => (m.fail fault, .nothing)
  | .command kind line m => (m.obey kind, ⟨!(m.obey kind).robot.done, some (kind, line)⟩)

/-- A step, and at most `n` more, where `left` visits are left for the first one. -/
def stepsFrom (m : Machine) (left n : Nat) : Machine × List StepResult :=
  let (middle, result) := conclude (m.advance left)
  let (last, results) := middle.stepTimes n
  (last, result :: results)

/-- `step` runs up to the next command with the whole budget. -/
theorem step_eq_conclude {m : Machine} (running : m.robot.done = false) :
    m.step = conclude (m.advance m.limits.stepBudget) := by
  rw [step, running]
  cases m.advance m.limits.stepBudget <;> rfl

/-- `stepTimes` of a machine that may go on starts with the whole budget. -/
theorem stepTimes_succ {m : Machine} (more : m.hasMore = true) (n : Nat) :
    m.stepTimes (n + 1) = m.stepsFrom m.limits.stepBudget n := by
  have running : m.robot.done = false := by simp_all [hasMore]
  rw [stepTimes, if_pos more, step_eq_conclude running]
  rfl

/-- `stepTimes` of a machine that may not go on takes no steps. -/
theorem stepTimes_of_hasMore_eq_false {m : Machine} (no : m.hasMore = false) (n : Nat) :
    m.stepTimes n = (m, []) := by
  cases n with
  | zero => rfl
  | succ n => rw [stepTimes, no, if_neg Bool.false_ne_true]

/-- `stepTimes` by a sum takes its steps in two parts. -/
theorem stepTimes_add (m : Machine) (first second : Nat) :
    (m.stepTimes (first + second)).1 = ((m.stepTimes first).1.stepTimes second).1 := by
  induction first generalizing m with
  | zero => rw [Nat.zero_add, stepTimes]
  | succ first ih =>
    cases more : m.hasMore with
    | false => rw [stepTimes_of_hasMore_eq_false more, stepTimes_of_hasMore_eq_false more,
        stepTimes_of_hasMore_eq_false more]
    | true =>
      rw [Nat.succ_add, stepTimes, stepTimes, more]
      exact ih m.step.1

/-- A robot that has not failed at the end of `stepTimes` has not failed before. -/
theorem failure?_stepTimes {m : Machine} {n : Nat} (stopped : (m.stepTimes n).1.hasMore = false)
    (fine : (m.stepTimes n).1.robot.failure? = none) (j : Nat) :
    (m.stepTimes j).1.robot.failure? = none := by
  rcases Nat.le_total n j with le | le
  · obtain ⟨more, rfl⟩ := Nat.exists_eq_add_of_le le
    rw [stepTimes_add, stepTimes_of_hasMore_eq_false stopped]
    exact fine
  · obtain ⟨more, rfl⟩ := Nat.exists_eq_add_of_le le
    cases failure : (m.stepTimes j).1.robot.failure? with
    | none => rfl
    | some message =>
      -- A robot that has failed gets no further, so the failure would still be there at the end.
      have no : (m.stepTimes j).1.hasMore = false := by simp [hasMore, Robot.done, failure]
      rw [stepTimes_add, stepTimes_of_hasMore_eq_false no, failure] at fine
      cases fine

/-- A machine that is `Exhausted` after the first step stays so. -/
theorem Exhausted.stepTimes_succ {m : Machine} {budget : Nat}
    (exhausted : m.step.1.Exhausted budget) (more : m.hasMore = true) (n : Nat) :
    (m.stepTimes (n + 1)).1.Exhausted budget := by
  have no : m.step.1.hasMore = false := by rw [hasMore, exhausted.1]; rfl
  rw [stepTimes, if_pos more]
  dsimp only
  rw [stepTimes_of_hasMore_eq_false no]
  exact exhausted

/-- A machine that runs out of budget is `Exhausted`. -/
theorem exhausted_fail {m : Machine} (running : m.robot.done = false) (budget : Nat) (line : Int) :
    (m.fail ⟨.budgetExceeded budget, line, 0⟩).Exhausted budget := by
  refine ⟨frames_fail m _, line, ?_⟩
  simp [fail, Robot.fail, running, Fault.isEmpty_detail]

/-- What stepping a machine comes to whose visits up to `last` are those of a trace: that end, where
the budget allows it, and an exhausted machine otherwise. -/
def ComesTo (budget : Nat) (fits : Bool) (trace : Trace) (last : Machine)
    (stepped : Machine × List StepResult) : Prop :=
  if fits then stepped.1 = last ∧ issued stepped.2 = trace.reduceOption
  else stepped.1.Exhausted budget ∧ issued stepped.2 <+: trace.reduceOption

/-- A command at the front of a trace is reported before the others, as `ComesTo` says. -/
theorem ComesTo.cons {budget : Nat} {fits : Bool} {trace : Trace} {last : Machine}
    {stepped : Machine × List StepResult} {kind : Command} {line : Int} {more : Bool}
    (outcome : ComesTo budget fits trace last stepped) :
    ComesTo budget fits (some (kind, line) :: trace) last
      (stepped.1, ⟨more, some (kind, line)⟩ :: stepped.2) := by
  unfold ComesTo at outcome ⊢
  cases fits with
  | true => simpa [issued, List.reduceOption_cons_of_some] using outcome
  | false => simpa [issued, List.reduceOption_cons_of_some, List.cons_prefix_cons] using outcome

/-- A machine with a visit ahead and no budget left `ComesTo` its end at once, exhausted. -/
theorem comesTo_stepsFrom_zero {m : Machine} {v : Visit} (visit : m.visit? = some v)
    (running : m.robot.done = false) (trace : Trace) (last : Machine) :
    ComesTo m.limits.stepBudget false trace last (m.stepsFrom 0 0) := by
  have out := exhausted_fail running m.limits.stepBudget m.currentLine
  simp [ComesTo, stepsFrom, advance_zero visit, conclude, stepTimes, issued, StepResult.nothing,
    out]

/-- A machine without a frame `Halts` with no more visits. -/
theorem Halts.eq_of_frames_eq_nil {m last : Machine} {trace : Trace} (halts : Halts m trace last)
    (none : m.frames = []) : trace = [] ∧ last = m := by
  cases halts with
  | ended => exact ⟨rfl, rfl⟩
  | failed visit => exact absurd none (frames_ne_nil_of_visit? visit)
  | stopped visit => exact absurd none (frames_ne_nil_of_visit? visit)
  | moved visit => exact absurd none (frames_ne_nil_of_visit? visit)
  | command visit => exact absurd none (frames_ne_nil_of_visit? visit)

/-- `stepsFrom` the whole budget is `stepTimes` while the machine may go on. -/
theorem Halts.exists_stepTimes_of_stepsFrom {m last : Machine} {trace : Trace}
    (halts : Halts m trace last) (running : m.robot.done = false) {budget : Nat} {fits : Bool}
    (fitting : trace = [] → fits = true)
    (stepped : ∃ n, ComesTo budget fits trace last (m.stepsFrom m.limits.stepBudget n)) :
    ∃ n, ComesTo budget fits trace last (m.stepTimes n) := by
  by_cases more : m.hasMore = true
  · obtain ⟨n, outcome⟩ := stepped
    exact ⟨n + 1, stepTimes_succ more n ▸ outcome⟩
  · have none : m.frames = [] := by simpa [hasMore, running] using more
    obtain ⟨rfl, rfl⟩ := halts.eq_of_frames_eq_nil none
    exact ⟨0, by simp [ComesTo, fitting rfl, stepTimes, issued]⟩

/-- What `stepsFrom` `ComesTo` for a machine that `Halts` with the visits of a trace, where some
visits are left for the first step. -/
theorem Halts.exists_stepsFrom {m last : Machine} {trace : Trace} (halts : Halts m trace last)
    (running : m.robot.done = false) (left : Nat) :
    ∃ n, ComesTo m.limits.stepBudget (trace.fits m.limits.stepBudget left) trace last
      (m.stepsFrom left n) := by
  induction halts generalizing left with
  | @ended m none =>
    refine ⟨0, ?_⟩
    simp [ComesTo, Trace.fits, stepsFrom, advance_of_frames_eq_nil none, conclude, stepTimes,
      issued, StepResult.nothing]
  | @failed m middle fault visit =>
    refine ⟨0, ?_⟩
    cases left with
    | zero => exact comesTo_stepsFrom_zero visit running _ _
    | succ left =>
      simp [ComesTo, Trace.fits, stepsFrom, advance_succ visit, Visit.advance, conclude, stepTimes,
        issued, StepResult.nothing]
  | @stopped m middle kind line visit ended =>
    refine ⟨0, ?_⟩
    cases left with
    | zero => exact comesTo_stepsFrom_zero visit running _ _
    | succ left =>
      simp [ComesTo, Trace.fits, stepsFrom, advance_succ visit, Visit.advance, conclude, stepTimes,
        issued, List.reduceOption]
  | @moved m middle last trace visit rest ih =>
    cases left with
    | zero => exact ⟨0, comesTo_stepsFrom_zero visit running _ _⟩
    | succ left =>
      -- The visit belongs to the first step and takes one of the visits left to it.
      obtain ⟨limits, done⟩ := visit?_keeps visit
      obtain ⟨n, outcome⟩ := ih (done.trans running) left
      refine ⟨n, ?_⟩
      have same : m.stepsFrom (left + 1) n = middle.stepsFrom left n := by
        simp only [stepsFrom, advance_succ visit, Visit.advance]
      rw [same, Trace.fits, ← limits]
      exact outcome
  | @command m middle last kind line trace visit on rest ih =>
    cases left with
    | zero => exact ⟨0, comesTo_stepsFrom_zero visit running _ _⟩
    | succ left =>
      -- The command ends the first step; the next one starts with the whole budget.
      have limits : (middle.obey kind).limits = m.limits := (visit?_keeps visit).1
      have fitting : trace = [] →
          trace.fits m.limits.stepBudget m.limits.stepBudget = true := by
        rintro rfl
        rfl
      have stepped : ∃ n, ComesTo m.limits.stepBudget
          (trace.fits m.limits.stepBudget m.limits.stepBudget) trace last
            ((middle.obey kind).stepsFrom (middle.obey kind).limits.stepBudget n) := by
        rw [← limits]
        exact ih on _
      obtain ⟨n, outcome⟩ := rest.exists_stepTimes_of_stepsFrom on fitting stepped
      refine ⟨n, ?_⟩
      have report : m.stepsFrom (left + 1) n = (((middle.obey kind).stepTimes n).1,
          ⟨true, some (kind, line)⟩ :: ((middle.obey kind).stepTimes n).2) := by
        simp only [stepsFrom, advance_succ visit, Visit.advance, conclude, on]
        rfl
      rw [report, Trace.fits]
      exact outcome.cons

/-- What `stepTimes` `ComesTo` for a machine that `Halts` with the visits of a trace: all the
commands of the trace where the budget allows it, and otherwise some of them and a robot that failed
for lack of budget. In both cases the machine may not go on afterwards. -/
theorem Halts.exists_stepTimes {m last : Machine} {trace : Trace} (halts : Halts m trace last)
    (running : m.robot.done = false) :
    ∃ n, (m.stepTimes n).1.hasMore = false ∧
      ComesTo m.limits.stepBudget (trace.fits m.limits.stepBudget m.limits.stepBudget) trace last
        (m.stepTimes n) := by
  have fitting : trace = [] → trace.fits m.limits.stepBudget m.limits.stepBudget = true := by
    rintro rfl
    rfl
  obtain ⟨n, outcome⟩ := halts.exists_stepTimes_of_stepsFrom running fitting
    (halts.exists_stepsFrom running m.limits.stepBudget)
  refine ⟨n, ?_, outcome⟩
  unfold ComesTo at outcome
  split at outcome
  · exact outcome.1 ▸ halts.hasMore_eq_false
  · simp [hasMore, outcome.1.1]

/-- What `stepTimes` comes to for a machine that `Halts` with the visits of a trace that the budget
allows. -/
theorem Halts.exists_stepTimes_of_fits {m last : Machine} {trace : Trace}
    (halts : Halts m trace last) (running : m.robot.done = false)
    (fits : trace.fits m.limits.stepBudget m.limits.stepBudget = true) :
    ∃ n, (m.stepTimes n).1.hasMore = false ∧ (m.stepTimes n).1 = last ∧
      issued (m.stepTimes n).2 = trace.reduceOption := by
  obtain ⟨n, stopped, outcome⟩ := halts.exists_stepTimes running
  rw [ComesTo, if_pos fits] at outcome
  exact ⟨n, stopped, outcome⟩

end Machine

end MazeRobot
