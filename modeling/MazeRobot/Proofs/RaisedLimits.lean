import MazeRobot.Proofs.Reachable

/-! # Limits that are not reached do not matter

A machine reads its limits in two places only: before a call, and when the budget of a step is used
up. Both times it does nothing but fail, and tells the limit in the fault. So a run that comes to no
such fault is the same under higher limits, up to the last frame of its stack.

* `Fault.TellsLimit`: the two faults that tell of a limit.
* `Machine.advance_withLimits`, `Machine.step_withLimits`: running up to the next command and one
  step under higher limits.
* `Machine.stepped_withLimits`: any number of steps.
* `Machine.run_unchanged_of_raisedLimits`: the run of a program. -/

namespace MazeRobot

/-- Whether a fault tells that a limit was reached. -/
def Fault.TellsLimit (fault : Fault) : Prop :=
  fault.kind = .stepBudgetExceeded ∨ fault.kind = .recursionLimit

namespace Machine

/-! ## Limits stay the same -/

/-- `advance` keeps the limits. -/
theorem limits_advance (m : Machine) (left : Nat) : (m.advance left).machine.limits = m.limits :=
  advance_keeps (·.limits) (fun visit => (visit?_keeps visit).1) m left

/-- `step` keeps the limits. -/
theorem limits_step (m : Machine) : m.step.1.limits = m.limits := by
  cases running : m.robot.done with
  | true => rw [step, if_pos running]
  | false =>
    have kept := m.limits_advance m.limits.stepBudget
    rw [step_eq_conclude running]
    cases advanced : m.advance m.limits.stepBudget with
    | ended m' =>
      rw [advanced] at kept
      exact kept
    | command kind line m' =>
      rw [advanced] at kept
      exact kept
    | failed fault m' =>
      rw [advanced] at kept
      rw [conclude, fail, note_eq]
      exact kept

/-! ## Running under higher limits -/

/-- What running up to the next command leads to in the machine with other limits. -/
def Advance.withLimits (limits : Limits) : Advance → Advance
  | .command kind line m => .command kind line (m.withLimits limits)
  | .ended m => .ended (m.withLimits limits)
  | .failed fault m => .failed fault (m.withLimits limits)

section Raised

variable {m : Machine} {limits : Limits}

/-- `advance` is the same with a greater budget and where calls may nest deeper, unless it fails and
`TellsLimit`. -/
theorem advance_withLimits {left more : Nat}
    (deeper : m.limits.maxCallDepth ≤ limits.maxCallDepth) (le : left ≤ more)
    (spared : ∀ fault m', m.advance left = .failed fault m' → ¬ fault.TellsLimit) :
    (m.withLimits limits).advance more = (m.advance left).withLimits limits := by
  induction m, left using advance_induction generalizing more with
  | ended m left none advanced =>
    rw [advanced, advance_of_frames_eq_nil (m := m.withLimits limits) none]
    rfl
  | spent m v visit advanced =>
    -- Without budget a machine with a frame tells of its budget.
    exact absurd (.inl rfl) (spared _ _ advanced)
  | moved m left next visit advanced ih =>
    obtain ⟨more, rfl⟩ : ∃ n, more = n + 1 := ⟨more - 1, by omega⟩
    have kept : next.limits = m.limits := (visit?_keeps visit).1
    rw [advanced, advance_succ (visit?_withLimits visit deeper fun deep => by cases deep)]
    refine ih (kept ▸ deeper) (Nat.le_of_succ_le_succ le) fun fault last failed => ?_
    exact spared fault last (advanced.trans failed)
  | command m left kind line next visit advanced =>
    obtain ⟨more, rfl⟩ : ∃ n, more = n + 1 := ⟨more - 1, by omega⟩
    rw [advanced, advance_succ (visit?_withLimits visit deeper fun deep => by cases deep)]
    rfl
  | failed m left fault next visit advanced =>
    obtain ⟨more, rfl⟩ : ∃ n, more = n + 1 := ⟨more - 1, by omega⟩
    have told := spared fault next advanced
    rw [advanced, advance_succ (visit?_withLimits visit deeper fun deep => absurd (.inr deep) told)]
    rfl

/-- `conclude` does not depend on the limits. -/
theorem conclude_withLimits (a : Advance) :
    conclude (a.withLimits limits) = ((conclude a).1.withLimits limits, (conclude a).2) := by
  cases a with
  | command kind line m => rfl
  | ended m => rfl
  | failed fault m =>
    simp only [Advance.withLimits, conclude, fail, note_eq]
    rfl

/-- **`step` is the same under higher limits**, unless it fails and `TellsLimit`. -/
theorem step_withLimits (deeper : m.limits.maxCallDepth ≤ limits.maxCallDepth)
    (longer : m.limits.stepBudget ≤ limits.stepBudget)
    (spared : ∀ fault, m.fault? = some fault → ¬ fault.TellsLimit) :
    (m.withLimits limits).step = (m.step.1.withLimits limits, m.step.2) := by
  have robots : (m.withLimits limits).robot.done = m.robot.done := rfl
  cases running : m.robot.done with
  | true => rw [step, step, if_pos running, if_pos (robots.trans running)]
  | false =>
    have advanced := advance_withLimits deeper longer fun fault m' failed =>
      spared fault (fault?_eq_some_iff.mpr ⟨running, m', failed⟩)
    rw [step_eq_conclude running, step_eq_conclude (robots.trans running)]
    change conclude ((m.withLimits limits).advance limits.stepBudget) = _
    rw [advanced, conclude_withLimits]

/-- **`stepped` is the same under higher limits**, as long as no step fails and `TellsLimit`. -/
theorem stepped_withLimits (deeper : m.limits.maxCallDepth ≤ limits.maxCallDepth)
    (longer : m.limits.stepBudget ≤ limits.stepBudget) {n : Nat}
    (spared : ∀ k < n, ∀ fault, (m.stepped k).fault? = some fault → ¬ fault.TellsLimit) :
    (m.withLimits limits).stepped n = (m.stepped n).withLimits limits := by
  induction n generalizing m with
  | zero => rfl
  | succ n ih =>
    have first := step_withLimits deeper longer (spared 0 (Nat.succ_pos n))
    have kept := m.limits_step
    rw [stepped, stepped, first]
    refine ih (kept ▸ deeper) (kept ▸ longer) fun k less => ?_
    exact spared (k + 1) (Nat.succ_lt_succ less)

/-- `stepped` keeps the limits. -/
theorem limits_stepped (m : Machine) (n : Nat) : (m.stepped n).limits = m.limits := by
  induction n generalizing m with
  | zero => rfl
  | succ n ih => exact (ih m.step.1).trans m.limits_step

end Raised

/-! ## Runs of programs -/

/-- **Raising the limits does not change a run that does not reach them.** If none of the first
steps of a program fails because the budget is used up or because a call nests too deeply, then with
a budget and a call depth that are at least as great the same steps do the same, and after each of
them the robot, the frames, the known functions, the scopes and all the rest of the machine are the
same. -/
theorem run_unchanged_of_raisedLimits (program : Program) (robot : Robot) (tracing : Bool)
    (limits raised : Limits) (longer : limits.stepBudget ≤ raised.stepBudget)
    (deeper : limits.maxCallDepth ≤ raised.maxCallDepth) (n : Nat)
    (spared : ∀ k < n, ∀ fault,
      ((load robot limits tracing program).stepped k).fault? = some fault →
        fault.kind ≠ .stepBudgetExceeded ∧ fault.kind ≠ .recursionLimit) :
    let start := load robot limits tracing program
    let start' := load robot raised tracing program
    (∀ k < n, (start'.stepped k).step.2 = (start.stepped k).step.2) ∧
      ∀ k ≤ n, start'.stepped k = { start.stepped k with limits := raised } := by
  intro start start'
  have untold : ∀ k < n, ∀ fault, (start.stepped k).fault? = some fault → ¬ fault.TellsLimit := by
    intro k less fault failed
    obtain ⟨budget, depth⟩ := spared k less fault failed
    exact not_or.mpr ⟨budget, depth⟩
  have state : ∀ k ≤ n, start'.stepped k = (start.stepped k).withLimits raised := by
    intro k le
    exact stepped_withLimits (m := start) deeper longer fun j less =>
      untold j (Nat.lt_of_lt_of_le less le)
  refine ⟨fun k less => ?_, state⟩
  have kept : (start.stepped k).limits = limits := start.limits_stepped k
  have same := step_withLimits (kept.symm ▸ deeper) (kept.symm ▸ longer) (untold k less)
  rw [state k (Nat.le_of_lt less), same]

/-- A program that walks two cells in a function. -/
def walkTwice : Program :=
  ⟨[.define "walk" ["n"] [.loop (.var "n" 1) [.command .forward 1] 1] 1,
    .call "walk" [.number 2 2] true 2], 1⟩

/-- The limits of this run are just enough: its first step takes eight visits and makes one call.
The usual limits give the same run to its end. -/
theorem run_unchanged_of_raisedLimits_walkTwice :
    let robot := Robot.start ⟨[[.empty, .empty, .empty]]⟩ ⟨0, 0⟩ .east
    let start := load robot ⟨1, 8⟩ false walkTwice
    let start' := load robot {} false walkTwice
    (load robot ⟨1, 7⟩ false walkTwice).fault?.map Fault.kind = some .stepBudgetExceeded ∧
      (load robot ⟨0, 8⟩ false walkTwice).fault?.map Fault.kind = some .recursionLimit ∧
      (∀ k < 3, ∀ fault, (start.stepped k).fault? = some fault →
        fault.kind ≠ .stepBudgetExceeded ∧ fault.kind ≠ .recursionLimit) ∧
      (start.stepped 3).frames.isEmpty = true ∧
      (start.stepped 3).robot.path = [⟨0, 0⟩, ⟨1, 0⟩, ⟨2, 0⟩] ∧
      start'.stepped 3 = { start.stepped 3 with limits := {} } := by
  intro robot start start'
  have fine : ∀ k < 3, (start.stepped k).fault? = none := by decide +kernel
  have spared : ∀ k < 3, ∀ fault, (start.stepped k).fault? = some fault →
      fault.kind ≠ .stepBudgetExceeded ∧ fault.kind ≠ .recursionLimit := by
    intro k less fault failed
    rw [fine k less] at failed
    cases failed
  have same := run_unchanged_of_raisedLimits walkTwice robot false ⟨1, 8⟩ {} (by decide) (by decide)
    3 spared
  exact ⟨by decide +kernel, by decide +kernel, spared, by decide +kernel, by decide +kernel,
    same.2 3 (Nat.le_refl 3)⟩

end Machine

end MazeRobot
