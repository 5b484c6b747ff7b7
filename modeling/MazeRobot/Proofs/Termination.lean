import MazeRobot.Proofs.Reachable
import MazeRobot.Proofs.Refinement

/-! # Programs come to an end

Calls nest no deeper than the limit, and everything else in a program takes as many rounds as it
says when it starts. So every program comes to an end, and the budget of a step cuts no run that
would go on for ever: with a budget that is large enough no step ever uses it up.

* `Machine.Within`, `Machine.Halts.within`: how running up to the next command ends where the budget
  lasts.
* `Machine.Lasts`: a machine that comes to its end within its budget.
* `Machine.Lasts.step`, `Machine.Lasts.exists_end`, `Machine.Lasts.kind_ne`: one step of it, its end
  and its faults.
* `Machine.exists_sufficient_budget`: every program has a budget that lasts. -/

namespace MazeRobot

namespace Machine

/-- What running up to the next command leads to where the budget lasts: the end of the program, a
fault of the program, or a command. After a command that does not end the run of the robot, fewer
visits than `bound` lead to the end, and they fit the budget. -/
def Within (limits : Limits) (bound : Nat) (last : Machine) : Advance → Prop
  | .ended m => m.frames = []
  | .failed fault _ => fault.kind ≠ .stepBudgetExceeded
  | .command kind _ m => (m.obey kind).robot.done = false →
    m.limits = limits ∧ ∃ rest : Trace, rest.length < bound ∧ Halts (m.obey kind) rest last ∧
      rest.fits limits.stepBudget limits.stepBudget = true

/-- What is `Within` a bound is within a greater one. -/
theorem Within.mono {limits : Limits} {bound more : Nat} {last : Machine} {advance : Advance}
    (within : Within limits bound last advance) (le : bound ≤ more) :
    Within limits more last advance := by
  cases advance with
  | ended m => exact within
  | failed fault m => exact within
  | command kind line m =>
    intro running
    obtain ⟨same, rest, shorter, halts, fits⟩ := within running
    exact ⟨same, rest, Nat.lt_of_lt_of_le shorter le, halts, fits⟩

/-- A machine whose visits up to the end fit its budget stays `Within` it up to the next command. -/
theorem Halts.within {m last : Machine} {trace : Trace} (halts : Halts m trace last) {left : Nat}
    (fits : trace.fits m.limits.stepBudget left = true) :
    Within m.limits trace.length last (m.advance left) := by
  induction halts generalizing left with
  | @ended m none =>
    rw [advance_of_frames_eq_nil none]
    exact none
  | @failed m middle fault visit =>
    cases left with
    | zero => cases fits
    | succ left =>
      obtain ⟨top, below, -, stmt, -, faults, -⟩ := visit?_cases visit
      rw [advance_succ visit]
      exact faults.kind_ne_stepBudgetExceeded
  | @stopped m middle kind line visit ended =>
    cases left with
    | zero => cases fits
    | succ left =>
      rw [advance_succ visit]
      intro running
      rw [ended] at running
      cases running
  | @moved m middle last trace visit rest ih =>
    cases left with
    | zero => cases fits
    | succ left =>
      have limits := (visit?_keeps visit).1
      change middle.limits = m.limits at limits
      rw [advance_succ visit]
      have later : trace.fits middle.limits.stepBudget left = true := by
        rw [limits]
        exact fits
      have within := ih later
      rw [limits] at within
      exact within.mono (Nat.le_succ _)
  | @command m middle last kind line trace visit on rest ih =>
    cases left with
    | zero => cases fits
    | succ left =>
      rw [advance_succ visit]
      exact fun _ => ⟨(visit?_keeps visit).1, trace, Nat.lt_succ_self _, rest, fits⟩

/-! ## Steps within the budget -/

/-- A machine that comes to its end within its budget, by the visits of a trace. -/
structure Lasts (m : Machine) (trace : Trace) : Prop where
  /-- The run of the robot is not over. -/
  running : m.robot.done = false
  /-- The visits lead to the end. -/
  halts : ∃ last, Halts m trace last
  /-- The budget allows the visits. -/
  fits : trace.fits m.limits.stepBudget m.limits.stepBudget = true

namespace Lasts

variable {m : Machine} {trace : Trace}

/-- Where the budget `Lasts` the `fault?` of a step is one of the program. -/
theorem kind_ne_of_fault? (lasts : Lasts m trace) {fault : Fault}
    (failed : m.fault? = some fault) : fault.kind ≠ .stepBudgetExceeded := by
  obtain ⟨last, halts⟩ := lasts.halts
  obtain ⟨-, m', advanced⟩ := fault?_eq_some_iff.mp failed
  have within := halts.within lasts.fits
  rw [advanced] at within
  exact within

/-- After a `step` within the budget the machine may not go on, or is nearer to its end and the
budget still `Lasts`. -/
theorem step (lasts : Lasts m trace) :
    (m.step.2.hasMore = false ∧ m.step.1.hasMore = false) ∨
      ∃ rest : Trace, rest.length < trace.length ∧ Lasts m.step.1 rest := by
  obtain ⟨last, halts⟩ := lasts.halts
  have within := halts.within lasts.fits
  rw [step_eq_conclude lasts.running]
  cases advanced : m.advance m.limits.stepBudget with
  | ended m' =>
    rw [advanced] at within
    have none : m'.frames = [] := within
    exact .inl ⟨rfl, by rw [conclude, hasMore, none]; rfl⟩
  | failed fault m' => exact .inl ⟨rfl, by rw [conclude, hasMore, frames_fail]; rfl⟩
  | command kind line m' =>
    rw [advanced] at within
    cases running : (m'.obey kind).robot.done with
    | true => exact .inl ⟨by rw [conclude, running]; rfl, by rw [conclude, hasMore, running]; simp⟩
    | false =>
      obtain ⟨limits, rest, shorter, on, fits⟩ := within running
      have same : (m'.obey kind).limits = m.limits := limits
      exact .inr ⟨rest, shorter, running, ⟨last, on⟩, same.symm ▸ fits⟩

/-- Where the budget `Lasts` some step reports that the machine may not go on. -/
theorem exists_end (lasts : Lasts m trace) :
    ∃ n ≤ trace.length, (m.stepped n).step.2.hasMore = false := by
  -- Each step leaves a shorter trace to the end.
  induction length : trace.length using Nat.strongRecOn generalizing m trace with
  | _ bound ih =>
    rcases lasts.step with ⟨reported, -⟩ | ⟨rest, shorter, on⟩
    · exact ⟨0, Nat.zero_le _, reported⟩
    · obtain ⟨n, few, reported⟩ := ih rest.length (length ▸ shorter) on rfl
      exact ⟨n + 1, by omega, reported⟩

/-- Where the budget `Lasts` no step fails for lack of it. -/
theorem kind_ne (lasts : Lasts m trace) (n : Nat) {fault : Fault}
    (failed : (m.stepped n).fault? = some fault) : fault.kind ≠ .stepBudgetExceeded := by
  induction n generalizing m trace with
  | zero => exact lasts.kind_ne_of_fault? failed
  | succ n ih =>
    rw [stepped] at failed
    rcases lasts.step with ⟨-, no⟩ | ⟨rest, -, on⟩
    · -- After the end there are no more faults.
      rw [stepped_of_hasMore_eq_false no, (step_of_hasMore_eq_false no).2] at failed
      cases failed
    · exact ih on failed

end Lasts

/-- **Every program comes to an end, and its budget can be made to last.** For every program, robot
and call depth there is a number such that with any budget from there on, a step reports that the
machine may not go on, after at most that number of steps, and no step fails because the budget is
used up. -/
theorem exists_sufficient_budget (program : Program) (robot : Robot) (maxCallDepth : Nat)
    (tracing : Bool) :
    ∃ enough, ∀ stepBudget, enough ≤ stepBudget →
      let start := load robot ⟨maxCallDepth, stepBudget⟩ tracing program
      (∃ n ≤ enough, (start.stepped n).step.2.hasMore = false) ∧
        ∀ n fault, (start.stepped n).fault? = some fault → fault.kind ≠ .stepBudgetExceeded := by
  cases running : robot.done with
  | true =>
    refine ⟨0, fun stepBudget _ => ?_⟩
    intro start
    have no : start.hasMore = false := by simp [start, load, idle, hasMore, running]
    refine ⟨⟨0, Nat.le_refl 0, ?_⟩, fun n fault failed => ?_⟩
    · rw [stepped, (step_of_hasMore_eq_false no).1]
      rfl
    · rw [stepped_of_hasMore_eq_false no, (step_of_hasMore_eq_false no).2] at failed
      cases failed
  | false =>
    -- The visits up to the end do not depend on the budget.
    obtain ⟨trace, last, halts, -, -⟩ :=
      load_halts program robot ⟨maxCallDepth, 0⟩ tracing running
    refine ⟨trace.length, fun stepBudget enough => ?_⟩
    intro start
    have lasts : Lasts start trace :=
      ⟨running, ⟨_, halts.withBudget stepBudget⟩, Trace.fits_of_length_le enough (Nat.le_refl _)⟩
    exact ⟨lasts.exists_end, fun n fault failed => lasts.kind_ne n failed⟩

end Machine

end MazeRobot
