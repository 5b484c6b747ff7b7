import MazeRobot.Proofs.Sessions
import MazeRobot.Proofs.WellFormed

/-! # Pauses and limits change no attempt

A session may be stepped, played for a while and run up to a limit, in any order. Whatever the
schedule, the steps are the steps of the session one after the other, so up to the end of the
attempt the reports are those of playing it in one go. A run counts commands and not steps, but
every step short of the end gives one command, so its limit is a limit on steps as well.

* `Session.runReports`, `Session.runTo_cases`: the steps of a run, and how it ends.
* `Session.Playing.advance_cases`, `Session.play_none`: the steps of playing, and that playing in
  one go comes to the end.
* `Session.Action`, `Session.follow`: schedules.
* `Session.StandsAfter`, `Session.follow_standsAfter`: after a schedule a session stands where some
  steps lead to.
* `Session.follow_eq_play`: schedules, outcomes and limits. -/

namespace MazeRobot.Session

/-! ## Runs -/

/-- The reports on the steps of a run. -/
def runReports (limit : Nat) (canceled : Bool) (session : Session) : List StepReport :=
  if session.outcome.terminal then []
  else if canceled then []
  else if limit ≤ session.steps then []
  else session.step.2 :: runReports limit canceled session.step.1
termination_by allowed limit session
decreasing_by exact allowed_step_lt ‹_› ‹_›

/-- How a run ends that has come to a session: with the attempt, because someone has cancelled it,
or at the limit. -/
def RunEnds (limit : Nat) (canceled : Bool) (session : Session) :
    Session × Option Interruption → Prop := fun ending =>
  session.outcome.terminal = true ∧ ending = (session.finish, none) ∨
    session.outcome.terminal = false ∧
      (canceled = true ∧ ending = (session, some .canceled) ∨
        canceled = false ∧ limit ≤ session.steps ∧ ending = (session, some (.stepLimit limit)))

/-- `runTo` takes some steps, each below the limit, and then `RunEnds`. -/
theorem runTo_cases (limit : Nat) (canceled : Bool) (session : Session) :
    ∃ k, runReports limit canceled session = session.reports k ∧
      (∀ j < k, (session.stepped j).outcome.terminal = false ∧ (session.stepped j).steps < limit) ∧
      RunEnds limit canceled (session.stepped k) (runTo limit canceled session) := by
  fun_induction runTo limit canceled session with
  | case1 session ended =>
    refine ⟨0, ?_, fun j less => absurd less (Nat.not_lt_zero j), .inl ⟨ended, rfl⟩⟩
    rw [runReports, if_pos ended]
    rfl
  | case2 session going canceled =>
    have on : session.outcome.terminal = false := Bool.eq_false_iff.mpr going
    refine ⟨0, ?_, fun j less => absurd less (Nat.not_lt_zero j), .inr ⟨on, .inl ⟨canceled, rfl⟩⟩⟩
    rw [runReports, if_neg going, if_pos canceled]
    rfl
  | case3 session going watched full =>
    have on : session.outcome.terminal = false := Bool.eq_false_iff.mpr going
    refine ⟨0, ?_, fun j less => absurd less (Nat.not_lt_zero j),
      .inr ⟨on, .inr ⟨Bool.eq_false_iff.mpr watched, full, rfl⟩⟩⟩
    rw [runReports, if_neg going, if_neg watched, if_pos full]
    rfl
  | case4 session going watched below ih =>
    obtain ⟨k, reported, before, ending⟩ := ih
    refine ⟨k + 1, ?_, fun j less => ?_, ending⟩
    · rw [runReports, if_neg going, if_neg watched, if_neg below, reported]
      rfl
    · cases j with
      | zero => exact ⟨Bool.eq_false_iff.mpr going, Nat.lt_of_not_le below⟩
      | succ j => exact before j (Nat.lt_of_succ_lt_succ less)

/-- `maxSteps` takes a positive limit as it is. -/
theorem maxSteps_natCast {n : Nat} (positive : 0 < n) : maxSteps n = n := by
  rw [maxSteps, if_pos (by omega), Int.toNat_natCast]

/-! ## Playing -/

namespace Playing

/-- Playing that has gone some steps further. -/
def after (playing : Playing) (k : Nat) : Playing :=
  ⟨playing.session.stepped k, playing.pause.map (· - k),
    (playing.session.reports k).reverse ++ playing.reports⟩

/-- Playing `after` no step is where it was. -/
theorem after_zero (playing : Playing) : playing.after 0 = playing := by
  simp [after, stepped, Session.reports]

/-- Playing `after` one more step is `after` the others of what is `next`. -/
theorem next_after (playing : Playing) (k : Nat) : playing.next.after k = playing.after (k + 1) := by
  simp [after, next, stepped, Session.reports, Nat.sub_sub, Nat.add_comm, Function.comp_def]

/-- `advance` takes some steps and then is over, or has taken as many as it was given. -/
theorem advance_cases (playing : Playing) (n : Nat) :
    ∃ k ≤ n, playing.advance n = playing.after k ∧
      (∀ j < k, (playing.session.stepped j).outcome.terminal = false) ∧
      (k = n ∨ (playing.after k).isOver = true) := by
  induction n generalizing playing with
  | zero =>
    refine ⟨0, Nat.le_refl 0, playing.after_zero.symm, fun j less => ?_, .inl rfl⟩
    exact absurd less (Nat.not_lt_zero j)
  | succ n ih =>
    by_cases ended : playing.isOver = true
    · refine ⟨0, Nat.zero_le _, ?_, fun j less => absurd less (Nat.not_lt_zero j), .inr ?_⟩
      · rw [advance_of_isOver ended, after_zero]
      · rw [after_zero]
        exact ended
    · obtain ⟨k, le, played, before, ending⟩ := ih playing.next
      have going : playing.session.outcome.terminal = false := by
        rw [isOver, Bool.or_eq_true, not_or] at ended
        exact Bool.eq_false_iff.mpr ended.1
      refine ⟨k + 1, Nat.succ_le_succ le, ?_, fun j less => ?_, ?_⟩
      · rw [advance, if_neg ended, played, next_after]
      · cases j with
        | zero => exact going
        | succ j => exact before j (Nat.lt_of_succ_lt_succ less)
      · rw [← next_after]
        exact ending.imp_left (congrArg (· + 1))

end Playing

/-- `play` takes some steps of an attempt that goes on. -/
theorem play_cases (session : Session) (pause : Option Nat) :
    ∃ k ≤ patience + session.horizon, (session.play pause).reports = session.reports k ∧
      (session.play pause).session = session.stepped k ∧
      (session.play pause).interruption? =
        (if (session.stepped k).outcome.terminal then none else some .canceled) ∧
      (∀ j < k, (session.stepped j).outcome.terminal = false) ∧
      (k = patience + session.horizon ∨
        ((Playing.mk session pause []).after k).isOver = true) := by
  obtain ⟨k, le, played, before, ending⟩ :=
    (Playing.mk session pause []).advance_cases (patience + session.horizon)
  rw [play_eq, played]
  exact ⟨k, le, by simp [Playing.playback, Playing.after], rfl, rfl, before, ending⟩

/-- **`play` in one go comes to the end of a fresh attempt.** The steps before the last one do not
end it. -/
theorem play_none (program : Program) (level : Level) (limits : Limits) (tracing : Bool) :
    let fresh := ofProgram program level limits tracing
    ∃ k, 0 < k ∧ (fresh.play none).reports = fresh.reports k ∧
      (fresh.play none).session = fresh.stepped k ∧ (fresh.play none).interruption? = none ∧
      (fresh.stepped k).outcome.terminal = true ∧
      ∀ j < k, (fresh.stepped j).outcome.terminal = false := by
  intro fresh
  obtain ⟨n, few, ended⟩ := exists_terminal_ofProgram program level limits tracing
  obtain ⟨k, -, reported, played, interruption, before, ending⟩ := fresh.play_cases none
  have finished : (fresh.stepped k).outcome.terminal = true := by
    rcases ending with rfl | isOver
    · -- The attempt has ended by then, because its horizon is past.
      have patient : 1 ≤ patience := by decide
      have past : n ≤ patience + fresh.horizon := by
        change n ≤ fresh.horizon + 1 at few
        omega
      rw [stepped_eq_of_terminal ended past]
      exact ended
    · simpa [Playing.isOver, Playing.after] using isOver
  have positive : 0 < k := by
    rcases Nat.eq_zero_or_pos k with rfl | positive
    · cases finished
    · exact positive
  rw [if_pos finished] at interruption
  exact ⟨k, positive, reported, played, interruption, finished, before⟩

/-! ## Schedules -/

/-- Something that is done with a session. -/
inductive Action where
  /-- One step. -/
  | step
  /-- Playing, up to a pause after a number of reports, if there is one. -/
  | play (pause : Option Nat)
  /-- Running up to a limit, unless it has been cancelled. -/
  | run (limit : Int) (canceled : Bool)
  deriving DecidableEq, Repr

/-- The session after an action, and the reports on its steps. -/
def Action.perform (session : Session) : Action → Session × List StepReport
  | step => (session.step.1, [session.step.2])
  | play pause => ((session.play pause).session, (session.play pause).reports)
  | run limit canceled =>
    ((session.run limit canceled).1, session.runReports (maxSteps limit) canceled)

/-- The session after a schedule, and the reports on its steps. -/
def follow (session : Session) : List Action → Session × List StepReport
  | [] => (session, [])
  | action :: actions =>
    let (middle, first) := action.perform session
    let (last, rest) := middle.follow actions
    (last, first ++ rest)

/-- The reports up to the first one that tells of the end of the attempt. -/
def untilTerminal : List StepReport → List StepReport
  | [] => []
  | report :: reports =>
    if report.outcome.terminal then [report] else report :: untilTerminal reports

/-- The session with another journal. -/
def withJournal (session : Session) (journal : List Event) : Session :=
  { session with machine := { session.machine with journal } }

/-- Whether a session stands where another one does after some steps. When the attempt has ended its
journal may have grown. -/
def StandsAfter (session : Session) (k : Nat) (after : Session) : Prop :=
  after = session.stepped k ∨
    (session.stepped k).outcome.terminal = true ∧
      ∃ journal, after = (session.stepped k).withJournal journal

section Schedules

variable {session middle last : Session} {k : Nat}

/-- `finish` changes the journal only. -/
theorem exists_finish_eq (session : Session) :
    ∃ journal, session.finish = session.withJournal journal := by
  rw [finish, Machine.note_eq]
  exact ⟨_, rfl⟩

/-- `reports` on an attempt that has ended do not depend on the journal. -/
theorem reports_withJournal (ended : session.outcome.terminal = true) (journal : List Event)
    (n : Nat) : (session.withJournal journal).reports n = session.reports n := by
  have same : (session.withJournal journal).outcome.terminal = true := ended
  induction n with
  | zero => rfl
  | succ n ih =>
    rw [reports, reports, step_of_terminal ended, step_of_terminal same, ih]
    rfl

/-- A session that `StandsAfter` some steps, and goes on from there, stands after the sum of
both. -/
theorem StandsAfter.trans {m : Nat} (first : session.StandsAfter k middle)
    (second : middle.StandsAfter m last) :
    session.reports k ++ middle.reports m = session.reports (k + m) ∧
      session.StandsAfter (k + m) last := by
  rw [reports_add]
  rcases first with rfl | ⟨ended, journal, rfl⟩
  · refine ⟨rfl, ?_⟩
    rw [StandsAfter, stepped_add]
    exact second
  · -- The attempt has ended, so no step changes it any more.
    have same : ((session.stepped k).withJournal journal).outcome.terminal = true := ended
    have there := stepped_eq_of_terminal ended (Nat.le_add_right k m)
    rw [reports_withJournal ended]
    refine ⟨rfl, .inr ⟨there ▸ ended, ?_⟩⟩
    rw [there]
    rcases second with rfl | ⟨-, later, rfl⟩
    · exact ⟨journal, stepped_of_terminal same m⟩
    · refine ⟨later, ?_⟩
      rw [stepped_of_terminal same]
      rfl

/-- After `Action.perform` a session `StandsAfter` the steps of the action. -/
theorem Action.perform_standsAfter (action : Action) (session : Session) :
    ∃ k, (action.perform session).2 = session.reports k ∧
      session.StandsAfter k (action.perform session).1 := by
  cases action with
  | step => exact ⟨1, rfl, .inl rfl⟩
  | play pause =>
    obtain ⟨k, -, reported, played, -⟩ := session.play_cases pause
    exact ⟨k, reported, .inl played⟩
  | run limit canceled =>
    obtain ⟨k, reported, -, ending⟩ := runTo_cases (maxSteps limit) canceled session
    refine ⟨k, reported, ?_⟩
    rw [perform, Session.run]
    rcases ending with ⟨ended, result⟩ | ⟨-, ⟨-, result⟩ | ⟨-, -, result⟩⟩
    · rw [result]
      exact .inr ⟨ended, exists_finish_eq _⟩
    · rw [result]
      exact .inl rfl
    · rw [result]
      exact .inl rfl

/-- **After `follow` a session `StandsAfter` the steps of the schedule.** -/
theorem follow_standsAfter (session : Session) (actions : List Action) :
    ∃ k, (session.follow actions).2 = session.reports k ∧
      session.StandsAfter k (session.follow actions).1 := by
  induction actions generalizing session with
  | nil => exact ⟨0, rfl, .inl rfl⟩
  | cons action actions ih =>
    obtain ⟨k, first, middle⟩ := action.perform_standsAfter session
    obtain ⟨m, rest, last⟩ := ih (action.perform session).1
    obtain ⟨together, there⟩ := middle.trans last
    refine ⟨k + m, ?_, there⟩
    rw [follow, ← together, ← first, ← rest]

/-- `untilTerminal` leaves the reports up to the end of an attempt, however many more there are. -/
theorem untilTerminal_reports {n : Nat} (positive : 0 < k)
    (ended : (session.stepped k).outcome.terminal = true)
    (before : ∀ j < k, (session.stepped j).outcome.terminal = false) (le : k ≤ n) :
    untilTerminal (session.reports n) = session.reports k := by
  induction k generalizing session n with
  | zero => exact absurd positive (Nat.lt_irrefl 0)
  | succ k ih =>
    obtain ⟨n, rfl⟩ := Nat.exists_eq_succ_of_ne_zero (Nat.ne_of_gt (Nat.lt_of_lt_of_le positive le))
    rw [reports, reports, untilTerminal, outcome_report]
    cases k with
    | zero => exact if_pos ended
    | succ k =>
      have going : session.step.1.outcome.terminal = false := before 1 (by omega)
      rw [going, if_neg Bool.false_ne_true]
      have later : (session.step.1.stepped (k + 1)).outcome.terminal = true := ended
      have rest := ih (Nat.succ_pos k) later
        (fun j less => before (j + 1) (Nat.succ_lt_succ less)) (Nat.le_of_succ_le_succ le)
      rw [rest]

/-- A session that `StandsAfter` steps with a `Faithful` outcome has one. -/
theorem StandsAfter.faithful {start : Machine} (stands : session.StandsAfter k last)
    (faithful : (session.stepped k).Faithful start) : last.Faithful start := by
  rcases stands with rfl | ⟨ended, journal, rfl⟩
  · exact faithful
  · refine ⟨faithful.completed, faithful.failed, faithful.outOfProgram, fun going => ?_⟩
    -- Only the journal of an attempt that has ended may have grown.
    change (session.stepped k).outcome = .running at going
    rw [going] at ended
    cases ended

/-- A session that `StandsAfter` some steps has the `summary` of these: it does not depend on the
journal. -/
theorem StandsAfter.summary_eq (stands : session.StandsAfter k last) :
    last.summary = (session.stepped k).summary := by
  rcases stands with rfl | ⟨-, journal, rfl⟩
  · rfl
  · rfl

/-- A session that `StandsAfter` some steps has the outcome of these. -/
theorem StandsAfter.outcome_eq (stands : session.StandsAfter k last) :
    last.outcome = (session.stepped k).outcome :=
  congrArg Summary.outcome stands.summary_eq

/-- `follow` does not change the outcome of an attempt that has ended. -/
theorem outcome_follow_of_terminal (ended : session.outcome.terminal = true)
    (actions : List Action) : (session.follow actions).1.outcome = session.outcome := by
  obtain ⟨k, -, stands⟩ := session.follow_standsAfter actions
  rw [stands.outcome_eq, stepped_of_terminal ended]

/-- **`follow` of a schedule that comes to the end of an attempt takes the steps of `play` in one
go.** -/
theorem follow_of_terminal {program : Program} {level : Level} {limits : Limits} {tracing : Bool}
    {actions : List Action}
    (ended : ((ofProgram program level limits tracing).follow actions).1.outcome.terminal = true) :
    let fresh := ofProgram program level limits tracing
    untilTerminal (fresh.follow actions).2 = (fresh.play none).reports ∧
      (fresh.follow actions).1.summary = (fresh.play none).session.summary := by
  intro fresh
  obtain ⟨k, positive, reported, played, -, finished, before⟩ :=
    play_none program level limits tracing
  obtain ⟨n, followed, stands⟩ := fresh.follow_standsAfter actions
  rw [stands.outcome_eq] at ended
  have past : k ≤ n := by
    by_contra less
    rw [before n (Nat.lt_of_not_le less)] at ended
    cases ended
  rw [followed, reported, played, stands.summary_eq, stepped_eq_of_terminal finished past]
  exact ⟨untilTerminal_reports positive finished before past, rfl⟩

/-- `run` of an attempt that starts afresh counts its steps by its commands. -/
theorem run_cases {n : Nat} (positive : 0 < n) (going : session.outcome.terminal = false)
    (unused : session.steps = 0) :
    ∃ k ≤ n, session.runReports n false = session.reports k ∧
      (∀ j < k, (session.stepped j).outcome.terminal = false) ∧
      ((0 < k ∧ (session.stepped k).outcome.terminal = true ∧
          session.run n false = ((session.stepped k).finish, none)) ∨
        (k = n ∧ (session.stepped k).outcome.terminal = false ∧
          session.run n false = (session.stepped k, some (.stepLimit n)))) := by
  obtain ⟨k, reported, before, ending⟩ := runTo_cases n false session
  rw [run, maxSteps_natCast positive]
  have le : k ≤ n := by
    by_contra more
    obtain ⟨on, below⟩ := before n (Nat.lt_of_not_le more)
    rw [steps_stepped on] at below
    omega
  refine ⟨k, le, reported, fun j less => (before j less).1, ?_⟩
  rcases ending with ⟨ended, result⟩ | ⟨on, ⟨canceled, -⟩ | ⟨-, full, result⟩⟩
  · refine .inl ⟨Nat.pos_of_ne_zero ?_, ended, result⟩
    rintro rfl
    rw [stepped, going] at ended
    cases ended
  · cases canceled
  · rw [steps_stepped on] at full
    exact .inr ⟨by omega, on, result⟩

/-- **The limit of a `run` that starts afresh is exact.** -/
theorem run_exact {n : Nat} (positive : 0 < n) (going : session.outcome.terminal = false)
    (unused : session.steps = 0) :
    (session.runReports n false).length ≤ n ∧
      ((session.run n false).2 = some (.stepLimit n) ↔
        ∀ k < n, (session.stepped (k + 1)).outcome = .running) ∧
      ((session.run n false).2 = some (.stepLimit n) → (session.run n false).1.steps = n) ∧
      ((session.run n false).2 ≠ some (.stepLimit n) →
        (session.run n false).2 = none ∧
          (session.run n false).1.outcome.terminal = true ∧ (session.run n false).1.steps ≤ n) := by
  obtain ⟨k, le, reported, before, ending⟩ := run_cases positive going unused
  rw [reported, length_reports]
  rcases ending with ⟨further, ended, result⟩ | ⟨rfl, on, result⟩
  · rw [result]
    have running : ¬ ∀ j < n, (session.stepped (j + 1)).outcome = .running := by
      intro all
      obtain ⟨j, rfl⟩ := Nat.exists_eq_succ_of_ne_zero (Nat.ne_of_gt further)
      rw [all j (Nat.lt_of_succ_le le)] at ended
      cases ended
    have few : (session.stepped k).finish.steps ≤ n := by
      have counted := session.steps_stepped_le k
      rw [finish, Session.steps, Machine.steps_note]
      rw [Session.steps] at counted
      omega
    have unlimited : (none : Option Interruption) ≠ some (.stepLimit n) := by simp
    exact ⟨le, ⟨fun limit => absurd limit unlimited, fun all => absurd all running⟩,
      fun limit => absurd limit unlimited, fun _ => ⟨rfl, ended, few⟩⟩
  · rw [result]
    have all : ∀ j < k, (session.stepped (j + 1)).outcome = .running := fun j less =>
      Outcome.terminal_eq_false_iff.mp (going_of_le on less)
    have counted : (session.stepped k).steps = k := by
      rw [steps_stepped on, unused, Nat.zero_add]
    exact ⟨le, ⟨fun _ => all, fun _ => rfl⟩, fun _ => counted, fun other => absurd rfl other⟩

end Schedules

/-- **Pauses and limits change no attempt, and the limit of a run is exact.** Of a session for a
source and a level:

* Playing in one go comes to the end of the attempt.
* A schedule that comes to the end gives the same reports up to it and the same summary.
* After every schedule the outcome tells how the robot and the frames stand, and one that ends the
  attempt stays until the session is reset.
* A run takes no more steps than its limit says. It reports the limit exactly if so many steps all
  leave the attempt running, and then has given so many commands; otherwise the attempt ends, with
  no more commands than that. -/
theorem follow_eq_play {source : List UInt8} {level : Level} {limits : Limits} {tracing : Bool}
    {fresh : Session} (started : start source (some level) limits tracing = .ok fresh) :
    ((fresh.play none).interruption? = none ∧ (fresh.play none).session.outcome.terminal = true) ∧
    (∀ actions,
      let last := (fresh.follow actions).1
      (last.outcome.terminal = true →
        untilTerminal (fresh.follow actions).2 = (fresh.play none).reports ∧
          last.summary = (fresh.play none).session.summary) ∧
      (last.outcome = .completed ↔ last.robot.completed = true) ∧
      (last.outcome = .failed ↔ last.robot.failure?.isSome = true) ∧
      (last.outcome = .outOfProgram ↔ last.machine.frames = [] ∧ last.robot.done = false) ∧
      (last.outcome.terminal = true → ∀ more, (last.follow more).1.outcome = last.outcome) ∧
      last.reset.outcome = .running) ∧
    ∀ n : Nat, 0 < n →
      let ran := fresh.run n false
      (fresh.runReports n false).length ≤ n ∧
      (ran.2 = some (.stepLimit n) ↔ ∀ k < n, (fresh.stepped (k + 1)).outcome = .running) ∧
      (ran.2 = some (.stepLimit n) → ran.1.steps = n) ∧
      (ran.2 ≠ some (.stepLimit n) →
        ran.2 = none ∧ ran.1.outcome.terminal = true ∧ ran.1.steps ≤ n) := by
  obtain ⟨program, -, rfl⟩ := exists_program_of_start started
  refine ⟨?_, fun actions => ?_, fun n positive => ?_⟩
  · obtain ⟨k, -, -, played, uninterrupted, finished, -⟩ := play_none program level limits tracing
    exact ⟨uninterrupted, played ▸ finished⟩
  · obtain ⟨k, -, stands⟩ := (ofProgram program level limits tracing).follow_standsAfter actions
    have faithful := stands.faithful ((Faithful.ofProgram program level limits tracing).stepped k)
    exact ⟨follow_of_terminal, faithful.completed, faithful.failed, faithful.outOfProgram,
      fun ended more => outcome_follow_of_terminal ended more, rfl⟩
  · exact run_exact positive rfl rfl

/-- A source that walks further than there is a way. -/
def walkOnSource : List UInt8 := Text.utf8 "(repeat 5 (forward))"

/-- The program of that source. -/
def walkOnProgram : Program := ⟨[.loop (.number 5 1) [.command .forward 1] 1], 1⟩

/-- This program reaches the goal with its second step. A pause after the first one, and a step more
than there is to do, change no report; a run with the limit one stops there, and one with the limit
five does not. -/
theorem follow_eq_play_walkOn :
    let fresh := ofProgram walkOnProgram corridor {} false
    start walkOnSource (some corridor) {} false = .ok fresh ∧
      (fresh.play none).interruption? = none ∧
      untilTerminal (fresh.follow [.play (some 1), .step, .step]).2 = (fresh.play none).reports ∧
      ((fresh.run 1 false).2 = some (.stepLimit 1) ∧ (fresh.run 1 false).1.steps = 1) ∧
      (fresh.run 5 false).2 = none := by
  intro fresh
  have parsed : Program.parse walkOnSource = .ok walkOnProgram :=
    eq_ok_of_toOption (by decide +kernel)
  have started : start walkOnSource (some corridor) {} false = .ok fresh := by
    rw [start, parsed]
  obtain ⟨⟨uninterrupted, -⟩, schedules, limits⟩ := follow_eq_play started
  obtain ⟨-, one, counted, -⟩ := limits 1 (by decide)
  obtain ⟨-, five, -, other⟩ := limits 5 (by decide)
  have limited : (fresh.run 1 false).2 = some (.stepLimit 1) :=
    one.mpr fun k less => by
      obtain rfl : k = 0 := by omega
      decide +kernel
  have unlimited : (fresh.run 5 false).2 ≠ some (.stepLimit 5) := by
    intro limited
    have running := five.mp limited 1 (by decide)
    exact absurd running (by decide +kernel)
  have followed := (schedules [.play (some 1), .step, .step]).1 (by decide +kernel)
  exact ⟨started, uninterrupted, followed.1, ⟨limited, counted limited⟩, (other unlimited).1⟩

end MazeRobot.Session
