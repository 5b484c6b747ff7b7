import MazeRobot.Machine.Horizon
import MazeRobot.Session.Basic
import MazeRobot.Word

/-! # Playing and running sessions

A session is played with a report after each step, or run without reports up to a limit. Stopping in
between changes nothing: whoever goes on later finds the session as it was left.

* `Session.play`: steps up to the end, or until someone cancels.
* `Session.run`: steps up to the end, or until the commands reach a limit. -/

namespace MazeRobot.Session

/-- Why playing or running stopped before the attempt ended. -/
inductive Interruption where
  /-- Someone cancelled it. -/
  | canceled
  /-- The greatest number of commands was reached. -/
  | stepLimit (limit : Nat)
  deriving DecidableEq, Repr

/-- What is said about an interruption. -/
def Interruption.message : Interruption → String
  | canceled => "context canceled"
  | stepLimit limit => s!"step limit reached after {limit} commands"

/-! ## Playing -/

/-- A session that is being played. -/
structure Playing where
  /-- The session. -/
  session : Session
  /-- The number of reports after which someone cancels, if someone does. -/
  pause : Option Nat
  /-- The reports made so far, newest first. -/
  reports : List StepReport
  deriving Repr

namespace Playing

/-- Whether playing is over: the attempt has ended or someone has cancelled. -/
def isOver (playing : Playing) : Bool :=
  playing.session.outcome.terminal || playing.pause = some 0

/-- One step further, with a report. -/
def next (playing : Playing) : Playing :=
  let (session, report) := playing.session.step
  ⟨session, playing.pause.map (· - 1), report :: playing.reports⟩

/-- At most the given number of steps further. -/
def advance (playing : Playing) : Nat → Playing
  | 0 => playing
  | n + 1 => if playing.isOver then playing else playing.next.advance n

/-- `advance` leaves playing that `isOver` as it is. -/
theorem advance_of_isOver {playing : Playing} (ended : playing.isOver = true) (n : Nat) :
    playing.advance n = playing := by
  cases n with
  | zero => rfl
  | succ n => simp [advance, ended]

/-- `advance` by a sum takes its steps in two goes. -/
theorem advance_add (playing : Playing) (m n : Nat) :
    playing.advance (m + n) = (playing.advance m).advance n := by
  induction m generalizing playing with
  | zero => simp [advance]
  | succ m ih =>
    rw [Nat.succ_add]
    by_cases ended : playing.isOver = true
    · simp [advance_of_isOver ended]
    · simp [advance, ended, ih]

end Playing

/-- What playing gives: the reports, the session after it, and why it stopped early. -/
structure Playback where
  /-- The reports, oldest first. -/
  reports : List StepReport
  /-- The session after it. -/
  session : Session
  /-- Why it stopped early, if it did. -/
  interruption? : Option Interruption
  deriving Repr

/-- What playing has given when it is over. -/
def Playing.playback (playing : Playing) : Playback :=
  { reports := playing.reports.reverse
    session := playing.session
    interruption? := if playing.session.outcome.terminal then none else some .canceled }

/-- A number of steps that nobody waits for. -/
def patience : Nat := wordBound / 2

/-- A bound on the commands of an attempt. -/
def horizon (session : Session) : Nat :=
  session.program.horizon session.level.grid session.machine.limits

/-- Plays until the attempt ends, or until it is cancelled after the given number of reports. The
horizon of a program is a huge number, so it is worked out only after all patience. -/
def play (session : Session) (pause : Option Nat) : Playback :=
  let watched := (Playing.mk session pause []).advance patience
  if watched.isOver then watched.playback else (watched.advance session.horizon).playback

/-- `play` takes the `patience` steps that nobody waits for, and then as many as the `horizon` of
the program. -/
theorem play_eq (session : Session) (pause : Option Nat) :
    session.play pause =
      ((Playing.mk session pause []).advance (patience + session.horizon)).playback := by
  rw [play, Playing.advance_add]
  by_cases ended : ((Playing.mk session pause []).advance patience).isOver = true
  · rw [if_pos ended, Playing.advance_of_isOver ended]
  · rw [if_neg ended]

/-! ## Running -/

/-- The greatest number of commands of a run that is given none. -/
def defaultMaxSteps : Nat := 10000

/-- The greatest number of commands of a run: the one given, if it is positive. -/
def maxSteps (n : Int) : Nat := if 0 < n then n.toNat else defaultMaxSteps

/-- The session with the end of a run recorded. -/
def finish (session : Session) : Session :=
  { session with
    machine := session.machine.note
      (.finished session.level.name.shown session.outcome session.steps) }

/-- The commands that an attempt has left up to a limit, none where it has ended. -/
def allowed (limit : Nat) (session : Session) : Nat :=
  if session.outcome.terminal then 0 else limit - session.steps

/-- Each `step` below the limit takes one off the `allowed` ones, or all of them where it ends the
attempt. -/
theorem allowed_step_lt {limit : Nat} {session : Session} (going : ¬ session.outcome.terminal = true)
    (below : ¬ limit ≤ session.steps) : allowed limit session.step.1 < allowed limit session := by
  unfold allowed
  rw [if_neg going]
  cases on : session.step.1.outcome.terminal with
  | true =>
    rw [if_pos rfl]
    omega
  | false =>
    have counted := steps_step (Bool.eq_false_iff.mpr going) on
    rw [if_neg Bool.false_ne_true]
    omega

/-- Steps until the attempt ends or its commands reach the limit. -/
def runTo (limit : Nat) (canceled : Bool) (session : Session) : Session × Option Interruption :=
  if session.outcome.terminal then (session.finish, none)
  else if canceled then (session, some .canceled)
  else if limit ≤ session.steps then (session, some (.stepLimit limit))
  else runTo limit canceled session.step.1
termination_by allowed limit session
decreasing_by exact allowed_step_lt ‹_› ‹_›

/-- Runs until the attempt ends or the commands of the attempt reach the limit. -/
def run (session : Session) (n : Int) (canceled : Bool) : Session × Option Interruption :=
  runTo (maxSteps n) canceled session

end MazeRobot.Session
