import MazeRobot.Fault.Basic

/-! # Results in a row

Readers and checks answer with an `Except`: a value, or the first error. The lemmas here take such
an answer apart, whatever its errors are.

* `bind_eq_ok_iff`, `bind_eq_error_iff`: two results in a row.
* `mapError_eq_ok_iff`: results with other errors.
* `eq_ok_of_toOption`, `eq_error_of_failure?`: results that are told by what can be computed of
  them. -/

namespace MazeRobot

variable {ε ε' α β : Type}

/-- `first >>= next` is a value exactly if `first` is one and `next` makes that value of it. -/
theorem bind_eq_ok_iff {first : Except ε α} {next : α → Except ε β} {result : β} :
    first >>= next = .ok result ↔ ∃ value, first = .ok value ∧ next value = .ok result := by
  cases first with
  | ok value => simp [bind, Except.bind]
  | error error => simp [bind, Except.bind]

/-- `first >>= next` is an error exactly if `first` is that error, or `next` fails with it. -/
theorem bind_eq_error_iff {first : Except ε α} {next : α → Except ε β} {error : ε} :
    first >>= next = .error error ↔
      first = .error error ∨ ∃ value, first = .ok value ∧ next value = .error error := by
  cases first with
  | ok value => simp [bind, Except.bind]
  | error other => simp [bind, Except.bind]

/-- `Except.mapError` renames errors and leaves values as they are. -/
theorem mapError_eq_ok_iff {first : Except ε α} {rename : ε → ε'} {value : α} :
    first.mapError rename = .ok value ↔ first = .ok value := by
  cases first with
  | ok other =>
    show (Except.ok other : Except ε' α) = .ok value ↔ _
    rw [Except.ok.injEq, Except.ok.injEq]
  | error error =>
    show (Except.error (rename error) : Except ε' α) = .ok value ↔ _
    simp

/-- A result of which `Except.toOption` gives a value is that value. -/
theorem eq_ok_of_toOption {result : Except ε α} {value : α}
    (found : result.toOption = some value) : result = .ok value := by
  cases result with
  | ok other => exact congrArg Except.ok (Option.some.inj found)
  | error error => cases found

/-- The fault of a result without a value. -/
def failure? : Except Fault α → Option Fault
  | .ok _ => none
  | .error fault => some fault

/-- A result of which `failure?` gives a fault is that fault. -/
theorem eq_error_of_failure? {result : Except Fault α} {fault : Fault}
    (failed : failure? result = some fault) : result = .error fault := by
  cases result with
  | ok value => cases failed
  | error other => exact congrArg Except.error (Option.some.inj failed)

end MazeRobot
