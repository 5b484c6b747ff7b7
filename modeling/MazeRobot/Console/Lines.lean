import MazeRobot.Text.Utf8

/-! # Lines of input

Input is read line by line into a buffer. A line that does not fit is read in pieces, each as long
as the buffer.

* `nextLine?`: the next line, or the next piece of a long one.
* `lines`: all lines and pieces. -/

namespace MazeRobot.Console

/-- The number of bytes that the buffer holds. -/
def bufferSize : Nat := 4096

/-- A line that has been read. -/
structure Line where
  /-- The bytes without the end of the line. -/
  bytes : List UInt8
  /-- Whether the line goes on in the next piece. -/
  continues : Bool
  deriving DecidableEq, Repr

/-- The bytes without a carriage return at their end. -/
def dropReturn (bytes : List UInt8) : List UInt8 :=
  if bytes.getLast? = some 0x0d then bytes.dropLast else bytes

/-- The next line and the bytes after it, `none` at the end of the input. A line ends at a line
feed; a carriage return before it belongs to the end. A piece that would end with a carriage return
leaves it to the next piece. -/
def nextLine? (bytes : List UInt8) : Option (Line × List UInt8) :=
  match bytes with
  | [] => none
  | _ :: _ =>
    let window := bytes.take bufferSize
    let body := window.takeWhile (· ≠ 0x0a)
    if body.length < window.length then
      some (⟨dropReturn body, false⟩, bytes.drop (body.length + 1))
    else if window.length < bufferSize then some (⟨body, false⟩, [])
    else
      let piece := dropReturn body
      some (⟨piece, true⟩, bytes.drop piece.length)

/-- At most `bound` lines of the input. -/
def linesUpTo (bound : Nat) (bytes : List UInt8) : List Line :=
  match bound with
  | 0 => []
  | bound + 1 =>
    match nextLine? bytes with
    | none => []
    | some (line, rest) => line :: linesUpTo bound rest

/-- The lines of the input. Each takes at least one byte, so their number is bounded. -/
def lines (bytes : List UInt8) : List Line := linesUpTo bytes.length bytes

end MazeRobot.Console
