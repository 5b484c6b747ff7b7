import MazeRobot.Text.Printable

/-! # Quoted texts

How a text is shown inside a message when its exact characters matter: between quotes, with
printable characters as they are and all others as escapes.

* `quote`: a text between double quotes.
* `quoteChar`: one character between single quotes. -/

namespace MazeRobot.Text

/-- A hexadecimal digit in lower case. -/
def hexDigit (n : Nat) : Char :=
  if n < 10 then Char.ofNat (0x30 + n) else Char.ofNat (0x61 + (n - 10))

/-- The last `width` hexadecimal digits of a number. -/
def hex (width n : Nat) : List Char :=
  match width with
  | 0 => []
  | width + 1 => hex width (n / 16) ++ [hexDigit (n % 16)]

/-- The escape of a character that is not shown as it is. -/
def escape (c : Char) : List Char :=
  let code := c.toNat
  if code == 0x07 then ['\\', 'a']
  else if code == 0x08 then ['\\', 'b']
  else if code == 0x0c then ['\\', 'f']
  else if code == 0x0a then ['\\', 'n']
  else if code == 0x0d then ['\\', 'r']
  else if code == 0x09 then ['\\', 't']
  else if code == 0x0b then ['\\', 'v']
  else if code < 0x80 then '\\' :: 'x' :: hex 2 code
  else if code < 0x10000 then '\\' :: 'u' :: hex 4 code
  else '\\' :: 'U' :: hex 8 code

/-- A character as it stands between quotes of the kind `mark`. -/
def quoted (mark c : Char) : List Char :=
  if c == mark || c == '\\' then ['\\', c]
  else if isPrintable c then [c]
  else escape c

/-- The text between double quotes. -/
def quote (s : String) : String :=
  String.ofList ('"' :: (s.toList.flatMap (quoted '"') ++ ['"']))

/-- The character between single quotes. -/
def quoteChar (c : Char) : String :=
  String.ofList (Char.ofNat 0x27 :: (quoted (Char.ofNat 0x27) c ++ [Char.ofNat 0x27]))

end MazeRobot.Text
