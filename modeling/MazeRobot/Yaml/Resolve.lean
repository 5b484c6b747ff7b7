import MazeRobot.Text.Base64
import MazeRobot.Text.Raw
import MazeRobot.Yaml.Number
import MazeRobot.Yaml.Timestamp
import MazeRobot.Yaml.Token

/-! # What scalars mean

A scalar without quotes is read as nothing, a truth value, a number, a time or a text, by its
characters alone. A tag can say what a scalar is to be read as.

* `Value`: what a scalar means.
* `resolve`: the meaning of a plain scalar.
* `scalarTag`: the tag of a scalar, written or told by its characters.
* `meaning?`: the meaning of a scalar with a tag. -/

namespace MazeRobot.Yaml

/-- What a scalar means. -/
inductive Value where
  /-- Nothing. -/
  | null
  /-- A truth value. -/
  | bool (value : Bool)
  /-- A whole number. -/
  | int (value : Int)
  /-- A fraction, by its whole part as a 64-bit number, where it is not too large for one. -/
  | float (whole : Option Int)
  /-- A date or a time. -/
  | timestamp
  /-- A text. -/
  | str (text : String)
  /-- A text that is given by its bytes. -/
  | bytes (text : RawText)
  deriving DecidableEq, Repr

/-- The tag of a meaning. -/
def Value.tag : Value → String
  | null => "!!null"
  | bool _ => "!!bool"
  | int _ => "!!int"
  | float _ => "!!float"
  | timestamp => "!!timestamp"
  | str _ => "!!str"
  | bytes _ => "!!binary"

/-- The least 64-bit number, which also stands for fractions below all of them. -/
def leastInt : Int := -wordBound

/-- The whole part of a fraction as a 64-bit number. What is too small for one is taken for the
least one, and so is two to the power of 63; anything greater has none. -/
def wholeInt (negative : Bool) (whole : Nat) : Option Int :=
  if negative then some (if whole ≤ wordBound then -whole else leastInt)
  else if whole < wordBound then some whole
  else if whole = wordBound then some leastInt
  else none

/-- The words with a meaning of their own. -/
def wordValue? (text : String) : Option Value :=
  match text with
  | "" | "~" | "null" | "Null" | "NULL" => some .null
  | "true" | "True" | "TRUE" => some (.bool true)
  | "false" | "False" | "FALSE" => some (.bool false)
  | ".nan" | ".NaN" | ".NAN" => some (.float none)
  | ".inf" | ".Inf" | ".INF" | "+.inf" | "+.Inf" | "+.INF" => some (.float none)
  | "-.inf" | "-.Inf" | "-.INF" => some (.float (some leastInt))
  | _ => none

/-- The fraction that characters write. -/
def floatValue? (cs : List Char) : Option Value := do
  let decimal ← Decimal.ofChars? cs
  let whole ← decimal.whole?
  return .float (wholeInt decimal.negative whole)

/-- The number that characters write, with underscores for readability. -/
def numberValue? (cs : List Char) : Option Value :=
  let plain := cs.filter (· ≠ '_')
  match integer? plain with
  | some n => some (.int n)
  | none => floatValue? plain

/-- The meaning of a plain scalar; times count only where `times` is set. -/
def resolveWith (times : Bool) (text : String) : Value :=
  match wordValue? text with
  | some value => value
  | none =>
    match text.toList with
    | [] => .null
    | c :: cs =>
      let value :=
        if c = '.' then
          if Decimal.separates false (c :: cs) then floatValue? ((c :: cs).filter (· ≠ '_'))
          else none
        else if c.isDigit || c = '+' || c = '-' then
          if times && isTimestamp text then some .timestamp else numberValue? (c :: cs)
        else none
      value.getD (.str text)

/-- The meaning of a plain scalar. -/
def resolve (text : String) : Value := resolveWith true text

/-! ## Tags -/

/-- The tag of a scalar: the one that is written, else that of a text where there are quotes, else
what the characters tell. Two less-than signs have a tag of their own. -/
def scalarTag (written : Option String) (text : String) (style : Style) : String :=
  match written, style with
  | some tag, _ => tag
  | none, .quoted => "!!str"
  | none, .plain => if text = "<<" then "!!merge" else (resolve text).tag

/-- The tags that have to agree with the characters of their scalars. -/
def checkedTags : List String := ["!!bool", "!!int", "!!float", "!!null", "!!timestamp"]

/-- The meaning of characters with a tag that has to agree with them. Only a whole number of 64 bits
with a sign can be taken for a fraction. -/
def resolveAs (tag text : String) : Option Value :=
  let value := resolveWith (tag = "!!timestamp") text
  if value.tag = tag then some value
  else
    match tag, value with
    | "!!float", .int n => if n < wordBound then some (.float (wholeInt (n < 0) n.natAbs)) else none
    | _, _ => none

/-- The meaning of a scalar with a tag, if it has one. Binary data is written in base 64, and with a
tag that is not known a scalar is a text. -/
def meaning? (tag text : String) : Option Value :=
  if tag ∈ checkedTags then resolveAs tag text
  else if tag = "!!binary" then
    (Text.decodeBase64? text.toList).map fun bytes => .bytes (.ofBytes bytes)
  else some (.str text)

/-! ## Older words -/

/-- The words that older documents use for truth values. -/
def oldBool? (text : String) : Option Bool :=
  match text with
  | "y" | "Y" | "yes" | "Yes" | "YES" | "on" | "On" | "ON" => some true
  | "n" | "N" | "no" | "No" | "NO" | "off" | "Off" | "OFF" => some false
  | _ => none

end MazeRobot.Yaml
