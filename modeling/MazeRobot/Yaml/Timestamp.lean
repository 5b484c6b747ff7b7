/-! # Timestamps

Which texts are dates or times: a year of four digits, a month and a day, then possibly a time of
day. After a `T` the time has a zone, after blanks it has none. Fields other than the year have one
or two digits, a fraction of a second may follow the seconds, and the day must exist in its month.

* `isTimestamp`: the test. -/

namespace MazeRobot.Yaml

/-- A number of one or two digits and the characters after it. -/
def shortNumber? : List Char → Option (Nat × List Char)
  | c :: d :: rest =>
    if !c.isDigit then none
    else if d.isDigit then some ((c.toNat - 48) * 10 + (d.toNat - 48), rest)
    else some (c.toNat - 48, d :: rest)
  | [c] => if c.isDigit then some (c.toNat - 48, []) else none
  | [] => none

/-- A number of exactly two digits and the characters after it. -/
def twoDigits? : List Char → Option (Nat × List Char)
  | c :: d :: rest =>
    if c.isDigit && d.isDigit then some ((c.toNat - 48) * 10 + (d.toNat - 48), rest) else none
  | _ => none

/-- A year of four digits and the characters after it. -/
def year? (cs : List Char) : Option (Nat × List Char) :=
  let digits := cs.takeWhile Char.isDigit
  if digits.length = 4 then some (digits.foldl (fun n c => n * 10 + (c.toNat - 48)) 0, cs.drop 4)
  else none

/-- The characters after the given one. -/
def after? (c : Char) : List Char → Option (List Char)
  | d :: rest => if c = d then some rest else none
  | [] => none

/-- Whether a year has a leap day. -/
def isLeapYear (year : Nat) : Bool := year % 4 = 0 && (year % 100 ≠ 0 || year % 400 = 0)

/-- The number of days of a month. -/
def daysIn (year month : Nat) : Nat :=
  if month = 2 then (if isLeapYear year then 29 else 28)
  else if month ∈ [4, 6, 9, 11] then 30
  else 31

/-- The characters after a date. -/
def afterDate? (cs : List Char) : Option (List Char) := do
  let (year, cs) ← year? cs
  let cs ← after? '-' cs
  let (month, cs) ← shortNumber? cs
  guard (1 ≤ month && month ≤ 12)
  let cs ← after? '-' cs
  let (day, cs) ← shortNumber? cs
  guard (1 ≤ day && day ≤ daysIn year month)
  return cs

/-- The characters after a fraction of a second, if there is one. -/
def afterFraction : List Char → List Char
  | c :: d :: rest =>
    if (c = '.' || c = ',') && d.isDigit then rest.dropWhile Char.isDigit else c :: d :: rest
  | cs => cs

/-- The characters after a time of day. -/
def afterTime? (cs : List Char) : Option (List Char) := do
  let (hour, cs) ← shortNumber? cs
  guard (hour < 24)
  let cs ← after? ':' cs
  let (minute, cs) ← shortNumber? cs
  guard (minute < 60)
  let cs ← after? ':' cs
  let (second, cs) ← shortNumber? cs
  guard (second < 60)
  return afterFraction cs

/-- Whether the characters are a time zone: `Z`, or hours and minutes with a sign. -/
def isZone : List Char → Bool
  | ['Z'] => true
  | sign :: cs =>
    (sign = '+' || sign = '-') && (do
      let (hours, cs) ← twoDigits? cs
      let cs ← after? ':' cs
      let (minutes, cs) ← twoDigits? cs
      return hours ≤ 24 && minutes ≤ 60 && cs.isEmpty).getD false
  | [] => false

/-- Whether a text is a date, possibly with a time of day. -/
def isTimestamp (text : String) : Bool :=
  match afterDate? text.toList with
  | none => false
  | some [] => true
  | some (c :: rest) =>
    if c = 'T' || c = 't' then (afterTime? rest).any isZone
    else c = ' ' && (afterTime? (rest.dropWhile (· = ' '))).any List.isEmpty

end MazeRobot.Yaml
