import MazeRobot.Word

/-! # Numbers

How plain scalars write numbers: whole numbers in four bases, with a sign, and decimal fractions
with an exponent. Fractions are rounded to the nearest number of 53 significant bits, as everywhere
in binary floating point, before their whole part is taken.

* `integer?`: a whole number, its base told by its first characters.
* `Decimal.ofChars?`: a decimal fraction.
* `Decimal.whole?`: its whole part after rounding. -/

namespace MazeRobot.Yaml

/-! ## Whole numbers -/

/-- The value of a digit in a base. -/
def digit? (base : Nat) (c : Char) : Option Nat :=
  let n := c.toNat
  let value :=
    if 0x30 ≤ n && n ≤ 0x39 then n - 0x30
    else if 0x41 ≤ n && n ≤ 0x5a then n - 0x41 + 10
    else if 0x61 ≤ n && n ≤ 0x7a then n - 0x61 + 10
    else base
  if value < base then some value else none

/-- The value of digits in a base, after digits of the given value. -/
def digitsFrom? (base value : Nat) : List Char → Option Nat
  | [] => some value
  | c :: cs =>
    match digit? base c with
    | some d => digitsFrom? base (value * base + d) cs
    | none => none

/-- The value of one or more digits in a base. -/
def digits? (base : Nat) (cs : List Char) : Option Nat :=
  if cs.isEmpty then none else digitsFrom? base 0 cs

/-- The base that a letter after a zero stands for. -/
def baseOf? (c : Char) : Option Nat :=
  match c with
  | 'b' | 'B' => some 2
  | 'o' | 'O' => some 8
  | 'x' | 'X' => some 16
  | _ => none

/-- The value of a number without a sign. A leading zero alone makes it octal. -/
def magnitude? : List Char → Option Nat
  | [] => none
  | '0' :: c :: d :: rest =>
    match baseOf? c with
    | some base => digits? base (d :: rest)
    | none => digitsFrom? 8 0 (c :: d :: rest)
  | '0' :: rest => digitsFrom? 8 0 rest
  | cs => digits? 10 cs

/-- The characters without their sign, and whether it is a minus. -/
def splitSign : List Char → Bool × List Char
  | '-' :: cs => (true, cs)
  | '+' :: cs => (false, cs)
  | cs => (false, cs)

/-- The value of a number with a sign, if it fits into 64 bits. -/
def signed? (negative : Bool) (value : Nat) : Option Int :=
  if negative then (if value ≤ wordBound then some (-value) else none)
  else if value < wordBound then some value
  else none

/-- The value of digits in a base with a sign, if it fits into 64 bits. -/
def signedDigits? (base : Nat) (cs : List Char) : Option Int := do
  let (negative, cs) := splitSign cs
  let value ← digits? base cs
  signed? negative value

/-- The whole number that characters write, if it fits into 64 bits with or without a sign. After a
letter for base two or eight the sign may also stand between the letter and the digits. -/
def integer? (cs : List Char) : Option Int :=
  let (negative, body) := splitSign cs
  let direct : Option Int := do
    let value ← magnitude? body
    match signed? negative value with
    | some n => some n
    | none => if body = cs && value < 2 * wordBound then some value else none
  let inner : Option Int :=
    match cs with
    | '0' :: 'b' :: rest => signedDigits? 2 rest
    | '0' :: 'o' :: rest => signedDigits? 8 rest
    | _ => none
  direct.or inner

/-! ## Decimal fractions -/

/-- A decimal fraction: its sign, its digits and the power of ten they are scaled by. -/
structure Decimal where
  /-- Whether it is below zero. -/
  negative : Bool
  /-- The digits as a whole number. -/
  digits : Nat
  /-- The power of ten. -/
  exponent : Int
  deriving DecidableEq, Repr

namespace Decimal

/-- The exponent that characters write, if they write one at all. -/
def exponent? : List Char → Option Int
  | [] => some 0
  | c :: cs =>
    if c = 'e' || c = 'E' then
      let (negative, cs) := splitSign cs
      (digits? 10 cs).map fun n => if negative then -(n : Int) else n
    else none

/-- The decimal fraction that characters write: digits, with a point anywhere but alone, and an
exponent. -/
def ofChars? (cs : List Char) : Option Decimal := do
  let (negative, cs) := splitSign cs
  let whole := cs.takeWhile Char.isDigit
  let rest := cs.drop whole.length
  let (fraction, rest) := match rest with
    | '.' :: rest => (rest.takeWhile Char.isDigit, rest.dropWhile Char.isDigit)
    | rest => ([], rest)
  guard (!whole.isEmpty || !fraction.isEmpty)
  let exponent ← exponent? rest
  let digits ← digits? 10 (whole ++ fraction)
  return ⟨negative, digits, exponent - fraction.length⟩

/-- Whether underscores stand only between digits. `afterDigit` tells whether the character before
is a digit. -/
def separates (afterDigit : Bool) : List Char → Bool
  | [] => true
  | '_' :: rest => afterDigit && rest.head?.any Char.isDigit && separates false rest
  | c :: rest => separates c.isDigit rest

/-- The quotient rounded to the nearest whole number, a half to the even one. -/
def roundedQuotient (num den : Nat) : Nat :=
  let q := num / den
  let r := num % den
  if den < 2 * r || (2 * r = den && q % 2 = 1) then q + 1 else q

/-- The whole part of a quotient after it is rounded to 53 significant bits. -/
def roundedWhole (num den : Nat) : Nat :=
  let whole := num / den
  if whole.log2 < 53 then
    let scale := Nat.pow 2 (if whole = 0 then 53 else 52 - whole.log2)
    roundedQuotient (num * scale) den / scale
  else
    let unit := Nat.pow 2 (whole.log2 - 52)
    roundedQuotient num (den * unit) * unit

/-- The magnitude of the whole part after rounding; none where the fraction is too large for binary
floating point. -/
def whole? (d : Decimal) : Option Nat :=
  let places := (Nat.toDigits 10 d.digits).length
  let top := d.exponent + places
  if d.digits = 0 || top < -1 then some 0
  else if 400 < top then none
  else
    let whole := if 0 ≤ d.exponent then roundedWhole (d.digits * Nat.pow 10 d.exponent.toNat) 1
      else roundedWhole d.digits (Nat.pow 10 (-d.exponent).toNat)
    if whole.log2 < 1024 then some whole else none

end Decimal

end MazeRobot.Yaml
