/-! # Texts as bytes

A text is a sequence of characters; a source is a sequence of bytes, which need not be the encoding
of any text. This module goes from one to the other.

* `utf8`: the bytes of a text.
* `leading`: the character that starts a byte sequence, and how many bytes it takes.
* `readable`: the text of a byte sequence, with a replacement character for every byte that belongs
  to no character. -/

namespace MazeRobot.Text

/-- The UTF-8 bytes of a text. -/
def utf8 (s : String) : List UInt8 := s.toUTF8.toList

/-- The length of a text in UTF-8 bytes. -/
def byteLength (s : String) : Nat := s.utf8ByteSize

/-- The character shown in place of a byte that belongs to no character. -/
def replacement : Char := Char.ofNat 0xfffd

/-- The six payload bits of a continuation byte. -/
def continuation? (b : UInt8) : Option Nat :=
  if 0x80 ≤ b && b ≤ 0xbf then some (b.toNat - 0x80) else none

/-- The character that starts a byte sequence and the number of bytes that encode it. Overlong
forms, surrogates, values above U+10FFFF and truncated sequences encode no character. -/
def leading? : List UInt8 → Option (Char × Nat)
  | [] => none
  | a :: rest =>
    let n := a.toNat
    if n < 0x80 then
      some (Char.ofNat n, 1)
    else if n < 0xc2 then
      none
    else if n < 0xe0 then
      match rest with
      | b :: _ => (continuation? b).map fun x => (Char.ofNat ((n - 0xc0) * 64 + x), 2)
      | [] => none
    else if n < 0xf0 then
      match rest with
      | b :: c :: _ => do
        let x ← continuation? b
        let y ← continuation? c
        let code := (n - 0xe0) * 4096 + x * 64 + y
        if code < 0x800 || (0xd800 ≤ code && code ≤ 0xdfff) then none
        else some (Char.ofNat code, 3)
      | _ => none
    else if n < 0xf5 then
      match rest with
      | b :: c :: d :: _ => do
        let x ← continuation? b
        let y ← continuation? c
        let z ← continuation? d
        let code := (n - 0xf0) * 262144 + x * 4096 + y * 64 + z
        if code < 0x10000 || 0x10ffff < code then none
        else some (Char.ofNat code, 4)
      | _ => none
    else
      none

/-- The character that starts a byte sequence and its width; a byte that starts no character counts
as one replacement character. -/
def leading (bytes : List UInt8) : Char × Nat := (leading? bytes).getD (replacement, 1)

/-- The characters of a byte sequence after its first `skip` bytes. -/
def readableFrom (skip : Nat) : List UInt8 → List Char
  | [] => []
  | b :: rest =>
    match skip with
    | skip + 1 => readableFrom skip rest
    | 0 =>
      let (c, width) := leading (b :: rest)
      c :: readableFrom (width - 1) rest

/-- The text of a byte sequence, with a replacement character for every byte that belongs to no
character. -/
def readable (bytes : List UInt8) : String := String.ofList (readableFrom 0 bytes)

end MazeRobot.Text
