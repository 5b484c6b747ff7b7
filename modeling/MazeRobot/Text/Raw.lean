import MazeRobot.Text.Blank
import MazeRobot.Text.Quoted
import MazeRobot.Text.Utf8

/-! # Raw texts

Data that has been decoded from another form may hold bytes that belong to no character. A raw text
keeps them beside its characters, so that lengths in bytes and exact quotations stay right.

* `Glyph`: a character, or a byte that belongs to none.
* `RawText`: a sequence of glyphs.
* `RawText.ofString`, `RawText.ofBytes`: raw texts from texts and from bytes.
* `RawText.shown`: the text that people see. -/

namespace MazeRobot

/-- A character, or a byte that belongs to none. -/
inductive Glyph where
  /-- A character. -/
  | char (c : Char)
  /-- A byte that belongs to no character. -/
  | stray (byte : UInt8)
  deriving DecidableEq, Repr

namespace Glyph

/-- The bytes of a glyph. -/
def bytes : Glyph → List UInt8
  | char c => String.utf8EncodeChar c
  | stray byte => [byte]

/-- The character that people see: a replacement character for a byte that belongs to none. -/
def shown : Glyph → Char
  | char c => c
  | stray _ => Text.replacement

/-- A glyph as it stands between double quotes; a byte that belongs to no character is written by
its number. -/
def quoted : Glyph → List Char
  | char c => Text.quoted '"' c
  | stray byte => '\\' :: 'x' :: Text.hex 2 byte.toNat

/-- Whether a glyph is a white-space character. -/
def isBlank : Glyph → Bool
  | char c => Text.isBlank c
  | stray _ => false

/-- Whether a glyph is a byte that belongs to no character. -/
def isStray : Glyph → Bool
  | char _ => false
  | stray _ => true

end Glyph

/-- A text that may hold bytes that belong to no character. -/
structure RawText where
  /-- The characters and bytes, in order. -/
  glyphs : List Glyph := []
  deriving DecidableEq, Repr

namespace RawText

/-- A text as a raw text. -/
def ofString (s : String) : RawText := ⟨s.toList.map .char⟩

instance : Coe String RawText := ⟨ofString⟩

/-- The glyphs of a byte sequence after its first `skip` bytes. -/
def glyphsFrom (skip : Nat) : List UInt8 → List Glyph
  | [] => []
  | b :: rest =>
    match skip with
    | skip + 1 => glyphsFrom skip rest
    | 0 =>
      match Text.leading? (b :: rest) with
      | some (c, width) => .char c :: glyphsFrom (width - 1) rest
      | none => .stray b :: glyphsFrom 0 rest

/-- The raw text of a byte sequence. -/
def ofBytes (bytes : List UInt8) : RawText := ⟨glyphsFrom 0 bytes⟩

/-- The bytes of a raw text. -/
def bytes (text : RawText) : List UInt8 := text.glyphs.flatMap Glyph.bytes

/-- The text that people see, with a replacement character for every byte that belongs to no
character. -/
def shown (text : RawText) : String := String.ofList (text.glyphs.map Glyph.shown)

/-- The raw text between double quotes. -/
def quote (text : RawText) : String :=
  String.ofList ('"' :: (text.glyphs.flatMap Glyph.quoted ++ ['"']))

/-- The raw text without the blanks at both ends. -/
def trim (text : RawText) : RawText :=
  ⟨((text.glyphs.dropWhile Glyph.isBlank).reverse.dropWhile Glyph.isBlank).reverse⟩

/-- Whether there is nothing in the raw text. -/
def isEmpty (text : RawText) : Bool := text.glyphs.isEmpty

/-- Whether some byte of the raw text belongs to no character. -/
def hasStray (text : RawText) : Bool := text.glyphs.any Glyph.isStray

/-- `ofString` of a text is `shown` as the text. -/
@[simp] theorem shown_ofString (s : String) : (ofString s).shown = s := by
  simp [ofString, shown, Function.comp_def, Glyph.shown]

/-- `ofString` of a text is quoted by `Text.quote`. -/
@[simp] theorem quote_ofString (s : String) : (ofString s).quote = Text.quote s := by
  simp [ofString, quote, Text.quote, List.flatMap_map, Glyph.quoted]

end RawText

end MazeRobot
