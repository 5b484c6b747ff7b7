import Mathlib.Data.List.DropRight
import MazeRobot.Maze.Grid
import MazeRobot.Proofs.Results

/-! # Mazes as text

A maze is drawn with one character to a cell, and reading the drawing gives the maze back. Reading
forgives more than drawing produces (blank lines at both ends, two characters for an empty cell), so
what is read is brought into a normal form: a rectangle of known cells, with at least one of them.

* `stripEnds`: a list without the members of a kind at both ends.
* `Grid.Drawable`: the mazes that reading can give.
* `Grid.drawable_of_parse`: reading gives no others.
* `Grid.Drawable.parse_text_lineBreak`: a drawn maze, closed by a line break, is read back. -/

namespace MazeRobot

/-! ## Both ends of a list -/

section Ends

variable {α : Type} {p : α → Bool}

/-- A list without the members at both ends that have a property. -/
def stripEnds (p : α → Bool) (xs : List α) : List α := (xs.dropWhile p).rdropWhile p

/-- The first member of `stripEnds p xs` does not have the property `p`. -/
theorem not_of_head?_stripEnds {xs : List α} {x : α} (head : (stripEnds p xs).head? = some x) :
    p x = false := by
  obtain ⟨tail, whole⟩ := List.rdropWhile_prefix p (xs.dropWhile p)
  have first : (xs.dropWhile p).head? = some x := by
    rw [← whole, List.head?_append]
    exact congrArg (·.or tail.head?) head
  have bare := List.head?_dropWhile_not p xs
  rw [first] at bare
  exact bare

/-- The last member of `stripEnds p xs` does not have the property `p`. -/
theorem not_of_getLast?_stripEnds {xs : List α} {x : α}
    (last : (stripEnds p xs).getLast? = some x) : p x = false := by
  have inhabited : stripEnds p xs ≠ [] := List.ne_nil_of_mem (List.mem_of_getLast? last)
  rw [List.getLast?_eq_some_getLast inhabited] at last
  cases last
  exact Bool.eq_false_iff.mpr (List.rdropWhile_last_not p (xs.dropWhile p) inhabited)

/-- `stripEnds p` keeps a list of which neither the first nor the last member has the property
`p`. -/
theorem stripEnds_eq_self {xs : List α} (head : ∀ x, xs.head? = some x → p x = false)
    (last : ∀ x, xs.getLast? = some x → p x = false) : stripEnds p xs = xs := by
  have front : xs.dropWhile p = xs := by
    cases xs with
    | nil => rfl
    | cons x rest => rw [List.dropWhile_cons_of_neg (by simp [head x rfl])]
  rw [stripEnds, front, List.rdropWhile_eq_self_iff]
  intro inhabited
  simp [last _ (List.getLast?_eq_some_getLast inhabited)]

/-- `stripEnds` is idempotent. -/
theorem stripEnds_stripEnds (xs : List α) : stripEnds p (stripEnds p xs) = stripEnds p xs := by
  apply stripEnds_eq_self
  · intro x head
    exact not_of_head?_stripEnds head
  · intro x last
    exact not_of_getLast?_stripEnds last

/-- `stripEnds p` leaves out members with the property `p` behind a list. -/
theorem stripEnds_append (xs : List α) {ys : List α} (idle : ∀ y ∈ ys, p y) :
    stripEnds p (xs ++ ys) = stripEnds p xs := by
  have dropped (zs : List α) : (zs ++ ys).rdropWhile p = zs.rdropWhile p := by
    have gone : ys.reverse.dropWhile p = [] := by simpa using idle
    rw [List.rdropWhile, List.rdropWhile, List.reverse_append, List.dropWhile_append, gone]
    rfl
  rw [stripEnds, stripEnds, List.dropWhile_append]
  split
  · -- Nothing of the list itself is left, so the members behind it are dropped from the front.
    next empty =>
    rw [List.isEmpty_iff.mp empty, List.dropWhile_eq_nil_iff.mpr idle]
  · exact dropped _

end Ends

/-- `RawText.trim` is `stripEnds` of the glyphs. -/
theorem RawText.trim_eq (text : RawText) : text.trim = ⟨stripEnds Glyph.isBlank text.glyphs⟩ := rfl

/-- `RawText.trim` is idempotent. -/
@[simp] theorem RawText.trim_trim (text : RawText) : text.trim.trim = text.trim := by
  rw [trim_eq text, trim_eq, stripEnds_stripEnds]

/-! ## Cells -/

namespace Cell

/-- The cells that are drawn by a character of their own. -/
def IsKnown (c : Cell) : Prop := ∀ code, c ≠ other code

/-- The `char` of no cell is white space. -/
theorem isBlank_char (c : Cell) : Text.isBlank c.char = false := by
  cases c <;> rfl

/-- The `char` of a cell that `IsKnown` is one byte, which draws the cell. -/
theorem IsKnown.bytes_char {c : Cell} (known : c.IsKnown) :
    ∃ b, (Glyph.char c.char).bytes = [b] ∧ ofByte? b = some c := by
  cases c with
  | empty => exact ⟨0x2e, by decide +kernel, rfl⟩
  | wall => exact ⟨0x23, by decide +kernel, rfl⟩
  | start => exact ⟨0x53, by decide +kernel, rfl⟩
  | goal => exact ⟨0x45, by decide +kernel, rfl⟩
  | other code => exact absurd rfl (known code)

/-- `ofByte?` gives known cells only. -/
theorem isKnown_of_ofByte? {b : UInt8} {c : Cell} (drawn : ofByte? b = some c) : c.IsKnown := by
  rintro code rfl
  simp only [ofByte?] at drawn
  grind

end Cell

/-- `Glyph.bytes` is never empty. -/
theorem Glyph.bytes_ne_nil (g : Glyph) : g.bytes ≠ [] := by
  cases g with
  | char c =>
    have length : (String.utf8EncodeChar c).length = c.utf8Size := String.length_utf8EncodeChar c
    have positive := c.utf8Size_pos
    exact List.ne_nil_of_length_pos (by rw [bytes]; omega)
  | stray b => simp [bytes]

namespace Grid

/-! ## Lines -/

/-- `lines` finds at least one line. -/
theorem lines_ne_nil (gs : List Glyph) : lines gs ≠ [] := by
  cases gs with
  | nil => simp [lines]
  | cons g rest =>
    simp only [lines]
    split
    · simp
    · split <;> simp

/-- `lines` ends a line at a line break, whatever stands on its two sides. -/
theorem lines_append_lineBreak (before after : List Glyph) :
    lines (before ++ .char '\n' :: after) = lines before ++ lines after := by
  induction before with
  | nil => simp [lines]
  | cons g rest ih =>
    rw [List.cons_append, lines, lines, ih]
    by_cases isBreak : g = .char '\n'
    · simp [isBreak]
    · -- The glyph goes in front of the first line of the rest, and there always is one.
      rw [if_neg isBreak, if_neg isBreak]
      cases split : lines rest with
      | nil => exact absurd split (lines_ne_nil rest)
      | cons line others => rfl

/-- `lines` of a text without line breaks is one line. -/
theorem lines_of_notMem {gs : List Glyph} (unbroken : .char '\n' ∉ gs) : lines gs = [gs] := by
  induction gs with
  | nil => rfl
  | cons g rest ih =>
    have other : g ≠ .char '\n' := by
      rintro rfl
      simp at unbroken
    have tail := ih fun member => unbroken (List.mem_cons_of_mem g member)
    rw [lines, if_neg other, tail]

/-- `lines` of some texts joined by line breaks are the lines of each. -/
theorem lines_intercalate {texts : List String} (inhabited : texts ≠ []) :
    lines (RawText.ofString (String.intercalate "\n" texts)).glyphs =
      texts.flatMap fun text => lines (RawText.ofString text).glyphs := by
  induction texts with
  | nil => exact absurd rfl inhabited
  | cons text rest ih =>
    cases rest with
    | nil => simp
    | cons next others =>
      have tail := ih (by simp)
      rw [List.flatMap_cons, ← tail, ← lines_append_lineBreak, String.intercalate_cons_cons]
      simp [RawText.ofString]

/-- Every glyph but a line break stands in one of the `lines`. -/
theorem exists_mem_lines {gs : List Glyph} {g : Glyph} (member : g ∈ gs)
    (ink : g ≠ .char '\n') : ∃ line ∈ lines gs, g ∈ line := by
  induction gs with
  | nil => cases member
  | cons first rest ih =>
    rw [lines]
    by_cases isBreak : first = .char '\n'
    · have later : g ∈ rest := by
        rcases List.mem_cons.mp member with rfl | later
        · exact absurd isBreak ink
        · exact later
      obtain ⟨line, found, inside⟩ := ih later
      rw [if_pos isBreak]
      exact ⟨line, List.mem_cons_of_mem _ found, inside⟩
    · rw [if_neg isBreak]
      cases split : lines rest with
      | nil => exact absurd split (lines_ne_nil rest)
      | cons line others =>
        rcases List.mem_cons.mp member with rfl | later
        · exact ⟨g :: line, by simp, by simp⟩
        · obtain ⟨found, among, inside⟩ := ih later
          rw [split] at among
          rcases List.mem_cons.mp among with rfl | among
          · exact ⟨first :: found, by simp, by simp [inside]⟩
          · exact ⟨found, by simp [among], inside⟩

/-- `plainBreaks` keeps a text without carriage returns. -/
theorem plainBreaks_of_notMem {gs : List Glyph} (plain : .char '\r' ∉ gs) :
    plainBreaks gs = gs := by
  fun_induction plainBreaks gs with
  | case1 rest ih => simp at plain
  | case2 g rest other ih => rw [ih fun member => plain (List.mem_cons_of_mem g member)]
  | case3 => rfl

/-- `inkedLines` strips the blank lines from both ends. -/
theorem inkedLines_eq (ls : List (List Glyph)) : inkedLines ls = stripEnds isBlankLine ls := rfl

/-! ## Drawn rows -/

/-- The glyphs of a row. -/
def drawnRow (row : List Cell) : List Glyph := (rowText row).map .char

/-- The bytes of a row. -/
def rowBytes (row : List Cell) : List UInt8 := (drawnRow row).flatMap Glyph.bytes

/-- No glyph of a `drawnRow` is white space. -/
theorem isBlank_of_mem_drawnRow {row : List Cell} {g : Glyph} (member : g ∈ drawnRow row) :
    g.isBlank = false := by
  simp only [drawnRow, rowText, List.map_map, List.mem_map] at member
  obtain ⟨c, -, rfl⟩ := member
  exact c.isBlank_char

/-- A white-space character stands in no `drawnRow`. -/
theorem notMem_drawnRow {c : Char} (blank : Text.isBlank c) (row : List Cell) :
    Glyph.char c ∉ drawnRow row := by
  intro member
  have ink : Text.isBlank c = false := isBlank_of_mem_drawnRow member
  rw [ink] at blank
  cases blank

/-- A `drawnRow` with a cell is no blank line. -/
theorem isBlankLine_drawnRow {row : List Cell} (wide : 0 < row.length) :
    isBlankLine (drawnRow row) = false := by
  cases row with
  | nil => cases wide
  | cons c rest =>
    have ink : (Glyph.char c.char).isBlank = false := c.isBlank_char
    simp [isBlankLine, drawnRow, rowText, ink]

/-- `parseRow` reads back the `rowBytes` of known cells. -/
theorem parseRow_rowBytes {row : List Cell} (known : ∀ c ∈ row, c.IsKnown) (y x : Nat) :
    parseRow y x (rowBytes row) = .ok row := by
  induction row generalizing x with
  | nil => rfl
  | cons c rest ih =>
    obtain ⟨b, encoded, drawn⟩ := (known c (by simp)).bytes_char
    have split : rowBytes (c :: rest) = b :: rowBytes rest := by
      show (Glyph.char c.char).bytes ++ rowBytes rest = _
      rw [encoded]
      rfl
    have others := ih (fun d member => known d (List.mem_cons_of_mem c member)) (x + 1)
    rw [split, parseRow, drawn]
    simp only [others]
    rfl

/-- `parseRow` gives one known cell to a byte. -/
theorem known_of_parseRow {bytes : List UInt8} {row : List Cell} {y x : Nat}
    (read : parseRow y x bytes = .ok row) :
    row.length = bytes.length ∧ ∀ c ∈ row, c.IsKnown := by
  induction bytes generalizing row x with
  | nil =>
    cases read
    simp
  | cons b rest ih =>
    rw [parseRow] at read
    cases drawn : Cell.ofByte? b with
    | none => simp [drawn] at read
    | some c =>
      rw [drawn] at read
      obtain ⟨cells, tail, whole⟩ := bind_eq_ok_iff.mp read
      cases whole
      obtain ⟨length, known⟩ := ih tail
      refine ⟨by simp [length], ?_⟩
      intro d member
      rcases List.mem_cons.mp member with rfl | member
      · exact Cell.isKnown_of_ofByte? drawn
      · exact known d member

/-- `parseRows` reads back the `rowBytes` of rows of known cells and of one width. -/
theorem parseRows_rowBytes {rows : List (List Cell)} {width : Nat}
    (even : ∀ row ∈ rows, row.length = width) (known : ∀ row ∈ rows, ∀ c ∈ row, c.IsKnown)
    (y : Nat) : parseRows width y (rows.map rowBytes) = .ok rows := by
  induction rows generalizing y with
  | nil => rfl
  | cons row rest ih =>
    have cells := parseRow_rowBytes (known row (by simp)) y 0
    have length : (rowBytes row).length = width :=
      (known_of_parseRow cells).1.symm.trans (even row (by simp))
    have others := ih (fun r member => even r (by simp [member]))
      (fun r member => known r (by simp [member])) (y + 1)
    rw [List.map_cons, parseRows, if_neg (by simp [length])]
    simp only [cells, others]
    rfl

/-- `parseRows` gives as many rows of known cells as there are rows of bytes, all of the asked
width. -/
theorem known_of_parseRows {bytes : List (List UInt8)} {rows : List (List Cell)} {width y : Nat}
    (read : parseRows width y bytes = .ok rows) :
    rows.length = bytes.length ∧ ∀ row ∈ rows, row.length = width ∧ ∀ c ∈ row, c.IsKnown := by
  induction bytes generalizing rows y with
  | nil =>
    cases read
    simp
  | cons first rest ih =>
    rw [parseRows] at read
    by_cases even : first.length = width
    · rw [if_neg (by simp [even])] at read
      obtain ⟨cells, head, read⟩ := bind_eq_ok_iff.mp read
      obtain ⟨others, tail, whole⟩ := bind_eq_ok_iff.mp read
      cases whole
      obtain ⟨length, known⟩ := known_of_parseRow head
      obtain ⟨count, below⟩ := ih tail
      refine ⟨by simp [count], ?_⟩
      intro row member
      rcases List.mem_cons.mp member with rfl | member
      · exact ⟨length.trans even, known⟩
      · exact below row member
    · rw [if_pos even] at read
      cases read

/-! ## Drawable mazes -/

/-- A rectangle of known cells with at least one cell. -/
structure Drawable (g : Grid) : Prop where
  /-- There is a row, and it has a cell. -/
  wide : 0 < g.width
  /-- All rows are as long as the first. -/
  even : ∀ row ∈ g.rows, row.length = g.width
  /-- All cells are known. -/
  known : ∀ row ∈ g.rows, ∀ c ∈ row, c.IsKnown

namespace Drawable

variable {g : Grid}

/-- A `Drawable` maze has a row. -/
theorem rows_ne_nil (drawable : g.Drawable) : g.rows ≠ [] := by
  intro none
  have wide := drawable.wide
  simp [width, none] at wide

/-- No row of a `Drawable` maze would be taken for a blank line. -/
theorem inked (drawable : g.Drawable) {row : List Cell} (member : row ∈ g.rows) :
    isBlankLine (drawnRow row) = false := by
  apply isBlankLine_drawnRow
  rw [drawable.even row member]
  exact drawable.wide

/-- The `lines` of the `text` of a maze are its rows. -/
theorem lines_text (drawable : g.Drawable) :
    lines (RawText.ofString g.text).glyphs = g.rows.map drawnRow := by
  have inhabited : (g.rows.map fun row => String.ofList (rowText row)) ≠ [] := by
    simpa using drawable.rows_ne_nil
  rw [text, lines_intercalate inhabited, List.flatMap_map, List.map_eq_flatMap]
  congr 1
  funext row
  have glyphs : (RawText.ofString (String.ofList (rowText row))).glyphs = drawnRow row := by
    simp [RawText.ofString, drawnRow]
  rw [glyphs, lines_of_notMem (notMem_drawnRow (by decide) row)]

/-- No carriage return stands in the `text` of a maze. -/
theorem notMem_glyphs_text (drawable : g.Drawable) :
    Glyph.char '\r' ∉ (RawText.ofString g.text).glyphs := by
  intro member
  obtain ⟨line, among, inside⟩ := exists_mem_lines member (by decide)
  rw [drawable.lines_text] at among
  obtain ⟨row, -, rfl⟩ := List.mem_map.mp among
  exact notMem_drawnRow (by decide) row inside

/-- `inkedLines` leaves out blank lines behind the drawn rows again, and no row. -/
theorem inkedLines_append (drawable : g.Drawable) {after : List (List Glyph)}
    (blank : ∀ line ∈ after, isBlankLine line) :
    inkedLines (g.rows.map drawnRow ++ after) = g.rows.map drawnRow := by
  rw [inkedLines_eq, stripEnds_append _ blank]
  -- Both ends are rows of the maze, and none of these is blank.
  apply stripEnds_eq_self
  · intro line head
    obtain ⟨row, member, rfl⟩ := List.mem_map.mp (List.mem_of_head? head)
    exact drawable.inked member
  · intro line last
    obtain ⟨row, member, rfl⟩ := List.mem_map.mp (List.mem_of_getLast? last)
    exact drawable.inked member

/-- `parse` of a text whose `byteRows` are those of a drawable maze is that maze. -/
theorem parse_eq_ok (drawable : g.Drawable) {text : RawText}
    (drawn : byteRows text = g.rows.map rowBytes) : parse text = .ok g := by
  have read := parseRows_rowBytes drawable.even drawable.known 0
  cases shape : g.rows with
  | nil => exact absurd shape drawable.rows_ne_nil
  | cons first rest =>
    have length : (rowBytes first).length = g.width := by
      have cells := parseRow_rowBytes (drawable.known first (by simp [shape])) 0 0
      exact (known_of_parseRow cells).1.symm.trans (drawable.even first (by simp [shape]))
    rw [shape, List.map_cons] at drawn
    rw [shape, List.map_cons] at read
    rw [parse, drawn]
    simp only [length, read, ← shape]
    rfl

end Drawable

/-- `parse` reads back the `text` of a `Drawable` maze, closed by a line break. -/
theorem Drawable.parse_text_lineBreak {g : Grid} (drawable : g.Drawable) :
    parse (.ofString (g.text ++ "\n")) = .ok g := by
  apply drawable.parse_eq_ok
  have glyphs : (RawText.ofString (g.text ++ "\n")).glyphs =
      (RawText.ofString g.text).glyphs ++ [.char '\n'] := by
    simp [RawText.ofString]
  have plain : Glyph.char '\r' ∉ (RawText.ofString g.text).glyphs ++ [.char '\n'] := by
    simp [drawable.notMem_glyphs_text]
  rw [byteRows, glyphs, plainBreaks_of_notMem plain, lines_append_lineBreak, drawable.lines_text]
  -- The closing break leaves an empty line behind the rows.
  rw [drawable.inkedLines_append (by simp [lines, isBlankLine]), List.map_map]
  rfl

/-- `parse` gives `Drawable` mazes only. -/
theorem drawable_of_parse {text : RawText} {g : Grid} (read : parse text = .ok g) :
    g.Drawable := by
  rw [parse] at read
  cases shape : byteRows text with
  | nil => simp [shape] at read
  | cons first rest =>
    rw [shape] at read
    obtain ⟨rows, below, whole⟩ := bind_eq_ok_iff.mp read
    cases whole
    obtain ⟨count, known⟩ := known_of_parseRows below
    -- The first line that is kept is not blank, so it has a byte.
    have inked : first ≠ [] := by
      obtain ⟨line, others, kept, rfl, -⟩ := List.map_eq_cons_iff.mp shape
      have head := not_of_head?_stripEnds (congrArg List.head? kept)
      cases line with
      | nil => cases head
      | cons g rest => simp [g.bytes_ne_nil]
    cases rows with
    | nil => simp at count
    | cons row others =>
      have width : (Grid.mk (row :: others)).width = first.length := (known row (by simp)).1
      refine ⟨?_, ?_, ?_⟩
      · rw [width]
        exact List.length_pos_iff.mpr inked
      · intro r member
        rw [width]
        exact (known r member).1
      · intro r member
        exact (known r member).2

end Grid

end MazeRobot
