import MazeRobot.Proofs.GridText

/-! # Drawings and mazes

A drawing is a text of lines, which end with a line break or with a carriage return and a line
break. The maze that it shows does not depend on how its lines end, nor on blank lines above and
below it. So all drawings of a maze are read as that maze, and drawing what was read is a normal
form.

* `stripEnds_eq_iff`: a list without the members of a kind at both ends.
* `Grid.Lined`: a text made of lines, with either kind of line end.
* `Grid.lines_plainBreaks_iff`: the lines that are read are those of which the text is made.
* `Grid.Inked`: the lines of a text that are left when blank lines at both ends are taken away.
* `Grid.parse_drawings`: reading and drawing are inverse. -/

namespace MazeRobot

/-! ## Both ends of a list -/

section Ends

variable {α : Type} {p : α → Bool}

/-- `stripEnds p` leaves what stands between members with the property `p`, and neither starts nor
ends with one. -/
theorem stripEnds_eq_iff {xs ys : List α} :
    stripEnds p xs = ys ↔
      ∃ before after, xs = before ++ ys ++ after ∧ (∀ x ∈ before ++ after, p x = true) ∧
        (∀ y, ys.head? = some y → p y = false) ∧ ∀ y, ys.getLast? = some y → p y = false := by
  constructor
  · rintro rfl
    refine ⟨xs.takeWhile p, (xs.dropWhile p).rtakeWhile p, ?_, ?_,
      fun y head => not_of_head?_stripEnds head, fun y last => not_of_getLast?_stripEnds last⟩
    · rw [List.append_assoc, stripEnds, List.rdropWhile_append_rtakeWhile,
        List.takeWhile_append_dropWhile]
    · intro x member
      rcases List.mem_append.mp member with front | back
      · exact List.mem_takeWhile_imp front
      · exact List.mem_rtakeWhile_imp back
  · rintro ⟨before, after, rfl, idle, head, last⟩
    rw [List.forall_mem_append] at idle
    rw [stripEnds_append _ idle.2, stripEnds, List.dropWhile_append_of_pos idle.1]
    exact stripEnds_eq_self head last

end Ends

namespace Grid

/-! ## Texts made of lines -/

/-- A text made of lines. Each of them but the last is ended by a line break, or by a carriage
return and a line break; a carriage return right before a line break belongs to the line end. -/
inductive Lined : List (List Glyph) → List Glyph → Prop
  /-- One line. -/
  | last {line : List Glyph} (unbroken : .char '\n' ∉ line) : Lined [line] line
  /-- A line that is ended by a line break. -/
  | plain {line rest : List Glyph} {lines : List (List Glyph)} (unbroken : .char '\n' ∉ line)
      (bare : line.getLast? ≠ some (.char '\r')) (others : Lined lines rest) :
      Lined (line :: lines) (line ++ .char '\n' :: rest)
  /-- A line that is ended by a carriage return and a line break. -/
  | returned {line rest : List Glyph} {lines : List (List Glyph)} (unbroken : .char '\n' ∉ line)
      (others : Lined lines rest) : Lined (line :: lines) (line ++ .char '\r' :: .char '\n' :: rest)

/-- `plainBreaks` keeps a glyph that is no carriage return right before a line break. -/
theorem plainBreaks_cons {g : Glyph} {rest : List Glyph}
    (kept : g = .char '\r' → rest.head? ≠ some (.char '\n')) :
    plainBreaks (g :: rest) = g :: plainBreaks rest := by
  rw [plainBreaks.eq_def]
  split <;> simp_all

/-- `plainBreaks` keeps a line, unless it ends in a carriage return right before a line break. -/
theorem plainBreaks_append {line rest : List Glyph} (unbroken : .char '\n' ∉ line)
    (kept : line.getLast? = some (.char '\r') → rest.head? ≠ some (.char '\n')) :
    plainBreaks (line ++ rest) = line ++ plainBreaks rest := by
  induction line with
  | nil => rfl
  | cons g line ih =>
    have tail : plainBreaks (line ++ rest) = line ++ plainBreaks rest := by
      refine ih (fun member => unbroken (List.mem_cons_of_mem g member)) fun last => kept ?_
      rw [List.getLast?_cons, last]
      rfl
    rw [List.cons_append, plainBreaks_cons, tail, List.cons_append]
    rintro rfl
    cases line with
    | nil => exact kept rfl
    | cons next line =>
      rintro head
      cases head
      simp at unbroken

/-- The `lines` that are read are those of which the text is made: `Lined` tells them. -/
theorem Lined.lines_plainBreaks {ls : List (List Glyph)} {text : List Glyph}
    (lined : Lined ls text) : lines (plainBreaks text) = ls := by
  induction lined with
  | @last line unbroken =>
    have kept : plainBreaks (line ++ []) = line ++ plainBreaks [] :=
      plainBreaks_append unbroken (by simp)
    rw [plainBreaks, List.append_nil] at kept
    rw [kept, lines_of_notMem unbroken]
  | @plain line rest others unbroken bare lined ih =>
    rw [plainBreaks_append unbroken fun returned => absurd returned bare,
      plainBreaks_cons (by simp), lines_append_lineBreak, lines_of_notMem unbroken, ih]
    rfl
  | @returned line rest others unbroken lined ih =>
    rw [plainBreaks_append unbroken fun _ => by simp, plainBreaks, lines_append_lineBreak,
      lines_of_notMem unbroken, ih]
    rfl

/-- Every text is `Lined` by some lines. -/
theorem exists_lined (text : List Glyph) : ∃ ls, Lined ls text := by
  induction text with
  | nil => exact ⟨[[]], .last List.not_mem_nil⟩
  | cons g rest ih =>
    obtain ⟨ls, lined⟩ := ih
    by_cases isBreak : g = .char '\n'
    · subst isBreak
      exact ⟨[] :: ls, .plain List.not_mem_nil (by simp) lined⟩
    · -- The glyph goes in front of the first line; alone before a line break, a carriage return
      -- becomes part of the line end.
      have notMem {line : List Glyph} (unbroken : .char '\n' ∉ line) : .char '\n' ∉ g :: line := by
        simp [unbroken, Ne.symm isBreak]
      cases lined with
      | last unbroken => exact ⟨_, .last (notMem unbroken)⟩
      | @returned line rest others unbroken lined => exact ⟨_, .returned (notMem unbroken) lined⟩
      | @plain line rest others unbroken bare lined =>
        cases line with
        | cons first line =>
          refine ⟨_, .plain (notMem unbroken) ?_ lined⟩
          rwa [List.getLast?_cons_cons]
        | nil =>
          by_cases isReturn : g = .char '\r'
          · subst isReturn
            exact ⟨_, .returned List.not_mem_nil lined⟩
          · exact ⟨_, .plain (notMem unbroken) (by simpa using isReturn) lined⟩

/-- The `lines` that are read are exactly those by which the text is `Lined`. -/
theorem lines_plainBreaks_iff {ls : List (List Glyph)} {text : List Glyph} :
    lines (plainBreaks text) = ls ↔ Lined ls text := by
  refine ⟨fun read => ?_, Lined.lines_plainBreaks⟩
  obtain ⟨others, lined⟩ := exists_lined text
  rwa [← read, lined.lines_plainBreaks]

/-- The lines of a text that are left when the blank lines at both ends are taken away. -/
def Inked (rows : List (List Glyph)) (text : List Glyph) : Prop :=
  ∃ before after, Lined (before ++ rows ++ after) text ∧
    (∀ line ∈ before ++ after, isBlankLine line = true) ∧
    (∀ line, rows.head? = some line → isBlankLine line = false) ∧
    ∀ line, rows.getLast? = some line → isBlankLine line = false

/-- `inkedLines` leaves exactly the rows with which the text is `Inked`. -/
theorem inkedLines_iff {rows : List (List Glyph)} {text : List Glyph} :
    inkedLines (lines (plainBreaks text)) = rows ↔ Inked rows text := by
  rw [inkedLines_eq, stripEnds_eq_iff]
  simp only [lines_plainBreaks_iff, Inked]

/-! ## Drawings of a maze -/

namespace Drawable

variable {g : Grid}

/-- The `text` of a drawable maze is `Lined` by its rows. -/
theorem lined_text (drawable : g.Drawable) :
    Lined (g.rows.map drawnRow) (RawText.ofString g.text).glyphs := by
  rw [← lines_plainBreaks_iff, plainBreaks_of_notMem drawable.notMem_glyphs_text,
    drawable.lines_text]

/-- `parse` reads a text made of the rows as the maze, however its lines end and whatever blank
lines are above and below. -/
theorem parse_of_lined (drawable : g.Drawable) {before after : List (List Glyph)}
    {text : List Glyph} (blank : ∀ line ∈ before ++ after, isBlankLine line = true)
    (lined : Lined (before ++ g.rows.map drawnRow ++ after) text) : parse ⟨text⟩ = .ok g := by
  have drawn {line : List Glyph} (member : line ∈ g.rows.map drawnRow) :
      isBlankLine line = false := by
    obtain ⟨row, among, rfl⟩ := List.mem_map.mp member
    exact drawable.inked among
  have inked : Inked (g.rows.map drawnRow) text :=
    ⟨before, after, lined, blank, fun line head => drawn (List.mem_of_head? head),
      fun line last => drawn (List.mem_of_getLast? last)⟩
  apply drawable.parse_eq_ok
  rw [byteRows, inkedLines_iff.mpr inked, List.map_map]
  rfl

/-- `parse` reads back the `text` of a drawable maze. -/
theorem parse_text (drawable : g.Drawable) : parse (.ofString g.text) = .ok g := by
  have lined : Lined ([] ++ g.rows.map drawnRow ++ []) (RawText.ofString g.text).glyphs := by
    simpa using drawable.lined_text
  exact drawable.parse_of_lined (List.forall_mem_nil _) lined

end Drawable

/-- **`parse` and `text` are inverse.** The drawing of a rectangle of known cells with at least one
cell, which is `Drawable`, is made of its rows. Every text made of these rows, with either kind of
line end after each of them and with any blank lines above and below, is read as that maze. Only
such mazes are read, so the drawing of a maze that was read is read as the same maze. -/
theorem parse_drawings :
    (∀ g : Grid, g.Drawable →
      Lined (g.rows.map drawnRow) (RawText.ofString g.text).glyphs ∧
      parse (.ofString g.text) = .ok g ∧
      ∀ before after text, (∀ line ∈ before ++ after, isBlankLine line = true) →
        Lined (before ++ g.rows.map drawnRow ++ after) text → parse ⟨text⟩ = .ok g) ∧
    ∀ text g, parse text = .ok g → g.Drawable ∧ parse (.ofString g.text) = parse text := by
  refine ⟨fun g drawable => ⟨drawable.lined_text, drawable.parse_text, ?_⟩, fun text g read => ?_⟩
  · intro before after text blank lined
    exact drawable.parse_of_lined blank lined
  · have drawable := drawable_of_parse read
    exact ⟨drawable, drawable.parse_text.trans read.symm⟩

/-- A maze is read from a text with both kinds of line ends, among lines that are empty or hold
blanks of several kinds. -/
theorem parse_drawings_bothEnds :
    let g : Grid := ⟨[[.empty, .start], [.goal, .wall]]⟩
    let text : RawText := .ofString "\r\n \t\u00a0\r\n.S\r\nE#\n\n\u3000"
    g.Drawable ∧ text ≠ .ofString g.text ∧ parse text = .ok g ∧
      parse (.ofString g.text) = parse text := by
  intro g text
  have drawable : g.Drawable := by
    refine ⟨by decide, by decide, ?_⟩
    simp [g, Cell.IsKnown]
  have lined : Lined ([[], [.char ' ', .char '\t', .char '\u00a0']] ++ g.rows.map drawnRow ++
      [[], [.char '\u3000']]) text.glyphs := lines_plainBreaks_iff.mp (by decide +kernel)
  have read := (parse_drawings.1 g drawable).2.2 _ _ _ (by decide +kernel) lined
  exact ⟨drawable, by decide +kernel, read, (parse_drawings.2 _ _ read).2⟩

end Grid

end MazeRobot
