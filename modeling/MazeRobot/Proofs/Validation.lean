import Mathlib.Data.List.Forall2
import MazeRobot.Proofs.Drawings
import MazeRobot.Proofs.LevelRecord
import MazeRobot.Proofs.Placement
import MazeRobot.Proofs.Walks

/-! # Which records describe a level

A record describes a level exactly if one can play it: its maze is a rectangle of known cells, its
heading has a name, it tells one place to start, which is free, and there is a goal. All of this is
said here about the bytes of the maze as they stand in the record. Where the maze cannot be read,
the first row with a fault is told.

* `checkFrom`, `checkFrom_eq_ok_iff`, `checkFrom_eq_error_iff`: checks of the members of a list in
  order, which end with the first one that fails.
* `Grid.Shows`: the rows of bytes in a text.
* `Grid.FirstFault`: the first row with a fault, and what is wrong with it.
* `Grid.exists_parse_iff`, `Grid.parse_eq_error_iff`: which texts are mazes, and what is said about
  the others.
* `Level.Record.Playable`: the records that one can play.
* `Level.Record.build_exact`: exactly these describe a level. -/

namespace MazeRobot

/-! ## Checks in order -/

section Checks

variable {α β ε : Type} {check : Nat → α → Except ε β}

/-- The results of checking the members of a list, each with its place; the first check that fails
is the answer. -/
def checkFrom (check : Nat → α → Except ε β) (i : Nat) : List α → Except ε (List β)
  | [] => .ok []
  | a :: rest => do
    let b ← check i a
    let bs ← checkFrom check (i + 1) rest
    return b :: bs

/-- `checkFrom` succeeds exactly if each check does, where the place makes no difference. -/
theorem checkFrom_eq_ok_iff {R : α → β → Prop} (passes : ∀ i a b, check i a = .ok b ↔ R a b)
    {i : Nat} {as : List α} {bs : List β} :
    checkFrom check i as = .ok bs ↔ List.Forall₂ R as bs := by
  induction as generalizing i bs with
  | nil =>
    rw [checkFrom, List.forall₂_nil_left_iff, Except.ok.injEq]
    exact eq_comm
  | cons a as ih =>
    rw [checkFrom, List.forall₂_cons_left_iff]
    constructor
    · intro checked
      obtain ⟨b, first, checked⟩ := bind_eq_ok_iff.mp checked
      obtain ⟨others, rest, whole⟩ := bind_eq_ok_iff.mp checked
      cases whole
      exact ⟨b, others, (passes i a b).mp first, ih.mp rest, rfl⟩
    · rintro ⟨b, others, first, rest, rfl⟩
      exact bind_eq_ok_iff.mpr ⟨b, (passes i a b).mpr first,
        bind_eq_ok_iff.mpr ⟨others, ih.mpr rest, rfl⟩⟩

/-- `checkFrom` fails exactly if there is a first member that fails. -/
theorem checkFrom_eq_error_iff {Good : α → Prop} (passes : ∀ i a, (∃ b, check i a = .ok b) ↔ Good a)
    {i : Nat} {as : List α} {error : ε} :
    checkFrom check i as = .error error ↔
      ∃ before a after, as = before ++ a :: after ∧ (∀ b ∈ before, Good b) ∧
        check (i + before.length) a = .error error := by
  induction as generalizing i with
  | nil => simp [checkFrom]
  | cons a as ih =>
    rw [checkFrom, bind_eq_error_iff]
    constructor
    · rintro (first | ⟨b, first, rest⟩)
      · exact ⟨[], a, as, rfl, List.forall_mem_nil _, first⟩
      · -- What follows fails, since putting the results together does not.
        rcases bind_eq_error_iff.mp rest with later | ⟨bs, -, whole⟩
        · obtain ⟨before, found, after, rfl, good, failed⟩ := ih.mp later
          refine ⟨a :: before, found, after, rfl,
            List.forall_mem_cons.mpr ⟨(passes i a).mp ⟨b, first⟩, good⟩, ?_⟩
          rwa [List.length_cons, Nat.add_comm before.length 1, ← Nat.add_assoc]
        · cases whole
    · rintro ⟨before, found, after, parts, good, failed⟩
      cases before with
      | nil =>
        cases parts
        exact .inl failed
      | cons _ before =>
        cases parts
        rw [List.forall_mem_cons] at good
        obtain ⟨b, checked⟩ := (passes i a).mpr good.1
        rw [List.length_cons, Nat.add_comm before.length 1, ← Nat.add_assoc] at failed
        exact .inr ⟨b, checked, bind_eq_error_iff.mpr
          (.inl (ih.mpr ⟨before, found, after, rfl, good.2, failed⟩))⟩

/-- `checkFrom` succeeds exactly if all members are good. -/
theorem exists_checkFrom_iff {Good : α → Prop} (passes : ∀ i a, (∃ b, check i a = .ok b) ↔ Good a)
    {i : Nat} {as : List α} : (∃ bs, checkFrom check i as = .ok bs) ↔ ∀ a ∈ as, Good a := by
  induction as generalizing i with
  | nil => simp [checkFrom]
  | cons a as ih =>
    rw [List.forall_mem_cons, ← passes i, ← ih (i := i + 1)]
    simp only [checkFrom, bind_eq_ok_iff]
    constructor
    · rintro ⟨-, b, first, bs, rest, -⟩
      exact ⟨⟨b, first⟩, bs, rest⟩
    · rintro ⟨⟨b, first⟩, bs, rest⟩
      exact ⟨b :: bs, b, first, bs, rest, rfl⟩

end Checks

/-! ## Bytes that draw cells -/

namespace Cell

/-- The bytes that draw cells. -/
def bytes : List UInt8 := Text.utf8 "#. SE"

/-- The `bytes` of cells, one by one. -/
theorem bytes_eq : bytes = [0x23, 0x2e, 0x20, 0x53, 0x45] := by decide +kernel

/-- `ofByte?` gives no cell for other bytes than these. -/
theorem exists_ofByte?_iff {b : UInt8} : (∃ c, ofByte? b = some c) ↔ b ∈ bytes := by
  rw [bytes_eq, ← Option.isSome_iff_exists, ofByte?]
  grind

/-- `ofByte?` gives a wall, a start cell and a goal for the byte of their character only. -/
theorem ofByte?_eq_some_iff {b : UInt8} {c : Cell} (known : c.IsKnown) (solid : c ≠ .empty) :
    ofByte? b = some c ↔ b = c.char.toUInt8 := by
  cases c with
  | empty => exact absurd rfl solid
  | other code => exact absurd rfl (known code)
  | wall =>
    change ofByte? b = some wall ↔ b = 0x23
    grind [ofByte?]
  | start =>
    change ofByte? b = some start ↔ b = 0x53
    grind [ofByte?]
  | goal =>
    change ofByte? b = some goal ↔ b = 0x45
    grind [ofByte?]

end Cell

/-! ## Rows of bytes -/

namespace Grid

/-- A row of bytes with the given length that all draw cells. -/
structure SoundRow (width : Nat) (row : List UInt8) : Prop where
  /-- The row has the length. -/
  even : row.length = width
  /-- All of its bytes draw cells. -/
  known : ∀ b ∈ row, b ∈ Cell.bytes

/-- What is wrong with a row, which is told with its number: first its length, then the leftmost
byte that draws no cell. -/
inductive RowFault (width y : Nat) (row : List UInt8) : ParseError → Prop
  /-- The row is too short or too long. -/
  | ragged (uneven : row.length ≠ width) : RowFault width y row (.ragged y row.length width)
  /-- A byte draws no cell, and all bytes before it do. -/
  | unknown {before after : List UInt8} {b : UInt8} (even : row.length = width)
      (parts : row = before ++ b :: after) (known : ∀ c ∈ before, c ∈ Cell.bytes)
      (stray : b ∉ Cell.bytes) : RowFault width y row (.unknownCell b y before.length)

/-- What is wrong with the first of some rows that is not sound. All of them should be as long as
the first one. -/
def FirstFault (rows : List (List UInt8)) (error : ParseError) : Prop :=
  ∃ above row below, rows = above ++ row :: below ∧
    (∀ other ∈ above, SoundRow (rows.headD []).length other) ∧
    RowFault (rows.headD []).length above.length row error

variable {width y x : Nat} {error : ParseError}

/-- The cell drawn by a byte, or the complaint that there is none. -/
def checkByte (y x : Nat) (b : UInt8) : Except ParseError Cell :=
  match Cell.ofByte? b with
  | none => .error (.unknownCell b y x)
  | some c => .ok c

/-- `checkByte` succeeds with the cell that `Cell.ofByte?` gives. -/
theorem checkByte_eq_ok_iff (y x : Nat) (b : UInt8) (c : Cell) :
    checkByte y x b = .ok c ↔ Cell.ofByte? b = some c := by
  rw [checkByte]
  cases Cell.ofByte? b <;> simp

/-- `checkByte` succeeds exactly if the byte is one of `Cell.bytes`. -/
theorem exists_checkByte_iff (y x : Nat) (b : UInt8) :
    (∃ c, checkByte y x b = .ok c) ↔ b ∈ Cell.bytes := by
  simp only [checkByte_eq_ok_iff, Cell.exists_ofByte?_iff]

/-- `checkByte` fails for any other byte, which the error names with its place. -/
theorem checkByte_eq_error_iff {b : UInt8} :
    checkByte y x b = .error error ↔ b ∉ Cell.bytes ∧ error = .unknownCell b y x := by
  rw [← Cell.exists_ofByte?_iff, checkByte]
  cases Cell.ofByte? b <;> simp [eq_comm]

/-- `parseRow` reads a row byte by byte. -/
theorem parseRow_eq (y x : Nat) (bytes : List UInt8) :
    parseRow y x bytes = checkFrom (checkByte y) x bytes := by
  induction bytes generalizing x with
  | nil => rfl
  | cons b rest ih =>
    rw [parseRow, checkFrom, checkByte]
    cases Cell.ofByte? b with
    | none => rfl
    | some c =>
      rw [← ih]
      rfl

/-- The cells of a row of the asked width, or what is wrong with it. -/
def checkRow (width y : Nat) (row : List UInt8) : Except ParseError (List Cell) :=
  if row.length ≠ width then .error (.ragged y row.length width) else parseRow y 0 row

/-- `checkRow` succeeds exactly if the row has the width and its bytes draw the cells. -/
theorem checkRow_eq_ok_iff (width y : Nat) (row : List UInt8) (cells : List Cell) :
    checkRow width y row = .ok cells ↔
      row.length = width ∧ row.map Cell.ofByte? = cells.map some := by
  rw [checkRow]
  split_ifs with uneven
  · simp [uneven]
  · rw [parseRow_eq, checkFrom_eq_ok_iff (checkByte_eq_ok_iff y), ← List.forall₂_eq_eq_eq,
      List.forall₂_map_left_iff, List.forall₂_map_right_iff]
    simp [not_not.mp uneven]

/-- `checkRow` succeeds exactly if the row is a `SoundRow`. -/
theorem exists_checkRow_iff (width y : Nat) (row : List UInt8) :
    (∃ cells, checkRow width y row = .ok cells) ↔ SoundRow width row := by
  rw [checkRow]
  split_ifs with uneven
  · refine ⟨?_, fun sound => absurd sound.even uneven⟩
    rintro ⟨cells, read⟩
    cases read
  · rw [parseRow_eq, exists_checkFrom_iff (exists_checkByte_iff y)]
    exact ⟨fun known => ⟨not_not.mp uneven, known⟩, SoundRow.known⟩

/-- `checkRow` fails exactly with the `RowFault` of the row. -/
theorem checkRow_eq_error_iff {row : List UInt8} :
    checkRow width y row = .error error ↔ RowFault width y row error := by
  rw [checkRow]
  split_ifs with uneven
  · constructor
    · intro told
      cases told
      exact .ragged uneven
    · intro fault
      cases fault with
      | ragged => rfl
      | unknown even => exact absurd even uneven
  · rw [parseRow_eq, checkFrom_eq_error_iff (exists_checkByte_iff y)]
    constructor
    · rintro ⟨before, b, after, parts, known, told⟩
      obtain ⟨stray, rfl⟩ := checkByte_eq_error_iff.mp told
      rw [Nat.zero_add]
      exact .unknown (not_not.mp uneven) parts known stray
    · intro fault
      cases fault with
      | ragged uneven' => exact absurd uneven' uneven
      | unknown even parts known stray =>
        refine ⟨_, _, _, parts, known, checkByte_eq_error_iff.mpr ⟨stray, ?_⟩⟩
        rw [Nat.zero_add]

/-- `parseRows` reads the rows one by one. -/
theorem parseRows_eq (width y : Nat) (rows : List (List UInt8)) :
    parseRows width y rows = checkFrom (checkRow width) y rows := by
  induction rows generalizing y with
  | nil => rfl
  | cons row rest ih =>
    rw [parseRows, checkFrom, checkRow]
    split_ifs
    · rfl
    · rw [← ih]

variable {text : RawText} {rows : List (List UInt8)}

/-- `parse` of a text with rows reads the maze row by row. -/
theorem parse_eq (shown : byteRows text = rows) (inhabited : rows ≠ []) :
    parse text =
      checkFrom (checkRow (rows.headD []).length) 0 rows >>= fun cells => .ok ⟨cells⟩ := by
  rw [parse, shown]
  cases rows with
  | nil => exact absurd rfl inhabited
  | cons row rest =>
    rw [← parseRows_eq]
    rfl

/-- `parse` refuses a text without rows. -/
theorem parse_eq_empty (shown : byteRows text = []) : parse text = .error .empty := by
  rw [parse, shown]

/-- The cells of a maze that `parse` reads are drawn by the bytes of the text. -/
theorem map_ofByte?_of_parse {g : Grid} (shown : byteRows text = rows) (read : parse text = .ok g) :
    rows.map (List.map Cell.ofByte?) = g.rows.map (List.map some) := by
  have inhabited : rows ≠ [] := by
    rintro rfl
    rw [parse_eq_empty shown] at read
    cases read
  rw [parse_eq shown inhabited] at read
  obtain ⟨cells, checked, whole⟩ := bind_eq_ok_iff.mp read
  cases whole
  have related := (checkFrom_eq_ok_iff (checkRow_eq_ok_iff _)).mp checked
  rw [← List.forall₂_eq_eq_eq, List.forall₂_map_left_iff, List.forall₂_map_right_iff]
  exact related.imp fun _ _ drawn => drawn.2

/-- What `Stands` in a maze is drawn by what stands in the text. -/
theorem stands_iff_of_parse {g : Grid} (shown : byteRows text = rows) (read : parse text = .ok g)
    {p : Position} {c : Cell} :
    Stands g.rows p c ↔ ∃ b, Stands rows p b ∧ Cell.ofByte? b = some c := by
  rw [← Stands.map_iff, map_ofByte?_of_parse shown read, Stands.map_iff]
  simp

/-- A wall, a start cell or a goal `Stands` where its byte does. -/
theorem stands_iff_char_of_parse {g : Grid} (shown : byteRows text = rows)
    (read : parse text = .ok g) {p : Position} {c : Cell} (known : c.IsKnown) (solid : c ≠ .empty) :
    Stands g.rows p c ↔ Stands rows p c.char.toUInt8 := by
  simp only [stands_iff_of_parse shown read, Cell.ofByte?_eq_some_iff known solid, exists_eq_right]

/-- A position is `Free` where a byte stands that is not the one of a wall. -/
theorem free_iff_of_parse {g : Grid} (shown : byteRows text = rows) (read : parse text = .ok g)
    {p : Position} : g.Free p ↔ ∃ b, Stands rows p b ∧ b ≠ '#'.toUInt8 := by
  have isWall {b : UInt8} : Cell.ofByte? b = some .wall ↔ b = '#'.toUInt8 :=
    Cell.ofByte?_eq_some_iff (by simp [Cell.IsKnown]) (by simp)
  rw [free_iff_exists]
  constructor
  · rintro ⟨c, here, passable⟩
    obtain ⟨b, drawn, isCell⟩ := (stands_iff_of_parse shown read).mp here
    refine ⟨b, drawn, fun same => passable ?_⟩
    exact Option.some.inj (isCell.symm.trans (isWall.mpr same))
  · rintro ⟨b, drawn, passable⟩
    -- All bytes of the rows draw cells, and so does this one.
    have here : Stands (g.rows.map (List.map some)) p (Cell.ofByte? b) := by
      rw [← map_ofByte?_of_parse shown read]
      exact Stands.map_iff.mpr ⟨b, drawn, rfl⟩
    obtain ⟨c, here, isCell⟩ := Stands.map_iff.mp here
    refine ⟨c, here, fun wall => passable (isWall.mp ?_)⟩
    rw [← isCell, wall]

/-- `parse` reads a text as a maze exactly if it has rows and each of them is a `SoundRow`. -/
theorem exists_parse_iff (shown : byteRows text = rows) :
    (∃ g, parse text = .ok g) ↔
      rows ≠ [] ∧ ∀ row ∈ rows, SoundRow (rows.headD []).length row := by
  by_cases inhabited : rows = []
  · subst inhabited
    simp [parse_eq_empty shown]
  · rw [parse_eq shown inhabited, ← exists_checkFrom_iff (exists_checkRow_iff _) (i := 0)]
    simp only [bind_eq_ok_iff]
    constructor
    · rintro ⟨-, cells, checked, -⟩
      exact ⟨inhabited, cells, checked⟩
    · rintro ⟨-, cells, checked⟩
      exact ⟨⟨cells⟩, cells, checked, rfl⟩

/-- `parse` refuses a text for having no rows, or for its `FirstFault`. -/
theorem parse_eq_error_iff (shown : byteRows text = rows) :
    parse text = .error error ↔ rows = [] ∧ error = .empty ∨ FirstFault rows error := by
  by_cases inhabited : rows = []
  · subst inhabited
    rw [parse_eq_empty shown]
    simp [FirstFault, eq_comm]
  · have refused : parse text = .error error ↔
        checkFrom (checkRow (rows.headD []).length) 0 rows = .error error := by
      rw [parse_eq shown inhabited, bind_eq_error_iff]
      simp
    rw [refused, checkFrom_eq_error_iff (exists_checkRow_iff _)]
    simp only [checkRow_eq_error_iff, Nat.zero_add, inhabited, false_and, false_or, FirstFault]

/-- The rows of bytes in a text: its lines without the blank ones at both ends. -/
def Shows (text : RawText) (rows : List (List UInt8)) : Prop :=
  ∃ lines, Inked lines text.glyphs ∧ rows = lines.map (·.flatMap Glyph.bytes)

/-- `byteRows` of a text are the rows that it `Shows`. -/
theorem byteRows_eq_iff : byteRows text = rows ↔ Shows text rows := by
  simp only [byteRows, Shows, ← inkedLines_iff]
  constructor
  · rintro rfl
    exact ⟨_, rfl, rfl⟩
  · rintro ⟨lines, rfl, rfl⟩
    rfl

end Grid

/-! ## Names of headings -/

namespace Heading

/-- The words for headings. -/
def words : List String :=
  ["north", "n", "up", "east", "e", "right", "south", "s", "down", "west", "w", "left"]

/-- `ofName?` knows the `words` for headings, letter case and blanks at both ends aside. -/
theorem exists_ofName?_iff {name : String} :
    (∃ heading, ofName? name = some heading) ↔ Text.lower (Text.trim name) ∈ words := by
  unfold ofName?
  split <;> simp_all [words]

end Heading

/-! ## Levels -/

namespace Level.Record

/-- The position at which a record lets the robot start: the one that it gives, or else the only
one where an `S` stands. -/
def StartsAt (record : Record) (rows : List (List UInt8)) (p : Position) : Prop :=
  record.start = some p ∨
    record.start = none ∧ ∀ q, Stands rows q 'S'.toUInt8 ↔ q = p

/-- A record that one can play, with the rows of bytes that its maze shows. -/
structure Playable (record : Record) (rows : List (List UInt8)) : Prop where
  /-- The maze has a row. -/
  inhabited : rows ≠ []
  /-- All rows have the length of the first one, and all bytes draw cells. -/
  sound : ∀ row ∈ rows, Grid.SoundRow (rows.headD []).length row
  /-- The heading is left out or named. -/
  heading : record.heading.isEmpty = true ∨
    Text.lower (Text.trim record.heading.shown) ∈ Heading.words
  /-- There is one position to start, on the maze and not in a wall. -/
  start : ∃ p, record.StartsAt rows p ∧ ∃ b, Stands rows p b ∧ b ≠ '#'.toUInt8
  /-- There is a goal. -/
  goal : ∃ p, Stands rows p 'E'.toUInt8

/-- `levelHeading` succeeds if the record has no heading, or has one of the `Heading.words`. -/
theorem exists_levelHeading_iff {record : Record} :
    (∃ heading, record.levelHeading = .ok heading) ↔
      record.heading.isEmpty = true ∨
        Text.lower (Text.trim record.heading.shown) ∈ Heading.words := by
  rw [← Heading.exists_ofName?_iff, levelHeading]
  split_ifs with empty
  · simp [empty]
  · cases Heading.ofName? record.heading.shown <;> simp [empty]

/-- `levelStart` is the start that the record gives, or otherwise the only start cell. -/
theorem levelStart_eq_ok_iff {record : Record} {g : Grid} {p : Position} :
    record.levelStart g = .ok p ↔
      record.start = some p ∨ record.start = none ∧ ∀ q, Stands g.rows q .start ↔ q = p := by
  rw [← Grid.find_eq_singleton_iff, levelStart]
  cases record.start with
  | some position => simp
  | none =>
    simp only
    split <;> simp_all

/-- `build` refuses a record for its maze exactly if the maze cannot be read. -/
theorem build_eq_grid_error_iff {record : Record} {error : Grid.ParseError} :
    record.build = .error (.grid error) ↔ Grid.parse record.grid = .error error := by
  constructor
  · intro refused
    rcases bind_eq_error_iff.mp refused with maze | ⟨g, -, refused⟩
    · cases read : Grid.parse record.grid with
      | ok g =>
        rw [read] at maze
        cases maze
      | error other =>
        rw [read] at maze
        cases maze
        rfl
    · -- No later check has such a complaint.
      rcases bind_eq_error_iff.mp refused with heading | ⟨heading, -, refused⟩
      · rw [levelHeading] at heading
        split_ifs at heading
        split at heading <;> cases heading
      · rcases bind_eq_error_iff.mp refused with start | ⟨start, -, refused⟩
        · rw [levelStart] at start
          split at start
          · cases start
          · split at start <;> cases start
        · split_ifs at refused <;> cases refused
  · intro maze
    rw [build, maze]
    rfl

variable {record : Record} {rows : List (List UInt8)}

/-- `levelStart` finds the position where the record `StartsAt`. -/
theorem levelStart_eq_ok_iff_startsAt {g : Grid} (shown : Grid.byteRows record.grid = rows)
    (read : Grid.parse record.grid = .ok g) {p : Position} :
    record.levelStart g = .ok p ↔ record.StartsAt rows p := by
  have stands (q : Position) : Stands g.rows q .start ↔ Stands rows q 'S'.toUInt8 :=
    Grid.stands_iff_char_of_parse shown read (by simp [Cell.IsKnown]) (by simp)
  simp only [levelStart_eq_ok_iff, StartsAt, stands]

/-- `find` has a goal exactly if an `E` stands somewhere. -/
theorem find_goal_ne_nil_iff {g : Grid} (shown : Grid.byteRows record.grid = rows)
    (read : Grid.parse record.grid = .ok g) :
    g.find .goal ≠ [] ↔ ∃ p, Stands rows p 'E'.toUInt8 := by
  have stands (q : Position) : Stands g.rows q .goal ↔ Stands rows q 'E'.toUInt8 :=
    Grid.stands_iff_char_of_parse shown read (by simp [Cell.IsKnown]) (by simp)
  simp only [ne_eq, List.eq_nil_iff_forall_not_mem, not_forall, not_not, Grid.mem_find, stands]

/-- `build` succeeds exactly if the record is `Playable`. -/
theorem exists_build_iff (shown : Grid.byteRows record.grid = rows) :
    (∃ level, record.build = .ok level) ↔ record.Playable rows := by
  constructor
  · rintro ⟨level, built⟩
    obtain ⟨read, heading, start, free, goal, -⟩ := build_eq_ok_iff.mp built
    obtain ⟨inhabited, sound⟩ := (Grid.exists_parse_iff shown).mp ⟨_, read⟩
    exact {
      inhabited, sound
      heading := exists_levelHeading_iff.mp ⟨_, heading⟩
      start := ⟨level.start, (levelStart_eq_ok_iff_startsAt shown read).mp start,
        (Grid.free_iff_of_parse shown read).mp (Grid.free_iff.mpr free)⟩
      goal := (find_goal_ne_nil_iff shown read).mp goal }
  · intro playable
    obtain ⟨g, read⟩ := (Grid.exists_parse_iff shown).mpr ⟨playable.inhabited, playable.sound⟩
    obtain ⟨heading, named⟩ := exists_levelHeading_iff.mpr playable.heading
    obtain ⟨start, told, passable⟩ := playable.start
    refine ⟨⟨record.id, record.levelName, record.description.trim, g, start, heading, record.fog⟩,
      build_eq_ok_iff.mpr ⟨read, named, ?_, ?_, ?_, rfl, rfl, rfl, rfl⟩⟩
    · exact (levelStart_eq_ok_iff_startsAt shown read).mpr told
    · exact Grid.free_iff.mp ((Grid.free_iff_of_parse shown read).mpr passable)
    · exact (find_goal_ne_nil_iff shown read).mpr playable.goal

/-- **Exactly the records that are `Playable` describe a level.** The rows of bytes that the maze of
a record `Shows` are its lines without the blank ones at both ends. A record describes a level
exactly if it can be played with these rows. The level then has one of four headings, a name, a free
start and a goal. A maze that cannot be read has no rows, or else the error is about the
`FirstFault`, in the first row with one: its length, or its leftmost byte that draws no cell. -/
theorem build_exact (record : Record) :
    ∃ rows, (∀ others, Grid.Shows record.grid others ↔ others = rows) ∧
      ((∃ level, record.build = .ok level) ↔ record.Playable rows) ∧
      (∀ level, record.build = .ok level →
        (0 ≤ level.heading.code.toInt ∧ level.heading.code.toInt ≤ 3) ∧
        level.name.isEmpty = false ∧
        (record.StartsAt rows level.start ∧ level.grid.Free level.start) ∧
        ∃ p, level.grid.cell? p = some .goal) ∧
      ∀ error, record.build = .error (.grid error) ↔
        rows = [] ∧ error = .empty ∨ Grid.FirstFault rows error := by
  obtain ⟨rows, shown⟩ : ∃ rows, Grid.byteRows record.grid = rows := ⟨_, rfl⟩
  refine ⟨rows, fun others => ?_, exists_build_iff shown, fun level built => ?_, fun error => ?_⟩
  · rw [← Grid.byteRows_eq_iff, shown, eq_comm]
  · obtain ⟨read, -, start, free, goal, -, name, -⟩ := build_eq_ok_iff.mp built
    refine ⟨by cases level.heading <;> decide, ?_, ⟨?_, Grid.free_iff.mpr free⟩, ?_⟩
    · rw [name]
      exact record.isEmpty_levelName
    · exact (levelStart_eq_ok_iff_startsAt shown read).mp start
    · obtain ⟨p, found⟩ := List.exists_mem_of_ne_nil _ goal
      exact ⟨p, Grid.cell?_eq_some_iff.mpr (Grid.mem_find.mp found)⟩
  · rw [build_eq_grid_error_iff, Grid.parse_eq_error_iff shown]

/-- A record whose maze has two bytes that draw no cell in one row, above a row that is too
short. -/
def torn : Record where
  grid := .ofString "\r\n#SE\r\n#?!\n..\n"

/-- The record `scattered` can be played from the start that it gives, and `torn` is refused for the
first byte of the first row with a fault. -/
theorem build_exact_scattered_torn :
    (∃ rows, Grid.Shows scattered.grid rows ∧ scattered.build = .ok twoDoors ∧
      scattered.Playable rows ∧ scattered.StartsAt rows twoDoors.start ∧
      twoDoors.grid.Free twoDoors.start) ∧
    ∃ rows, Grid.Shows torn.grid rows ∧
      torn.build = .error (.grid (.unknownCell '?'.toUInt8 1 1)) ∧
      Grid.FirstFault rows (.unknownCell '?'.toUInt8 1 1) := by
  have built : scattered.build = .ok twoDoors := by decide +kernel
  have refused : torn.build = .error (.grid (.unknownCell '?'.toUInt8 1 1)) := by decide +kernel
  constructor
  · obtain ⟨rows, shown, playable, good, -⟩ := build_exact scattered
    exact ⟨rows, (shown rows).mpr rfl, built, playable.mp ⟨_, built⟩, (good _ built).2.2.1⟩
  · obtain ⟨rows, shown, -, -, told⟩ := build_exact torn
    have fault := (told _).mp refused
    simp only [reduceCtorEq, and_false, false_or] at fault
    exact ⟨rows, (shown rows).mpr rfl, refused, fault⟩

end Level.Record

end MazeRobot
