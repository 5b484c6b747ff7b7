import MazeRobot.Level.Basic
import MazeRobot.Proofs.GridText

/-! # Levels and their records

A level is built from a record, which may leave out the name, the heading and the start, and may
surround its description and its maze with blanks. The record of a level spells all of that out,
except for a start that the maze tells. Both decisions about the start agree, whatever the maze
holds: so a level is written down and built again without a change.

* `Level.Record.build_eq_ok_iff`: what each part of a built level comes from.
* `Level.build_record`: a level that was built is built again from its record. -/

namespace MazeRobot

/-- `Heading.ofName?` reads back what `name` writes. -/
@[simp] theorem Heading.ofName?_name (heading : Heading) : ofName? heading.name = some heading := by
  cases heading <;> decide +kernel

namespace Level

namespace Record

/-- `build` gives a level exactly if its maze can be read, its heading and its start are known, the
start is free and there is a goal; the other parts are taken as they are or made up. -/
theorem build_eq_ok_iff {record : Record} {level : Level} :
    record.build = .ok level ↔
      Grid.parse record.grid = .ok level.grid ∧
      record.levelHeading = .ok level.heading ∧
      record.levelStart level.grid = .ok level.start ∧
      level.grid.blocked level.start = false ∧
      level.grid.find .goal ≠ [] ∧
      level.id = record.id ∧
      level.name = record.levelName ∧
      level.description = record.description.trim ∧
      level.fog = record.fog := by
  constructor
  · intro built
    -- Each check in turn must have passed, since the first one that fails is the answer.
    obtain ⟨grid, maze, built⟩ := bind_eq_ok_iff.mp built
    obtain ⟨heading, toward, built⟩ := bind_eq_ok_iff.mp built
    obtain ⟨start, place, built⟩ := bind_eq_ok_iff.mp built
    by_cases blocked : grid.blocked start
    · rw [if_pos blocked] at built
      cases built
    · rw [if_neg blocked] at built
      by_cases missing : (grid.find .goal).isEmpty
      · rw [if_pos missing] at built
        cases built
      · rw [if_neg missing] at built
        cases built
        refine ⟨mapError_eq_ok_iff.mp maze, toward, place, by simpa using blocked, ?_, rfl, rfl, rfl,
          rfl⟩
        simpa using missing
  · rintro ⟨maze, toward, place, free, goal, id, name, description, fog⟩
    have some : (level.grid.find .goal).isEmpty = false := by simpa using goal
    rw [build]
    simp only [maze, toward, place, free, some, Except.mapError, bind, Except.bind, ← id, ← name,
      ← description, ← fog]
    rfl

/-- `levelName` is never empty. -/
theorem isEmpty_levelName (record : Record) : record.levelName.isEmpty = false := by
  rw [levelName]
  split
  · show (List.map Glyph.char ("level " ++ toString record.id).toList).isEmpty = false
    rw [String.toList_append]
    rfl
  · next named => simpa using named

end Record

/-! ## The record of a level -/

/-- `levelName` keeps a name that is not empty. -/
theorem levelName_record {level : Level} (named : level.name.isEmpty = false) :
    level.record.levelName = level.name := by
  rw [Record.levelName]
  exact if_neg (by simp [record, named])

/-- `levelHeading` reads back the name of the heading, which is never empty. -/
theorem levelHeading_record (level : Level) : level.record.levelHeading = .ok level.heading := by
  have written : (RawText.ofString level.heading.name).isEmpty = false := by
    cases level.heading <;> decide +kernel
  rw [Record.levelHeading, record]
  simp [written]

/-- `levelStart` finds the start again: it is left out exactly where the maze has no other. -/
theorem levelStart_record (level : Level) :
    level.record.levelStart level.grid = .ok level.start := by
  by_cases told : level.grid.find .start = [level.start]
  · simp [Record.levelStart, record, told]
  · simp [Record.levelStart, record, told]

/-- `build` gives a level that was built from a record again from its own `record`: with the same
number, name, description, maze, start, heading and fog, wherever these came from. -/
theorem build_record {record : Record} {level : Level} (built : record.build = .ok level) :
    level.record.build = .ok level := by
  obtain ⟨maze, -, -, free, goal, -, name, description, -⟩ := Record.build_eq_ok_iff.mp built
  have named : level.name.isEmpty = false := by
    rw [name]
    exact record.isEmpty_levelName
  have trimmed : level.description.trim = level.description := by
    rw [description, RawText.trim_trim]
  have drawn : Grid.parse level.record.grid = .ok level.grid :=
    (Grid.drawable_of_parse maze).parse_text_lineBreak
  exact Record.build_eq_ok_iff.mpr ⟨drawn, levelHeading_record level, levelStart_record level, free,
    goal, rfl, (levelName_record named).symm, trimmed.symm, rfl⟩

/-- A record with blanks all around: two start cells, of which it chooses neither, no name, a
heading in capitals and a maze among blank lines that end in carriage returns. -/
def scattered : Record where
  id := 7
  description := .ofString " two doors\n"
  heading := .ofString " WEST "
  start := some ⟨0, 0⟩
  fog := true
  grid := .ofString "\r\n  \r\n S#\r\n.ES\r\n\t\r\n"

/-- The level of the scattered record. -/
def twoDoors : Level where
  id := 7
  name := .ofString "level 7"
  description := .ofString "two doors"
  grid := ⟨[[.empty, .start, .wall], [.empty, .goal, .start]]⟩
  start := ⟨0, 0⟩
  heading := .west
  fog := true

/-- The level `twoDoors` is built from `scattered`, and again from its own record, which is another
one. -/
theorem build_record_twoDoors :
    scattered.build = .ok twoDoors ∧ twoDoors.record ≠ scattered ∧
      twoDoors.record.build = .ok twoDoors := by
  have built : scattered.build = .ok twoDoors := by decide +kernel
  exact ⟨built, by decide +kernel, build_record built⟩

end Level

end MazeRobot
