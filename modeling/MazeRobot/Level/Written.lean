import MazeRobot.Level.Basic
import MazeRobot.Yaml.Write

/-! # Writing levels

The YAML document of a level: one line for each field in a fixed order, with fields that say nothing
left out.

* `Level.Record.document`: the document of a record.
* `Level.document`: the document of a level. -/

namespace MazeRobot.Level

/-- The indentation of nested lines. -/
def documentIndent : Nat := 4

/-- The line of a text field. -/
def textField (key : String) (value : RawText) : String :=
  key ++ ":" ++ Yaml.writeRaw documentIndent value

/-- The line of a number field. -/
def numberField (key : String) (value : Int) : String := key ++ s!": {value}\n"

/-- The document of a record. -/
def Record.document (record : Record) : String :=
  numberField "id" record.id ++
  textField "name" record.name ++
  (if record.description.isEmpty then "" else textField "description" record.description) ++
  (if record.heading.isEmpty then "" else textField "heading" record.heading) ++
  (match record.start with
    | some p =>
      "start:\n" ++ numberField "    x" p.x ++ numberField "    \"y\"" p.y
    | none => "") ++
  (if record.fog then "fog_of_war: true\n" else "") ++
  textField "grid" record.grid

/-- The document of a level. -/
def document (level : Level) : String := level.record.document

end MazeRobot.Level
