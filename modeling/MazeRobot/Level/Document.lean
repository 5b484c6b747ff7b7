import MazeRobot.Level.Basic
import MazeRobot.Level.Decode

/-! # Levels as YAML documents

Reading a level from a YAML text. The document is a mapping with known keys; every value has to fit
its key, and all misfits are reported together, in the order of the document.

* `Level.Record.ofDocument?`: the record that a document holds.
* `Level.parse`: the level that a text describes. -/

namespace MazeRobot

/-- The fields of a position. -/
def Position.field? (name : String) : Option (Yaml.Node → Position → Decode Position) :=
  match name with
  | "x" => some (Decode.into Decode.int fun x p => { p with x })
  | "y" => some (Decode.into Decode.int fun y p => { p with y })
  | _ => none

/-- Reads a position, if the node means one. A collection cannot be tagged as nothing. -/
def Position.ofNode? (node : Yaml.Node) : Decode (Option Position) :=
  Decode.reach node fun
    | .scalar tag text line => do
      if (← Decode.meaning tag text) ≠ .null then Decode.report (.value line tag text .position)
      return none
    | .sequence tag _ line => do
      Decode.report
        (.value line tag "" (if tag = "!!null" then .positionIfAny else .position))
      return none
    | .mapping tag entries line => do
      if tag = "!!null" then
        if ← Decode.distinctKeys entries then Decode.report (.value line tag "" .positionIfAny)
        return none
      else
        let position ← Decode.record .position Position.field? ⟨0, 0⟩ entries
        return some position
    | .reference _ _ _ _ => failure

namespace Level

namespace Record

/-- The fields of a level. -/
def field? (name : String) : Option (Yaml.Node → Record → Decode Record) :=
  match name with
  | "id" => some (Decode.into Decode.int fun id r => { r with id })
  | "name" => some (Decode.into Decode.string fun name r => { r with name })
  | "description" => some (Decode.into Decode.string fun description r => { r with description })
  | "heading" => some (Decode.into Decode.string fun heading r => { r with heading })
  | "start" => some (Decode.into Position.ofNode? fun start r => { r with start := some start })
  | "fog_of_war" => some (Decode.into Decode.bool fun fog r => { r with fog })
  | "grid" => some (Decode.into Decode.string fun grid r => { r with grid })
  | _ => none

/-- Reads a record. A node that means nothing is an empty record. -/
def ofNode (node : Yaml.Node) : Decode Record :=
  Decode.reach node fun
    | .scalar tag text line => do
      if (← Decode.meaning tag text) ≠ .null then Decode.report (.value line tag text .level)
      return {}
    | .sequence tag _ line => do
      Decode.report (.value line tag "" .level)
      return {}
    | .mapping _ entries _ => Decode.record .level field? {} entries
    | .reference _ _ _ _ => failure

/-- The record that a document holds, and what in it does not fit. -/
def ofDocument? (document : Yaml.Document) : Option (Record × List Misfit) :=
  (((ofNode document.root).run { document }).run {}).map fun (record, decoding) =>
    (record, decoding.misfits.reverse)

end Record

/-- Why a text describes no level. -/
inductive ParseError where
  /-- The text is no YAML. -/
  | malformed
  /-- The text holds no document. -/
  | empty
  /-- The document does not fit. -/
  | misfits (found : List Misfit)
  /-- The record describes no level; the name is that of the level. -/
  | build (name : RawText) (error : BuildError)
  deriving DecidableEq, Repr

/-- What is said about a text that describes no level. -/
def ParseError.message : ParseError → String
  | malformed => "level: decode: yaml: malformed document"
  | empty => "level: empty document"
  | misfits found =>
    "level: decode: yaml: unmarshal errors:\n  " ++
      String.intercalate "\n  " (found.map Misfit.message)
  | build name error => "level " ++ name.quote ++ ": " ++ error.message

/-- The level that a text describes. -/
def parse (text : String) : Except ParseError Level :=
  match Yaml.document? text with
  | none => .error .malformed
  | some none => .error .empty
  | some (some document) =>
    match Record.ofDocument? document with
    | none => .error .malformed
    | some (record, []) => record.build.mapError (.build record.levelName)
    | some (_, misfits) => .error (.misfits misfits)

end Level

end MazeRobot
