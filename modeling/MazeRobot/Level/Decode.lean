import MazeRobot.Level.Misfit
import MazeRobot.Yaml.Node

/-! # Reading nodes

Reading the nodes of a document as numbers, texts, truth values and records. What does not fit is
collected, and reading goes on; some documents are refused altogether.

* `Decode`: reading with a document at hand.
* `Decode.reach`: a node, or the node that a reference leads to.
* `Decode.int`, `Decode.string`, `Decode.bool`: the readers of scalars.
* `Decode.entriesInto`: the entries of a mapping, and those merged into it, as a record. -/

namespace MazeRobot

/-- What is known while a document is read. -/
structure Decoding where
  /-- The misfits so far, newest first. -/
  misfits : List Misfit := []
  /-- The number of nodes read so far; the document itself counts as one. -/
  visits : Nat := 1
  /-- How many of them were read for a reference. -/
  repeats : Nat := 0
  deriving Repr

/-- Whether too many of the nodes were read for references. Up to 400000 nodes it may be 99 of a
hundred, from 4000000 nodes on 10 of a hundred, and in between the share falls steadily. -/
def Decoding.isBloated (d : Decoding) : Bool :=
  100 < d.repeats && 1000 < d.visits &&
    (if d.visits ≤ 400000 then 99 * d.visits < 100 * d.repeats
      else if 4000000 ≤ d.visits then d.visits < 10 * d.repeats
      else d.visits * (356400000 - 89 * (d.visits - 400000)) < 360000000 * d.repeats)

/-- From where a node is read. -/
structure Outlook where
  /-- The document. -/
  document : Yaml.Document
  /-- The serial numbers of the references on the way to the node, newest first. -/
  trail : List Nat := []
  deriving Repr

/-- Reading nodes: the misfits are collected, and some documents cannot be read at all. -/
abbrev Decode := ReaderT Outlook (StateT Decoding Option)

namespace Decode

/-- Reports a misfit. -/
def report (misfit : Misfit) : Decode Unit :=
  modify fun d => { d with misfits := misfit :: d.misfits }

/-- Counts a node. -/
def visit : Decode Unit := do
  let onTrail := !(← read).trail.isEmpty
  modify fun d => { d with
    visits := d.visits + 1
    repeats := if onTrail then d.repeats + 1 else d.repeats }
  if (← get).isBloated then failure

/-- Reads a node, or the node that a reference leads to. A reference that is met again on its own
trail leads nowhere. -/
def reach {α : Type} (node : Yaml.Node) (use : Yaml.Node → Decode α) : Decode α := do
  visit
  match node with
  | .reference _ target serial _ =>
    let outlook ← read
    if serial ∈ outlook.trail then failure
    else
      match outlook.document.named.lookup target with
      | none => failure
      | some node =>
        let inside : Outlook := { outlook with trail := serial :: outlook.trail }
        ReaderT.adapt (fun _ => inside) do
          visit
          use node
  | node => use node

/-- What a scalar means. -/
def meaning (tag text : String) : Decode Yaml.Value :=
  match Yaml.meaning? tag text with
  | some value => pure value
  | none => failure

/-! ## Keys -/

/-- Whether two keys are the same: scalars with the same text, references by the same name, or
collections of the same sort. -/
def sameKey : Yaml.Node → Yaml.Node → Bool
  | .scalar _ a _, .scalar _ b _ => a = b
  | .sequence _ _ _, .sequence _ _ _ => true
  | .mapping _ _ _, .mapping _ _ _ => true
  | .reference a _ _ _, .reference b _ _ _ => a = b
  | _, _ => false

/-- The text of a key. -/
def keyText : Yaml.Node → String
  | .scalar _ text _ => text
  | .reference name _ _ _ => name
  | _ => ""

/-- The keys of a mapping that repeat an earlier one. -/
def duplicates : List (Yaml.Node × Yaml.Node) → List Misfit
  | [] => []
  | (key, _) :: rest =>
    (rest.filter fun (other, _) => sameKey key other).map (fun (other, _) =>
      .duplicate other.line (keyText other) key.line) ++ duplicates rest

/-- Reports the repeated keys of a mapping, and tells whether there are none. -/
def distinctKeys (entries : List (Yaml.Node × Yaml.Node)) : Decode Bool := do
  let found := duplicates entries
  found.forM report
  return found.isEmpty

/-! ## Scalars -/

/-- Reads a node that should be a scalar with `read`; nothing where the node means nothing or does
not fit. -/
def scalar {α : Type} (reading : Reading) (read : String → Yaml.Value → Option α)
    (node : Yaml.Node) : Decode (Option α) :=
  reach node fun
    | .scalar tag text line => do
      let value ← meaning tag text
      if value = .null then return none
      match read text value with
      | some result => return some result
      | none =>
        report (.value line tag text reading)
        return none
    | .sequence tag _ line => do
      report (.value line tag "" reading)
      return none
    | .mapping tag entries line => do
      if ← distinctKeys entries then report (.value line tag "" reading)
      return none
    | .reference _ _ _ _ => failure

/-- Reads a whole number of 64 bits; fractions lose what is behind the point. -/
def int (node : Yaml.Node) : Decode (Option Int) :=
  scalar .int (fun _ value =>
    match value with
    | .int n => if n < wordBound then some n else none
    | .float whole => whole
    | _ => none) node

/-- Reads a text: that of any scalar, or the bytes it stands for. -/
def string (node : Yaml.Node) : Decode (Option RawText) :=
  scalar .string (fun text value =>
    match value with
    | .bytes raw => some raw
    | _ => some (.ofString text)) node

/-- Reads a truth value, also in the words of older documents. -/
def bool (node : Yaml.Node) : Decode (Option Bool) :=
  scalar .bool (fun _ value =>
    match value with
    | .bool b => some b
    | .str text => Yaml.oldBool? text
    | .bytes raw => Yaml.oldBool? raw.shown
    | _ => none) node

/-! ## Mappings -/

/-- Whether a key asks for another mapping to be merged in. -/
def isMerge : Yaml.Node → Bool
  | .scalar tag text _ => tag = "!!merge" && text = "<<"
  | _ => false

/-- Whether a node is a mapping or a reference to one. -/
def isMapping (document : Yaml.Document) : Yaml.Node → Bool
  | .mapping _ _ _ => true
  | .reference _ target _ _ =>
    match document.named.lookup target with
    | some (.mapping _ _ _) => true
    | _ => false
  | _ => false

/-- The mappings that a merge asks for: one, or those of a sequence. -/
def mergeSources (merge : Yaml.Node) : Decode (List Yaml.Node) := do
  let sources := match merge with
    | .sequence _ items _ => items
    | node => [node]
  if sources.all (isMapping (← read).document) then return sources else failure

/-- The text that a key means, if it means one. A collection is no key of a mapping that others are
merged into. -/
def keyName? (key : Yaml.Node) : Decode (Option RawText) :=
  reach key fun
    | .scalar tag text _ => do
      match ← meaning tag text with
      | .str text => return some (.ofString text)
      | .bytes raw => return some raw
      | _ => return none
    | .mapping _ entries _ => do
      if ← distinctKeys entries then failure else return none
    | _ => failure

/-- Reads the entries of a mapping one after the other into a record. `store` knows the fields, and
`done` holds the names of those that have been set. Where `taken` holds names, they are passed over,
and those that are met are added to them. The merge that was asked for is given back. -/
def fields {α : Type} (reading : Reading) (store : String → Option (Yaml.Node → α → Decode α))
    (taken : Option (List RawText)) (done : List String) (record : α) :
    List (Yaml.Node × Yaml.Node) → Decode (α × Option (List RawText) × Option Yaml.Node)
  | [] => return (record, taken, none)
  | (key, value) :: rest => do
    if isMerge key then
      let (record, taken, later) ← fields reading store taken done record rest
      return (record, taken, later.or (some value))
    else
      match ← string key with
      | none => fields reading store taken done record rest
      | some raw =>
        if taken.any (·.contains raw) then fields reading store taken done record rest
        else
          let taken := taken.map (raw :: ·)
          let name := raw.shown
          match store name with
          | none =>
            report (.field key.line name reading)
            fields reading store taken done record rest
          | some read =>
            if done.contains name then
              report (.repeated key.line name reading)
              fields reading store taken done record rest
            else
              let record ← read value record
              fields reading store taken (name :: done) record rest

/-- Reads a mapping into a record, then the mappings merged into it, whose entries do not replace
those that are there. The names that are taken are given back. -/
def entriesInto {α : Type} (reading : Reading) (store : String → Option (Yaml.Node → α → Decode α))
    (taken : Option (List RawText)) (record : α) (entries : List (Yaml.Node × Yaml.Node)) :
    Nat → Decode (α × Option (List RawText))
  | 0 => failure
  | bound + 1 => do
    if !(← distinctKeys entries) then return (record, taken)
    let (record, taken, merge) ← fields reading store taken [] record entries
    match merge with
    | none => return (record, taken)
    | some merge =>
      let names ← match taken with
        | some names => pure names
        | none => entries.filterMapM fun (key, _) => keyName? key
      let sources ← mergeSources merge
      let (record, names) ← sources.foldlM (fun ((record, names) : α × List RawText) source =>
        reach source fun
          | .mapping _ entries _ => do
            let (record, taken) ← entriesInto reading store (some names) record entries bound
            return (record, taken.getD names)
          | _ => failure) (record, names)
      return (record, taken.map fun _ => names)

/-- Reads the entries of a mapping into a record. Merges go from a mapping to one inside it or along
a reference that is not on the trail, so their depth is bounded by the extent of the document. -/
def record {α : Type} (reading : Reading) (store : String → Option (Yaml.Node → α → Decode α))
    (start : α) (entries : List (Yaml.Node × Yaml.Node)) : Decode α := do
  let extent := (← read).document.extent + 1
  let (record, _) ← entriesInto reading store none start entries (extent * extent)
  return record

/-- Reads a value into a field; where there is none the field stays as it is. -/
def into {α β : Type} (read : Yaml.Node → Decode (Option β)) (set : β → α → α) (node : Yaml.Node)
    (record : α) : Decode α := do
  match ← read node with
  | some value => return set value record
  | none => return record

end Decode

end MazeRobot
