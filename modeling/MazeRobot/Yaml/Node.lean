import MazeRobot.Yaml.Resolve
import MazeRobot.Yaml.Scan

/-! # Nodes of a YAML document

The tree of a YAML document: scalars, sequences and mappings, and references to nodes that have been
named. A node can be referred to from inside itself, so a reference holds the number of its node and
not the node.

* `Node`: the tree.
* `Document`: a tree with its named nodes.
* `Composer`: the state of building a tree from tokens.
* `document?`: the first document of a text, if it has one. -/

namespace MazeRobot.Yaml

/-- A node of a document, with its tag and the line on which it starts, counted from one. The tags
of YAML itself are shortened to two exclamation marks and a name. -/
inductive Node where
  /-- A scalar. -/
  | scalar (tag text : String) (line : Nat)
  /-- A sequence. -/
  | sequence (tag : String) (items : List Node) (line : Nat)
  /-- A mapping: its keys and values in order. -/
  | mapping (tag : String) (entries : List (Node × Node)) (line : Nat)
  /-- A reference to a named node by its number. References are counted too: `serial` is the number
  of references before this one. -/
  | reference (name : String) (target serial : Nat) (line : Nat)
  deriving Repr

instance : Inhabited Node := ⟨.scalar "!!null" "" 0⟩

/-- The line on which a node starts. -/
def Node.line : Node → Nat
  | scalar _ _ line => line
  | sequence _ _ line => line
  | mapping _ _ line => line
  | reference _ _ _ line => line

/-- A document. -/
structure Document where
  /-- The tree. -/
  root : Node
  /-- The named nodes with their numbers. -/
  named : List (Nat × Node)
  /-- The number of tokens, which no way from the root to a leaf exceeds in length. -/
  extent : Nat
  deriving Repr

/-- The state of building a tree from tokens. -/
structure Composer where
  /-- The tokens still to be used. -/
  rest : List Token
  /-- The names so far with the numbers of their nodes, newest first. -/
  anchors : List (String × Nat) := []
  /-- The named nodes that have been built, with their numbers. -/
  named : List (Nat × Node) := []
  /-- The number of references so far. -/
  references : Nat := 0
  /-- The shorthands for tags. -/
  handles : List (String × String) := []
  deriving Repr

/-- Building with a state; there is no answer where the tokens do not form a document. -/
abbrev Compose := StateT Composer Option

namespace Compose

/-- The next token. It must have been decided what it is, and two more tokens have to be readable
before it can be used. -/
def peek : Compose Token := do
  let s ← get
  if (s.rest.take 3).any (·.kind = .broken) || s.rest.head?.any (·.kind = .undecided) then failure
  else
    match s.rest with
    | token :: _ => return token
    | [] => return ⟨.streamEnd, 0, 0⟩

/-- Past the next token. -/
def drop : Compose Unit := modify fun s => { s with rest := s.rest.tail }

/-- The kind of the next token. -/
def peekKind : Compose TokenKind := return (← peek).kind

/-- A node that is not written out. -/
def emptyNode (line : Nat) : Node := .scalar "!!null" "" line

/-- What the tags of YAML itself start with. -/
def yamlTags : String := "tag:yaml.org,2002:"

/-- A tag in its short form. -/
def shorten (tag : String) : String :=
  let cs := tag.toList
  let common := yamlTags.toList
  if common.isPrefixOf cs then "!!" ++ String.ofList (cs.drop common.length) else tag

/-- The tag that a handle and a suffix stand for; a lone exclamation mark stands for none. -/
def tagOf (handle suffix : String) : Compose (Option String) := do
  let full ← if handle.isEmpty then pure suffix
    else match (← get).handles.lookup handle with
      | some expansion => pure (expansion ++ suffix)
      | none => failure
  return if full = "!" then none else some (shorten full)

/-- The anchor and the tag of a node, in either order, and whether it has any of them. -/
def properties : Compose (Option String × Option String × Bool) := do
  match ← peekKind with
  | .anchor name =>
    drop
    match ← peekKind with
    | .tag handle suffix =>
      drop
      return (some name, ← tagOf handle suffix, true)
    | _ => return (some name, none, true)
  | .tag handle suffix =>
    drop
    let tag ← tagOf handle suffix
    match ← peekKind with
    | .anchor name =>
      drop
      return (some name, tag, true)
    | _ => return (none, tag, true)
  | _ => return (none, none, false)

/-- Names the node that is about to be built, and gives its number. -/
def openAnchor (name : Option String) : Compose (Option Nat) := do
  match name with
  | none => return none
  | some name =>
    let s ← get
    let number := s.anchors.length
    set { s with anchors := (name, number) :: s.anchors }
    return some number

/-- Keeps a node that has been named. -/
def closeAnchor (number : Option Nat) (node : Node) : Compose Node := do
  match number with
  | none => return node
  | some number =>
    modify fun s => { s with named := (number, node) :: s.named }
    return node

/-- A reference to the newest node with the given name. -/
def referTo (name : String) (line : Nat) : Compose Node := do
  let s ← get
  match s.anchors.lookup name with
  | some target =>
    set { s with references := s.references + 1 }
    return .reference name target s.references line
  | none => failure

mutual

/-- A node. Collections by indentation are allowed where `block` is set, and where `indentless` is
set a sequence may stand at the column of its key. -/
def node (block indentless : Bool) : Nat → Compose Node
  | 0 => failure
  | bound + 1 => do
    let first ← peek
    let line := first.line + 1
    match first.kind with
    | .reference name =>
      drop
      referTo name line
    | _ =>
      let (anchor, tag, marked) ← properties
      let token ← peek
      match token.kind with
      | .scalar text style =>
        drop
        closeAnchor (← openAnchor anchor) (.scalar (scalarTag tag text style) text line)
      | .blockEntry =>
        if indentless then
          let number ← openAnchor anchor
          let items ← indentlessItems bound
          closeAnchor number (.sequence (tag.getD "!!seq") items line)
        else bare anchor tag marked line
      | .flowSequenceStart =>
        drop
        let number ← openAnchor anchor
        let items ← flowItems true bound
        closeAnchor number (.sequence (tag.getD "!!seq") items line)
      | .flowMappingStart =>
        drop
        let number ← openAnchor anchor
        let entries ← flowEntries true bound
        closeAnchor number (.mapping (tag.getD "!!map") entries line)
      | .blockSequenceStart =>
        if block then
          drop
          let number ← openAnchor anchor
          let items ← blockItems bound
          closeAnchor number (.sequence (tag.getD "!!seq") items line)
        else bare anchor tag marked line
      | .blockMappingStart =>
        if block then
          drop
          let number ← openAnchor anchor
          let entries ← blockEntries bound
          closeAnchor number (.mapping (tag.getD "!!map") entries line)
        else bare anchor tag marked line
      | _ => bare anchor tag marked line
where
  /-- A node that has properties and no content. -/
  bare (anchor tag : Option String) (marked : Bool) (line : Nat) : Compose Node := do
    if marked then closeAnchor (← openAnchor anchor) (.scalar (tag.getD "!!null") "" line)
    else failure

/-- The items of a sequence by indentation. -/
def blockItems : Nat → Compose (List Node)
  | 0 => failure
  | bound + 1 => do
    let token ← peek
    match token.kind with
    | .blockEntry =>
      drop
      let item ← match ← peekKind with
        | .blockEntry | .blockEnd => pure (emptyNode (token.endLine + 1))
        | _ => node true false bound
      return item :: (← blockItems bound)
    | .blockEnd =>
      drop
      return []
    | _ => failure

/-- The items of a sequence at the column of its key. -/
def indentlessItems : Nat → Compose (List Node)
  | 0 => failure
  | bound + 1 => do
    let token ← peek
    match token.kind with
    | .blockEntry =>
      drop
      let item ← match ← peekKind with
        | .blockEntry | .key | .value | .blockEnd => pure (emptyNode (token.endLine + 1))
        | _ => node true false bound
      return item :: (← indentlessItems bound)
    | _ => return []

/-- The entries of a mapping by indentation. -/
def blockEntries : Nat → Compose (List (Node × Node))
  | 0 => failure
  | bound + 1 => do
    let token ← peek
    match token.kind with
    | .key =>
      drop
      let key ← match ← peekKind with
        | .key | .value | .blockEnd => pure (emptyNode (token.endLine + 1))
        | _ => node true true bound
      let token ← peek
      let value ← match token.kind with
        | .value =>
          drop
          match ← peekKind with
          | .key | .value | .blockEnd => pure (emptyNode (token.endLine + 1))
          | _ => node true true bound
        | _ => pure (emptyNode (token.line + 1))
      return (key, value) :: (← blockEntries bound)
    | .blockEnd =>
      drop
      return []
    | _ => failure

/-- The items of a sequence between brackets; after the first one a comma comes first. An item with
a colon is a mapping of one entry. -/
def flowItems (first : Bool) : Nat → Compose (List Node)
  | 0 => failure
  | bound + 1 => do
    if (← peekKind) = .flowSequenceEnd then
      drop
      return []
    if !first then
      if (← peekKind) = .flowEntry then drop else failure
    let token ← peek
    match token.kind with
    | .flowSequenceEnd =>
      drop
      return []
    | .key =>
      drop
      let entry ← flowPair bound
      return .mapping "!!map" [entry] (token.line + 1) :: (← flowItems false bound)
    | _ =>
      let item ← node false false bound
      return item :: (← flowItems false bound)

/-- The entry of a mapping that is an item of a sequence between brackets. -/
def flowPair : Nat → Compose (Node × Node)
  | 0 => failure
  | bound + 1 => do
    let token ← peek
    let key ← match token.kind with
      | .value | .flowEntry | .flowSequenceEnd =>
        drop
        pure (emptyNode (token.endLine + 1))
      | _ => node false false bound
    let token ← peek
    let value ← match token.kind with
      | .value =>
        drop
        match ← peekKind with
        | .flowEntry | .flowSequenceEnd => pure (emptyNode (token.line + 1))
        | _ => node false false bound
      | _ => pure (emptyNode (token.line + 1))
    return (key, value)

/-- The entries of a mapping between braces; after the first one a comma comes first. A key may
stand without a value. -/
def flowEntries (first : Bool) : Nat → Compose (List (Node × Node))
  | 0 => failure
  | bound + 1 => do
    if (← peekKind) = .flowMappingEnd then
      drop
      return []
    if !first then
      if (← peekKind) = .flowEntry then drop else failure
    let token ← peek
    match token.kind with
    | .flowMappingEnd =>
      drop
      return []
    | .key =>
      drop
      let token ← peek
      let key ← match token.kind with
        | .value | .flowEntry | .flowMappingEnd => pure (emptyNode (token.line + 1))
        | _ => node false false bound
      let token ← peek
      let value ← match token.kind with
        | .value =>
          drop
          match ← peekKind with
          | .flowEntry | .flowMappingEnd => pure (emptyNode (token.line + 1))
          | _ => node false false bound
        | _ => pure (emptyNode (token.line + 1))
      return (key, value) :: (← flowEntries false bound)
    | _ =>
      let key ← node false false bound
      let token ← peek
      return (key, emptyNode (token.line + 1)) :: (← flowEntries false bound)

end

/-- The directives before a document: at most one version, which must be 1.1, and shorthands for
tags, each at most once. -/
def directives (version : Bool) : Nat → Compose Unit
  | 0 => failure
  | bound + 1 => do
    match ← peekKind with
    | .versionDirective major minor =>
      guard (!version && major = 1 && minor = 1)
      drop
      directives true bound
    | .tagDirective handle expansion =>
      let s ← get
      guard (s.handles.lookup handle).isNone
      set { s with handles := (handle, expansion) :: s.handles }
      drop
      directives version bound
    | _ => return ()

/-- The shorthands that every document has. -/
def defaultHandles : List (String × String) := [("!", "!"), ("!!", yamlTags)]

/-- The tree of the next document, if there is one. -/
def document (bound : Nat) : Compose (Option Node) := do
  let root ← match ← peekKind with
    | .streamEnd => return none
    | .versionDirective _ _ | .tagDirective _ _ | .documentStart => do
      directives false bound
      modify fun s => { s with
        handles := s.handles ++ defaultHandles.filter fun (handle, _) =>
          (s.handles.lookup handle).isNone }
      let start ← peek
      guard (start.kind = .documentStart)
      drop
      match ← peekKind with
      | .versionDirective _ _ | .tagDirective _ _ | .documentStart | .documentEnd | .streamEnd =>
        pure (emptyNode (start.endLine + 1))
      | _ => node true false bound
    | _ => do
      modify fun s => { s with handles := defaultHandles }
      node true false bound
  let _ ← peek
  return some root

end Compose

/-- The first document of a text: nothing where the text is malformed, and no document where it
holds none. -/
def document? (text : String) : Option (Option Document) :=
  let tokens := tokens text
  let bound := 2 * tokens.length + 4
  ((Compose.document bound).run { rest := tokens }).map fun (root, composer) =>
    root.map fun root => ⟨root, composer.named, tokens.length⟩

end MazeRobot.Yaml
