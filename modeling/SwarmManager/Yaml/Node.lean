import SwarmManager.Yaml.Token

/-!
# Documents of YAML

A text holds at most one document here, and a document is a node: a scalar, a
sequence, a mapping, or an alias.  Places where a node may be left out hold the
empty plain scalar.

An anchor has as its number the count of names anchored before it, and an alias
stands for whatever had its number last.  What it stands for matters only if that
is a scalar, so the anchors of a document map numbers to texts.
-/

namespace SwarmManager.Yaml

set_option autoImplicit false

/-- A part of a document. -/
inductive Node where
  | scalar (text : String) (isPlain : Bool)
  | sequence (items : List Node)
  | mapping (entries : List (Node × Node))
  /-- What was anchored under a number. -/
  | alias (number : Nat)

/-- The names anchored so far with their numbers, and what each number was last
given to: the text of a scalar, or nothing. -/
structure Anchors where
  numbers : List (String × Nat)
  targets : List (Nat × Option String)

namespace Anchors

/-- No anchors. -/
def empty : Anchors := ⟨[], []⟩

/-- With one more anchor. -/
def define (anchors : Anchors) (name : String) (target : Option String) : Anchors :=
  let number := anchors.numbers.length
  ⟨(name, number) :: anchors.numbers.filter fun known => known.1 != name,
    (number, target) :: anchors.targets⟩

/-- The number of a name. -/
def number? (anchors : Anchors) (name : String) : Option Nat := anchors.numbers.lookup name

/-- The text that a number stands for. -/
def text? (anchors : Anchors) (number : Nat) : Option String :=
  (anchors.targets.lookup number).join

end Anchors

/-- A document: its root, none if the text holds no document, and its anchors. -/
structure Document where
  root : Option Node
  anchors : Anchors

/-! ## Nodes from tokens -/

/-- What is known while nodes are made of tokens. -/
structure Assembly where
  tokens : List Token
  anchors : Anchors
  /-- The tag handles that are defined. -/
  handles : List String

/-- A step that may find the tokens not well formed. -/
abbrev Assemble (α : Type) : Type := StateT Assembly Option α

namespace Assemble

/-- The next token. -/
def peek? : Assemble (Option Token) := return (← get).tokens.head?

/-- Go past the next token. -/
def drop : Assemble Unit := modify fun assembly => { assembly with tokens := assembly.tokens.tail }

/-- Go past the next token if it is the given one. -/
def skip? (token : Token) : Assemble Bool := do
  if (← peek?) == some token then
    drop
    return true
  else return false

/-- Whether the next token is one of the given ones. -/
def isNext (tokens : List Token) : Assemble Bool := return (← peek?).any tokens.contains

/-- The node of a place where none is written. -/
def emptyNode : Node := .scalar "" true

/-- What stands before the content of a node. -/
structure Properties where
  anchor : Option String
  isTagged : Bool

/-- The anchor before a node. -/
def anchor? : Assemble (Option String) := do
  match ← peek? with
  | some (.anchor name) =>
      drop
      return some name
  | _ => return none

/-- Whether there is a tag before a node.  Its handle has to be defined. -/
def tagged? : Assemble Bool := do
  match ← peek? with
  | some (.tag handle) =>
      drop
      if handle.isEmpty || (← get).handles.contains handle then return true else failure
  | _ => return false

/-- The anchor and the tag before a node, in either order. -/
def properties : Assemble Properties := do
  match ← anchor? with
  | some name => return ⟨some name, ← tagged?⟩
  | none =>
      if ← tagged? then return ⟨← anchor?, true⟩ else return ⟨none, false⟩

/-- Give a node its anchor. -/
def define (properties : Properties) (target : Option String) : Assemble Unit :=
  match properties.anchor with
  | some name =>
      modify fun assembly => { assembly with anchors := assembly.anchors.define name target }
  | none => return ()

mutual
/-- The next node.  In a block, block collections may follow; as an entry of a
mapping, a sequence need not be indented. -/
def node (inBlock isEntry : Bool) : (fuel : Nat) → Assemble Node
  | 0 => failure
  | fuel + 1 => do
      if let some (.alias name) ← peek? then
        drop
        match (← get).anchors.number? name with
        | some number => return .alias number
        | none => failure
      else
        let properties ← properties
        match ← peek? with
        | some .blockEntry =>
            if isEntry then
              define properties none
              return .sequence (← unindentedItems fuel)
            else bare properties
        | some (.scalar text isPlain) =>
            drop
            define properties (some text)
            return .scalar text isPlain
        | some .flowSequenceStart =>
            drop
            define properties none
            return .sequence (← flowItems true fuel)
        | some .flowMappingStart =>
            drop
            define properties none
            return .mapping (← flowEntries true fuel)
        | some .blockSequenceStart =>
            if inBlock then
              drop
              define properties none
              return .sequence (← blockItems fuel)
            else bare properties
        | some .blockMappingStart =>
            if inBlock then
              drop
              define properties none
              return .mapping (← blockEntries fuel)
            else bare properties
        | _ => bare properties

/-- A node without content, which has to have an anchor or a tag. -/
def bare (properties : Properties) : Assemble Node := do
  if properties.anchor.isNone && !properties.isTagged then failure
  define properties (some "")
  return emptyNode

/-- The next node of a block, or the empty node before one of some tokens. -/
def nodeUnless (isEntry : Bool) (ends : List Token) : (fuel : Nat) → Assemble Node
  | 0 => failure
  | fuel + 1 => do
      if ← isNext ends then return emptyNode else node true isEntry fuel

/-- The next node of a flow collection, or the empty node before one of some
tokens. -/
def flowNodeUnless (ends : List Token) : (fuel : Nat) → Assemble Node
  | 0 => failure
  | fuel + 1 => do
      if ← isNext ends then return emptyNode else node false false fuel

/-- The items of a block sequence up to its end. -/
def blockItems : (fuel : Nat) → Assemble (List Node)
  | 0 => failure
  | fuel + 1 => do
      if ← skip? .blockEntry then
        let item ← nodeUnless false [.blockEntry, .blockEnd] fuel
        return item :: (← blockItems fuel)
      else if ← skip? .blockEnd then return []
      else failure

/-- The items of a sequence that is not indented. -/
def unindentedItems : (fuel : Nat) → Assemble (List Node)
  | 0 => failure
  | fuel + 1 => do
      if ← skip? .blockEntry then
        let item ← nodeUnless false [.blockEntry, .key, .value, .blockEnd] fuel
        return item :: (← unindentedItems fuel)
      else return []

/-- The entries of a block mapping up to its end. -/
def blockEntries : (fuel : Nat) → Assemble (List (Node × Node))
  | 0 => failure
  | fuel + 1 => do
      if ← skip? .key then
        let key ← nodeUnless true [.key, .value, .blockEnd] fuel
        let value ←
          if ← skip? .value then nodeUnless true [.key, .value, .blockEnd] fuel
          else pure emptyNode
        return (key, value) :: (← blockEntries fuel)
      else if ← skip? .blockEnd then return []
      else failure

/-- The items of a flow sequence up to its end.  Between two there is a comma,
and an item may be a single entry of a mapping. -/
def flowItems (isFirst : Bool) : (fuel : Nat) → Assemble (List Node)
  | 0 => failure
  | fuel + 1 => do
      if ← skip? .flowSequenceEnd then return []
      if !isFirst then
        if !(← skip? .flowEntry) then failure
      if ← skip? .key then
        let entry ← singleEntry fuel
        return .mapping [entry] :: (← flowItems false fuel)
      else if ← skip? .flowSequenceEnd then return []
      else
        let item ← node false false fuel
        return item :: (← flowItems false fuel)

/-- An entry of a mapping as an item of a flow sequence.  The token after a key
that is left out goes unread. -/
def singleEntry : (fuel : Nat) → Assemble (Node × Node)
  | 0 => failure
  | fuel + 1 => do
      let key ←
        if ← isNext [.value, .flowEntry, .flowSequenceEnd] then do
          drop
          pure emptyNode
        else node false false fuel
      if ← skip? .value then
        return (key, ← flowNodeUnless [.flowEntry, .flowSequenceEnd] fuel)
      else return (key, emptyNode)

/-- The entries of a flow mapping up to its end.  Between two there is a comma,
and a key alone has the empty value. -/
def flowEntries (isFirst : Bool) : (fuel : Nat) → Assemble (List (Node × Node))
  | 0 => failure
  | fuel + 1 => do
      if ← skip? .flowMappingEnd then return []
      if !isFirst then
        if !(← skip? .flowEntry) then failure
      if ← skip? .key then
        let key ← flowNodeUnless [.value, .flowEntry, .flowMappingEnd] fuel
        let value ←
          if ← skip? .value then flowNodeUnless [.flowEntry, .flowMappingEnd] fuel
          else pure emptyNode
        return (key, value) :: (← flowEntries false fuel)
      else if ← skip? .flowMappingEnd then return []
      else
        let key ← node false false fuel
        return (key, emptyNode) :: (← flowEntries false fuel)
end

/-! ## Documents -/

/-- Read the directives before a document, up to its start mark.  There is at
most one version, which is 1.1 or 1.2, and a handle is defined once. -/
def directives (hasVersion : Bool) (defined : List String) : (fuel : Nat) → Assemble Unit
  | 0 => failure
  | fuel + 1 => do
      match ← peek? with
      | some (.versionDirective major minor) =>
          drop
          if hasVersion || major ≠ 1 || (minor ≠ 1 && minor ≠ 2) then failure
          directives true defined fuel
      | some (.tagDirective handle) =>
          drop
          if defined.contains handle then failure
          modify fun assembly => { assembly with handles := handle :: assembly.handles }
          directives hasVersion (handle :: defined) fuel
      | some .documentStart => drop
      | _ => failure

/-- Read the ends of a document, after which nothing may follow. -/
def ends : (fuel : Nat) → Assemble Unit
  | 0 => failure
  | fuel + 1 => do
      if ← skip? .documentEnd then ends fuel
      else
        match ← peek? with
        | none => return ()
        | some _ => failure

/-- The root of the only document, none if there is no document. -/
def root (fuel : Nat) : Assemble (Option Node) := do
  match ← peek? with
  | none => return none
  | some (.versionDirective _ _) | some (.tagDirective _) | some .documentStart =>
      directives false [] fuel
      let content ←
        match ← peek? with
        | none | some (.versionDirective _ _) | some (.tagDirective _) | some .documentStart
        | some .documentEnd => pure emptyNode
        | some _ => node true false fuel
      ends fuel
      return some content
  | some _ =>
      let content ← node true false fuel
      ends fuel
      return some content

end Assemble

namespace Document

/-- The document in a text, if the text is well formed and holds no second
one. -/
def ofText? (text : String) : Option Document := do
  let tokens ← tokens? (← readable? text)
  let (root, assembly) ←
    (Assemble.root (4 * tokens.length + 8)).run ⟨tokens, .empty, ["!", "!!"]⟩
  return ⟨root, assembly.anchors⟩

end Document

end SwarmManager.Yaml
