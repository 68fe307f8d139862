import PaneLayout.Yaml.Token

set_option autoImplicit false

/-!
# The tree of a YAML text

A text holds at most one document. Where a node may stand and none does, an empty plain scalar is
read.

Anchors are numbered by how many names were in use before. A name that is used again takes a new
number, and the number goes to the latest node that has it, so aliases keep numbers and are looked
up only when the tree is read.
-/

namespace PaneLayout.Yaml

inductive Node where
  | alias (number : Nat)
  | scalar (tag : Option TagText) (text : List Char) (style : Style)
  | sequence (tag : Option TagText) (items : List Node)
  | mapping (tag : Option TagText) (entries : List (Node × Node))
deriving Inhabited

namespace Node

def empty : Node := scalar none [] .plain

end Node

structure Tree where
  /-- Nothing for an empty text. -/
  root : Option Node
  /-- By number, the place of the node it stands for; the latest is first. -/
  anchors : List (Nat × Nat)
  /-- The nodes with an anchor, by place. -/
  nodes : List (Nat × Node)
  /-- Places in the text: two for a collection and one for any other node. -/
  size : Nat

def Tree.anchored? (t : Tree) (number : Nat) : Option Node :=
  (t.anchors.lookup number).bind fun place => t.nodes.lookup place

/-- The tokens that are left, and what has been gathered so far. -/
structure Growth where
  tokens : List Token
  names : List (List Char × Nat)
  anchors : List (Nat × Nat)
  nodes : List (Nat × Node)
  size : Nat

abbrev Grow := StateT Growth Option

namespace Grow

def peek : Grow (Option Token) := return (← get).tokens.head?
def skip : Grow Unit := modify fun g => { g with tokens := g.tokens.drop 1 }

def accept (t : Token) : Grow Bool := do
  if (← peek) = some t then
    skip
    return true
  else return false

def comesOneOf (ts : List Token) : Grow Bool := do
  return match ← peek with
    | some t => ts.contains t
    | none => false

/-- All items but the first come after a comma. -/
def comma (first : Bool) : Grow Unit := do
  if !first then
    if !(← accept .flowEntry) then failure

/-- Takes the next place. -/
def place : Grow Nat := modifyGet fun g => (g.size, { g with size := g.size + 1 })

def emptyNode : Grow Node := do
  let _ ← place
  return .empty

def anchorMark : Grow (Option (List Char)) := do
  match ← peek with
  | some (.anchor name) =>
    skip
    return some name
  | _ => return none

def tagMark : Grow (Option (List Char × TagText)) := do
  match ← peek with
  | some (.tag handle suffix) =>
    skip
    return some (handle, suffix)
  | _ => return none

/-- An anchor and a tag in either order. -/
def properties : Grow (Option (List Char) × Option (List Char × TagText)) := do
  match ← anchorMark with
  | some name => return (some name, ← tagMark)
  | none =>
    let tag ← tagMark
    return (← anchorMark, tag)

/-- The meanings of `!` and `!!`, unless a directive gives others. -/
def handles (own : List (List Char × TagText)) : List (List Char × TagText) :=
  own ++ [(['!'], [some '!']), (['!', '!'], "tag:yaml.org,2002:".toList.map some)]

def fullTag (own : List (List Char × TagText)) : List Char × TagText → Grow TagText
  | ([], suffix) => return suffix
  | (handle, suffix) => match (handles own).lookup handle with
    | some meaning => return meaning ++ suffix
    | none => failure

def nameAnchor (name : List Char) (start : Nat) : Grow Unit :=
  modify fun g =>
    let number := g.names.length
    { g with
      names := (name, number) :: g.names.filter fun n => n.1 != name
      anchors := (number, start) :: g.anchors }

def closeAnchor (name : Option (List Char)) (start : Nat) (n : Node) : Grow Node := do
  if name.isSome then modify fun g => { g with nodes := (start, n) :: g.nodes }
  return n

variable (own : List (List Char × TagText))

mutual

/-- A node. In a flow collection it is not a block, and as the value of a block mapping it may be a
sequence without an indentation of its own. Each call spends one unit of `fuel`, so twice the
number of tokens is enough. -/
def node : Nat → Bool → Bool → Grow Node
  | 0, _, _ => failure
  | fuel + 1, block, indentless => do
    match ← peek with
    | some (.alias name) =>
      skip
      let _ ← place
      match (← get).names.lookup name with
      | some number => return .alias number
      | none => failure
    | _ =>
      let (name, mark) ← properties
      let tag ← mark.mapM (fullTag own)
      let start ← place
      if let some name := name then nameAnchor name start
      closeAnchor name start (← content fuel block indentless (name.isSome || mark.isSome) tag)

def content : Nat → Bool → Bool → Bool → Option TagText → Grow Node
  | 0, _, _, _, _ => failure
  | fuel + 1, block, indentless, marked, tag => do
    let sequence (items : Grow (List Node)) : Grow Node := do
      let items ← items
      let _ ← place
      return .sequence tag items
    let mapping (entries : Grow (List (Node × Node))) : Grow Node := do
      let entries ← entries
      let _ ← place
      return .mapping tag entries
    match ← peek with
    | some (.scalar text style) =>
      skip
      return .scalar tag text style
    | some .flowSequence =>
      skip
      sequence (flowItems fuel true)
    | some .flowMapping =>
      skip
      mapping (flowEntries fuel true)
    | t =>
      if indentless ∧ t = some .blockEntry then sequence (indentlessItems fuel)
      else if block ∧ t = some .blockSequence then
        skip
        sequence (blockItems fuel)
      else if block ∧ t = some .blockMapping then
        skip
        mapping (blockEntries fuel)
      else if marked then return .scalar tag [] .plain
      else failure

def blockItems : Nat → Grow (List Node)
  | 0 => failure
  | fuel + 1 => do
    if ← accept .blockEntry then
      let n ← if ← comesOneOf [.blockEntry, .blockEnd] then emptyNode else node fuel true false
      return n :: (← blockItems fuel)
    else if ← accept .blockEnd then return []
    else failure

def indentlessItems : Nat → Grow (List Node)
  | 0 => failure
  | fuel + 1 => do
    if ← accept .blockEntry then
      let n ← if ← comesOneOf [.blockEntry, .key, .value, .blockEnd] then emptyNode
        else node fuel true false
      return n :: (← indentlessItems fuel)
    else return []

def blockEntries : Nat → Grow (List (Node × Node))
  | 0 => failure
  | fuel + 1 => do
    let part : Grow Node := do
      if ← comesOneOf [.key, .value, .blockEnd] then emptyNode else node fuel true true
    if ← accept .key then
      let k ← part
      let v ← if ← accept .value then part else emptyNode
      return (k, v) :: (← blockEntries fuel)
    else if ← accept .blockEnd then return []
    else failure

/-- Items up to the closing bracket. An item with a key is a mapping with one entry. -/
def flowItems : Nat → Bool → Grow (List Node)
  | 0, _ => failure
  | fuel + 1, first => do
    if ← accept .flowSequenceEnd then return []
    comma first
    if ← accept .key then
      let _ ← place
      let k ← if ← comesOneOf [.value, .flowEntry, .flowSequenceEnd] then
          skip
          emptyNode
        else node fuel false false
      let v ← if ← accept .value then
          if ← comesOneOf [.flowEntry, .flowSequenceEnd] then emptyNode else node fuel false false
        else emptyNode
      let _ ← place
      return .mapping none [(k, v)] :: (← flowItems fuel false)
    else if ← accept .flowSequenceEnd then return []
    else
      let n ← node fuel false false
      return n :: (← flowItems fuel false)

def flowEntries : Nat → Bool → Grow (List (Node × Node))
  | 0, _ => failure
  | fuel + 1, first => do
    if ← accept .flowMappingEnd then return []
    comma first
    if ← accept .key then
      let k ← if ← comesOneOf [.value, .flowEntry, .flowMappingEnd] then emptyNode
        else node fuel false false
      let v ← if ← accept .value then
          if ← comesOneOf [.flowEntry, .flowMappingEnd] then emptyNode else node fuel false false
        else emptyNode
      return (k, v) :: (← flowEntries fuel false)
    else if ← accept .flowMappingEnd then return []
    else
      let k ← node fuel false false
      let v ← emptyNode
      return (k, v) :: (← flowEntries fuel false)

end

end Grow

/-- The directives before a document. -/
structure Directives where
  version : Bool
  handles : List (List Char × TagText)

namespace Directives

/-- A directive must not stand twice, and versions other than 1.1 and 1.2 are not read. -/
def add? (d : Directives) : Token → Option Directives
  | .version major minor =>
    if d.version ∨ major ≠ 1 ∨ (minor ≠ 1 ∧ minor ≠ 2) then none
    else some { d with version := true }
  | .handle name meaning =>
    if (d.handles.lookup name).isSome then none
    else some { d with handles := d.handles ++ [(name, meaning)] }
  | _ => none

/-- The directives, and the tokens after them. -/
def read? (d : Directives) : List Token → Option (Directives × List Token)
  | [] => some (d, [])
  | t :: ts => match t with
    | .version .. | .handle .. => do read? (← d.add? t) ts
    | _ => some (d, t :: ts)

end Directives

namespace Tree

/-- Marks of the end may follow a document, and nothing else. -/
def finish? (root : Node) (g : Growth) : Option Tree :=
  if g.tokens.all (· == .documentEnd) then some ⟨some root, g.anchors, g.nodes, g.size⟩ else none

def ofTokens? : List Token → Option Tree
  | [] => some ⟨none, [], [], 1⟩
  | t :: ts => do
    let (directives, rest) ← Directives.read? ⟨false, []⟩ (t :: ts)
    let start (tokens : List Token) : Growth := ⟨tokens, [], [], [], 0⟩
    let explicit := rest.head? == some .documentStart
    let tokens := if explicit then rest.drop 1 else rest
    let isEmpty := match tokens with
      | [] | .version .. :: _ | .handle .. :: _ | .documentStart :: _ | .documentEnd :: _ => true
      | _ => false
    if explicit && isEmpty then
      let (n, g) ← Grow.emptyNode.run (start tokens)
      finish? n g
    else if !explicit && rest.length != ts.length + 1 then none
    else
      let fuel := 2 * tokens.length + 2
      let (n, g) ← (Grow.node directives.handles fuel true false).run (start tokens)
      finish? n g

def read? (text : String) : Option Tree := do ofTokens? (← tokens? text)

end Tree
end PaneLayout.Yaml
