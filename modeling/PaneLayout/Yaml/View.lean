import PaneLayout.Yaml.Node
import PaneLayout.Yaml.Plain

set_option autoImplicit false

/-!
# Reading a tree

A node can be viewed as data, by what its scalars look like, or be asked for one kind of value:
then a key is a text whatever it looks like, and a quoted number is no number.

Reading follows aliases. To keep small texts from standing for huge data, at most a hundred times
as many aliases are followed as the text has places, and collections nest in 128 levels at most.
-/

namespace PaneLayout.Yaml

/-- The state is how many more aliases may be followed. -/
abbrev View := StateT Nat Option

def maxDepth : Nat := 128

def coreTag (name : String) : TagText := ("tag:yaml.org,2002:".toList ++ name.toList).map some

def TagText.isMarked (t : TagText) : Bool := t.head? == some (some '!')

/-- A tag that only the text itself knows. It has to be spelled in characters. -/
def isLocal (tag : Option TagText) : Bool := tag.any fun t => t.isMarked && t.all Option.isSome

/-- A mark that is not spelled in characters leaves a plain scalar what it looks like. -/
def scalarDatum? (tag : Option TagText) (text : List Char) (style : Style) : Option Datum :=
  match tag with
  | none => if style = .plain then plainDatum? text else some (.text (String.ofList text))
  | some t =>
    if t = coreTag "bool" then (truth? text).map .bool
    else if t = coreTag "int" then (integer? text).join
    else if t = coreTag "float" then (real? text).map .real
    else if t = coreTag "null" then (if isNullWord text then some .null else none)
    else if isLocal tag then none
    else if t.isMarked ∧ style = .plain then plainDatum? text
    else some (.text (String.ofList text))

namespace View

variable (tree : Tree)

def follow : Node → View Node
  | .alias number => do
    match ← get with
    | 0 => failure
    | left + 1 =>
      set left
      tree.anchored? number
  | n => return n

/-- The node as data, where `levels` more collections may nest. -/
def datumWithin : Nat → Node → View Datum
  | 0, _ => failure
  | levels + 1, n => do
    match ← follow tree n with
    | .alias _ => failure
    | .scalar tag text style => scalarDatum? tag text style
    | .sequence tag items =>
      if levels = 0 ∨ isLocal tag then failure
      else return .list (← items.mapM (datumWithin levels))
    | .mapping tag entries =>
      if levels = 0 ∨ isLocal tag then failure
      else return .map (← entries.mapM fun e => do
        return (← datumWithin levels e.1, ← datumWithin levels e.2))

def text (n : Node) : View String := do
  match ← follow tree n with
  | .scalar _ text _ => return String.ofList text
  | _ => failure

/-- A union one level below the root, as data. Its tag is a text whatever it looks like. -/
def taggedDatum (tag : String) (n : Node) : View Datum := do
  let inner := datumWithin tree (maxDepth - 1)
  match ← follow tree n with
  | .mapping own entries =>
    if isLocal own then failure
    else return .map (← entries.mapM fun e => do
      match ← inner e.1 with
      | .text key =>
        return (.text key, ← if key == tag then .text <$> text tree e.2 else inner e.2)
      | key => return (key, ← inner e.2))
  | .sequence own (first :: items) =>
    if isLocal own then failure
    else return .list (.text (← text tree first) :: (← items.mapM inner))
  | _ => failure

/-- A plain scalar, or a literal one that says by its tag what it is. -/
def plain {β : Type} (tag : String) (f : List Char → Option β) (n : Node) : View β := do
  match ← follow tree n with
  | .scalar own text style =>
    if style = .plain ∨ (style = .literal ∧ own = some (coreTag tag)) then f text else failure
  | _ => failure

def word (n : Node) : View UInt32 :=
  plain tree "int" (fun t => (natural? t).bind fun n => (Datum.unsigned n).word?) n

def bool (n : Node) : View Bool := plain tree "bool" truth? n

def option {β : Type} (f : Node → View β) (n : Node) : View (Option β) := do
  let n ← follow tree n
  match n with
  | .scalar none text .plain =>
    if text.isEmpty || isNullWord text then return none else some <$> f n
  | .scalar (some tag) text .plain =>
    if tag = coreTag "null" then (if isNullWord text then return none else failure)
    else some <$> f n
  | _ => some <$> f n

/-- The entries of a mapping; an empty plain scalar has none. -/
def entries (n : Node) : View (List (Node × Node)) := do
  match ← follow tree n with
  | .mapping _ es => return es
  | .scalar _ [] .plain => return []
  | _ => failure

/-- The entries with a known key, by its position. Entries with other keys are not looked at. -/
def fields (names : List String) : List (Node × Node) → View (List (Nat × Node))
  | [] => return []
  | (k, v) :: es => do
    let key ← text tree k
    let rest ← fields names es
    match names.idxOf? key with
    | some i => if rest.any fun f => f.1 == i then failure else return (i, v) :: rest
    | none => return rest

def defaulted {β : Type} (fs : List (Nat × Node)) (i : Nat) (f : Node → View β) (default : β) :
    View β :=
  match fs.lookup i with
  | some n => f n
  | none => return default

/-- What is made of a text. An empty text has no root. -/
def read? {β : Type} (f : Tree → Option Node → View β) (text : String) : Option β := do
  let tree ← Tree.read? text
  (·.1) <$> (f tree tree.root).run (100 * tree.size)

end View
end PaneLayout.Yaml
