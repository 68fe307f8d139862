import PaneLayout.Yaml.Scalar

set_option autoImplicit false

/-!
# Tokens of a YAML text

The tokens say what indentation means, so that blocks have explicit ends. A mapping without `?`
shows itself only at the colon behind its first key. Until then the place where a key may have
begun is kept open, and the tokens that were missing are put there afterwards.
-/

namespace PaneLayout.Yaml

/-- A character of a tag; `none` stands for escaped octets that are no character. -/
abbrev TagText := List (Option Char)

inductive Token where
  | version (major minor : Nat)
  | handle (name : List Char) (meaning : TagText)
  | documentStart | documentEnd
  | blockSequence | blockMapping | blockEntry | blockEnd
  | flowSequence | flowSequenceEnd | flowMapping | flowMappingEnd | flowEntry
  | key | value
  | alias (name : List Char)
  | anchor (name : List Char)
  | tag (handle : List Char) (suffix : TagText)
  | scalar (text : List Char) (style : Style)
deriving DecidableEq, Inhabited

/-! ## Names, tags and directives -/

/-- The name of an anchor or of an alias, after its mark. -/
def anchorName? (c : Cursor) : Option (List Char × Cursor) :=
  let (name, c) := c.takeWhile isWord
  let follows (x : Char) : Bool :=
    ['?', ':', ',', ']', '\x7d', '%', '@', Char.ofNat 0x60].contains x
  if name.isEmpty then none
  else if c.endsAt 0 || (c.rest.head?.map follows).getD false then some (name, c) else none

/-- Characters of a tag, apart from the percent sign. -/
def isTagChar (brackets : Bool) (c : Char) : Bool :=
  let marks := [';', '/', '?', ':', '@', '&', '=', '+', '$', '.', '!', '~', '*', '\'', '(', ')']
  isWord c || marks.contains c || (brackets && [',', '[', ']'].contains c)

/-- How many octets a character takes in UTF-8, and the bits of it that the first one holds. -/
def leadOctet? (n : Nat) : Option (Nat × Nat) :=
  if n < 0x80 then some (1, n)
  else if 0xc0 ≤ n ∧ n < 0xe0 then some (2, n % 0x20)
  else if 0xe0 ≤ n ∧ n < 0xf0 then some (3, n % 0x10)
  else if 0xf0 ≤ n ∧ n < 0xf8 then some (4, n % 0x08)
  else none

def octet? : List Char → Option Nat
  | '%' :: a :: b :: _ => do return 16 * (← hexDigit? a) + (← hexDigit? b)
  | _ => none

/-- The remaining octets of a character. -/
def trailOctets? : Nat → Nat → List Char → Option Nat
  | 0, code, _ => some code
  | k + 1, code, cs => do
    let n ← octet? cs
    if 0x80 ≤ n ∧ n < 0xc0 then trailOctets? k (64 * code + n % 64) (cs.drop 3) else none

/-- The least code point that takes so many octets. -/
def leastCode : Nat → Nat
  | 1 => 0
  | 2 => 0x80
  | 3 => 0x800
  | _ => 0x10000

/-- A character written as its octets in hexadecimal, and how many octets they are. Octets of the
right form may still be no character. -/
def percent? (cs : List Char) : Option (Option Char × Nat) := do
  let (size, code) ← leadOctet? (← octet? cs)
  let code ← trailOctets? (size - 1) code (cs.drop 3)
  return (if leastCode size ≤ code then charOfCode? code else none, size)

/-- A zero character ends a tag, whatever follows it. -/
def TagText.untilZero (t : TagText) : TagText := t.takeWhile (· != some '\x00')

def tagText? (brackets : Bool) : Nat → TagText → Cursor → Option (TagText × Cursor)
  | 0, _, _ => none
  | fuel + 1, done, c =>
    match c.rest with
    | '%' :: _ => do
      let (x, size) ← percent? c.rest
      tagText? brackets fuel (done ++ [x]) (c.skip (3 * size))
    | x :: _ =>
      if isTagChar brackets x then tagText? brackets fuel (done ++ [some x]) (c.skip 1)
      else some (done, c)
    | [] => some (done, c)

/-- What `!` and the word after it are, and whether a second `!` closes them. -/
def tagHandle? (c : Cursor) : Option (List Char × Bool × Cursor) :=
  match c.rest with
  | '!' :: _ =>
    let (word, c) := (c.skip 1).takeWhile isWord
    if c.startsWith ['!'] then some ('!' :: word ++ ['!'], true, c.skip 1)
    else some ('!' :: word, false, c)
  | _ => none

def tag? (flow : Bool) (c : Cursor) : Option (Token × Cursor) := do
  let fuel := c.rest.length + 1
  let (token, c) ←
    if c.startsWith ['!', '<'] then
      let (text, c) ← tagText? true fuel [] (c.skip 2)
      if !text.isEmpty ∧ c.startsWith ['>'] then some (.tag [] text.untilZero, c.skip 1) else none
    else
      match ← tagHandle? c with
      | (handle, true, c) =>
        let (text, c) ← tagText? false fuel [] c
        if text.isEmpty then none else some (.tag handle text.untilZero, c)
      | (word, false, c) =>
        let (text, c) ← tagText? false fuel ((word.drop 1).map some) c
        let text := text.untilZero
        some (if text.isEmpty then .tag [] [some '!'] else .tag ['!'] text, c)
  if c.endsAt 0 || (flow && c.startsWith [',']) then some (token, c) else none

/-- At most nine digits. -/
def versionNumber? (c : Cursor) : Option (Nat × Cursor) :=
  let (digits, c) := c.takeWhile fun x => (digit? x).isSome
  if digits.isEmpty ∨ 9 < digits.length then none
  else some ((digits.filterMap digit?).foldl (fun n d => 10 * n + d) 0, c)

def directive? (c : Cursor) : Option (Token × Cursor) := do
  let (name, c) := (c.skip 1).takeWhile isWord
  if !c.endsAt 0 then none
  else
    let c := c.dropWhile isBlank
    let (token, c) ←
      if name = ['Y', 'A', 'M', 'L'] then
        let (major, c) ← versionNumber? c
        if c.startsWith ['.'] then
          let (minor, c) ← versionNumber? (c.skip 1)
          some (.version major minor, c)
        else none
      else if name = ['T', 'A', 'G'] then
        let (handle, closed, c) ← tagHandle? c
        if (closed ∨ handle = ['!']) ∧ (c.rest.head?.map isBlank).getD false then
          let (text, c) ← tagText? true (c.rest.length + 1) [] (c.dropWhile isBlank)
          if !text.isEmpty ∧ c.endsAt 0 then some (.handle handle text.untilZero, c) else none
        else none
      else none
    return (token, ← c.finishLine?)

/-! ## The whole text -/

/-- A place where a key may have begun, after `number` tokens. In a block whose next entry is due
there, it has to be one. -/
structure KeyStart where
  required : Bool
  number : Nat
  place : Cursor

/-- A key stays within its line and within 1024 octets. -/
def KeyStart.isPast (k : KeyStart) (c : Cursor) : Bool :=
  k.place.line < c.line || k.place.offset + 1024 < c.offset

structure Scan where
  cursor : Cursor
  tokens : Array Token
  /-- The column of the innermost block, and those of the blocks around it. -/
  indent : Int
  outer : List Int
  keyAllowed : Bool
  /-- The open key of the innermost flow collection, and those of the levels around it. -/
  open? : Option KeyStart
  outerOpen : List (Option KeyStart)

namespace Scan

def ofList (cs : List Char) : Scan := ⟨.ofList cs, #[], -1, [], true, none, []⟩

def inFlow (s : Scan) : Bool := !s.outerOpen.isEmpty

def push (s : Scan) (t : Token) : Scan := { s with tokens := s.tokens.push t }

/-- A token of `n` characters. -/
def mark (s : Scan) (n : Nat) (t : Token) : Scan := { s.push t with cursor := s.cursor.skip n }

def dropKey? (s : Scan) : Option Scan :=
  if s.open?.any (·.required) then none else some { s with open? := none }

def openKey? (s : Scan) : Option Scan :=
  if s.keyAllowed then do
    let s ← s.dropKey?
    let required := !s.inFlow && s.indent == (s.cursor.column : Int)
    return { s with open? := some ⟨required, s.tokens.size, s.cursor⟩ }
  else some s

def closePast? (s : Scan) : Option Scan :=
  let past (k : KeyStart) : Bool := k.isPast s.cursor
  if (s.open? :: s.outerOpen).any fun k => k.any fun k => past k && k.required then none
  else
    let keep (k : Option KeyStart) : Option KeyStart := k.filter fun k => !past k
    some { s with open? := keep s.open?, outerOpen := s.outerOpen.map keep }

/-- A block begins at `column` unless one of that indentation is under way. -/
def indentTo (s : Scan) (column number : Nat) (t : Token) : Scan :=
  if !s.inFlow ∧ s.indent < column then
    { s with
      indent := column
      outer := s.indent :: s.outer
      tokens := s.tokens.insertIdxIfInBounds number t }
  else s

def unindentWithin (column : Int) : List Int → Scan → Scan
  | parent :: outer, s =>
    if column < s.indent then
      unindentWithin column outer { s.push .blockEnd with indent := parent, outer := outer }
    else s
  | [], s => s

/-- Ends the blocks that are indented by more than `column`. -/
def unindent (s : Scan) (column : Int) : Scan :=
  if s.inFlow then s else unindentWithin column s.outer s

/-- Past blanks, comments and line breaks. A tab does not count as indentation. A byte order mark
may start a line, and counts as a column of it. -/
def skipGap (flow : Bool) : Nat → Bool → Cursor → Bool × Cursor
  | 0, keyAllowed, c => (keyAllowed, c)
  | fuel + 1, keyAllowed, c =>
    let c := if c.column = 0 ∧ c.startsWith ['\ufeff'] then c.skip 1 else c
    let c := c.dropWhile fun x => x == ' ' || ((flow || !keyAllowed) && x == '\t')
    let c := if c.startsWith ['#'] then c.dropWhile (!isBreak ·) else c
    match c.line? with
    | some (_, c) => skipGap flow fuel (keyAllowed || !flow) c
    | none => (keyAllowed, c)

/-- To the start of the next token. -/
def advance? (s : Scan) : Option Scan := do
  let (keyAllowed, c) := skipGap s.inFlow (s.cursor.rest.length + 1) s.keyAllowed s.cursor
  let s ← { s with keyAllowed := keyAllowed, cursor := c }.closePast?
  return s.unindent c.column

def finish? (s : Scan) : Option (Array Token) := do return (← (s.unindent (-1)).dropKey?).tokens

/-- A directive or a mark between documents. -/
def betweenDocuments? (s : Scan) (t : Token) (c : Cursor) : Option Scan := do
  let s ← (s.unindent (-1)).dropKey?
  return { s.push t with keyAllowed := false, cursor := c }

def flowStart? (s : Scan) (t : Token) : Option Scan := do
  let s ← s.openKey?
  return { s.mark 1 t with keyAllowed := true, open? := none, outerOpen := s.open? :: s.outerOpen }

def flowEnd? (s : Scan) (t : Token) : Option Scan := do
  let s ← s.dropKey?
  let s := { s.mark 1 t with keyAllowed := false }
  return match s.outerOpen with
    | key :: keys => { s with open? := key, outerOpen := keys }
    | [] => s

/-- `-` and `?`, which begin a block or go on with one. -/
def entry? (s : Scan) (block t : Token) (keyAllowed : Bool) : Option Scan := do
  if s.inFlow ∨ s.keyAllowed then
    let s ← (s.indentTo s.cursor.column s.tokens.size block).dropKey?
    return { s.mark 1 t with keyAllowed := keyAllowed }
  else none

def value? (s : Scan) : Option Scan :=
  match s.open? with
  | some k =>
    let s := { s with
      open? := none, keyAllowed := false, tokens := s.tokens.insertIdxIfInBounds k.number .key }
    some ((s.indentTo k.place.column k.number .blockMapping).mark 1 .value)
  | none =>
    if s.inFlow ∨ s.keyAllowed then
      let s := s.indentTo s.cursor.column s.tokens.size .blockMapping
      some { s.mark 1 .value with keyAllowed := !s.inFlow }
    else none

/-- A token that may be the start of a key. -/
def keyToken? (s : Scan) (t : Option (Token × Cursor)) : Option Scan := do
  let s ← s.openKey?
  let (t, c) ← t
  return { s.push t with keyAllowed := false, cursor := c }

def quotedToken? (s : Scan) (double : Bool) : Option Scan :=
  s.keyToken? do
    let c := s.cursor.skip 1
    let (text, c) ← quoted? double (c.rest.length + 1) [] c
    return (.scalar text (if double then .double else .single), c)

def blockToken? (s : Scan) (literal : Bool) : Option Scan := do
  let s ← s.dropKey?
  let (text, c) ← block? literal s.indent (s.cursor.skip 1)
  return { s.push (.scalar text (if literal then .literal else .folded)) with
    keyAllowed := true, cursor := c }

def startsPlain (s : Scan) : Bool :=
  let marks := ['-', '?', ':', ',', '[', ']', '\x7b', '\x7d', '#', '&', '*', '!', '|', '>', '\'',
    '"', '%', '@', Char.ofNat 0x60]
  match s.cursor.rest with
  | x :: rest =>
    !(isGap x || marks.contains x)
      || (x == '-' && !((rest.head?.map isBlank).getD false))
      || (!s.inFlow && (x == '?' || x == ':') && !s.cursor.endsAt 1)
  | [] => false

def plainToken? (s : Scan) : Option Scan :=
  if s.startsPlain then do
    let s ← s.openKey?
    let (text, gap, c) ←
      plain? s.inFlow (s.indent + 1).toNat (s.cursor.rest.length + 1) [] .none s.cursor
    return { s.push (.scalar text .plain) with keyAllowed := gap.broken, cursor := c }
  else none

/-- The token at the cursor. -/
def token? (s : Scan) : Option Scan :=
  let c := s.cursor
  if c.column = 0 ∧ c.startsWith ['%'] then do
    let (t, c) ← directive? c
    s.betweenDocuments? t c
  else if c.atDocumentMark then
    s.betweenDocuments? (if c.startsWith ['-'] then .documentStart else .documentEnd) (c.skip 3)
  else match c.rest with
    | '[' :: _ => s.flowStart? .flowSequence
    | '\x7b' :: _ => s.flowStart? .flowMapping
    | ']' :: _ => s.flowEnd? .flowSequenceEnd
    | '\x7d' :: _ => s.flowEnd? .flowMappingEnd
    | ',' :: _ => do return { (← s.dropKey?).mark 1 .flowEntry with keyAllowed := true }
    | '*' :: _ => s.keyToken? ((anchorName? (c.skip 1)).map fun (name, c) => (.alias name, c))
    | '&' :: _ => s.keyToken? ((anchorName? (c.skip 1)).map fun (name, c) => (.anchor name, c))
    | '!' :: _ => s.keyToken? (tag? s.inFlow c)
    | '\'' :: _ => s.quotedToken? false
    | '"' :: _ => s.quotedToken? true
    | x :: _ =>
      if x = '-' ∧ c.endsAt 1 then s.entry? .blockSequence .blockEntry true
      else if x = '?' ∧ (s.inFlow ∨ c.endsAt 1) then s.entry? .blockMapping .key !s.inFlow
      else if x = ':' ∧ (s.inFlow ∨ c.endsAt 1) then s.value?
      else if x = '|' ∧ !s.inFlow then s.blockToken? true
      else if x = '>' ∧ !s.inFlow then s.blockToken? false
      else s.plainToken?
    | [] => none

/-- Each token takes at least one character. -/
def run? : Nat → Scan → Option (Array Token)
  | 0, _ => none
  | fuel + 1, s => do
    let s ← s.advance?
    if s.cursor.rest.isEmpty then s.finish? else run? fuel (← s.token?)

end Scan

def tokens? (text : String) : Option (List Token) :=
  let cs := text.toList
  if cs.all isAllowed then ((Scan.ofList cs).run? (cs.length + 1)).map Array.toList else none

end PaneLayout.Yaml
