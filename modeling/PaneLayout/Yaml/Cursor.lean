set_option autoImplicit false

/-!
# Places in a YAML text

A place in a YAML text, and the classes of characters that its grammar is made of.

A line ends at a line feed, a carriage return with or without one, a next-line character, or a line
or paragraph separator. All but the last two are read as a line feed.
-/

namespace PaneLayout.Yaml

/-- The characters a text may hold. -/
def isAllowed (c : Char) : Bool :=
  let n := c.toNat
  n == 0x9 || n == 0xa || n == 0xd || (0x20 ≤ n && n ≤ 0x7e) || n == 0x85
    || (0xa0 ≤ n && n ≤ 0xd7ff) || (0xe000 ≤ n && n ≤ 0xfffd) || 0x10000 ≤ n

def isBlank (c : Char) : Bool := c == ' ' || c == '\t'

def isBreak (c : Char) : Bool :=
  c == '\n' || c == '\r' || c.toNat == 0x85 || c.toNat == 0x2028 || c.toNat == 0x2029

def isGap (c : Char) : Bool := isBlank c || isBreak c

/-- Letters of names: of anchors, directives and tag handles. -/
def isWord (c : Char) : Bool :=
  ('0' ≤ c && c ≤ '9') || ('A' ≤ c && c ≤ 'Z') || ('a' ≤ c && c ≤ 'z') || c == '_' || c == '-'

def digit? (c : Char) : Option Nat :=
  if '0' ≤ c ∧ c ≤ '9' then some (c.toNat - '0'.toNat) else none

def hexDigit? (c : Char) : Option Nat :=
  if '0' ≤ c ∧ c ≤ '9' then some (c.toNat - '0'.toNat)
  else if 'a' ≤ c ∧ c ≤ 'f' then some (c.toNat - 'a'.toNat + 10)
  else if 'A' ≤ c ∧ c ≤ 'F' then some (c.toNat - 'A'.toNat + 10)
  else none

/-- The character of a code point, if it has one. -/
def charOfCode? (n : Nat) : Option Char :=
  if h : n.isValidChar then some (Char.ofNatAux n h) else none

structure Cursor where
  rest : List Char
  /-- Octets of UTF-8 before this place. -/
  offset : Nat
  line : Nat
  /-- Characters of the line before this place. -/
  column : Nat

namespace Cursor

def ofList (cs : List Char) : Cursor := ⟨cs, 0, 0, 0⟩

/-- Past `n` characters of the same line. -/
def skip (c : Cursor) (n : Nat) : Cursor :=
  { c with
    rest := c.rest.drop n
    offset := (c.rest.take n).foldl (fun k x => k + x.utf8Size) c.offset
    column := c.column + n }

def takeWhile (c : Cursor) (p : Char → Bool) : List Char × Cursor :=
  let cs := c.rest.takeWhile p
  (cs, c.skip cs.length)

def dropWhile (c : Cursor) (p : Char → Bool) : Cursor := (c.takeWhile p).2

/-- The line break at the cursor as it is read, and the start of the next line. -/
def line? (c : Cursor) : Option (Char × Cursor) :=
  match c.rest with
  | '\r' :: '\n' :: rest => some ('\n', ⟨rest, c.offset + 2, c.line + 1, 0⟩)
  | b :: rest =>
    if isBreak b then
      some (if b.toNat < 0x2028 then '\n' else b, ⟨rest, c.offset + b.utf8Size, c.line + 1, 0⟩)
    else none
  | [] => none

/-- No character, a blank or a line break comes after `n` more characters. -/
def endsAt (c : Cursor) (n : Nat) : Bool :=
  match c.rest[n]? with
  | some x => isGap x
  | none => true

def startsWith (c : Cursor) (word : List Char) : Bool := word.isPrefixOf c.rest

/-- `---` or `...` by itself at the start of a line. -/
def atDocumentMark (c : Cursor) : Bool :=
  c.column == 0 && (c.startsWith ['-', '-', '-'] || c.startsWith ['.', '.', '.']) && c.endsAt 3

/-- Past blanks and a comment; what remains of the line must be nothing. -/
def finishLine? (c : Cursor) : Option Cursor :=
  let c := c.dropWhile isBlank
  let c := if c.startsWith ['#'] then c.dropWhile (!isBreak ·) else c
  match c.rest with
  | [] => some c
  | _ => c.line?.map (·.2)

end Cursor
end PaneLayout.Yaml
