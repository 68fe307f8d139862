import PaneLayout.Yaml.Cursor

set_option autoImplicit false

/-!
# The text of a scalar in each of its styles

Within a scalar a gap of blanks and line breaks is folded: blanks alone stay, one break becomes a
space, and of several the first is dropped. Literal block scalars keep their lines as they are.
-/

namespace PaneLayout.Yaml

inductive Style where
  | plain | single | double | literal | folded
deriving DecidableEq, Inhabited

/-- A run of blanks and line breaks. `broken` is set from the first break on, also from one that is
escaped and so leaves nothing in `first`. -/
structure Gap where
  blanks : List Char
  broken : Bool
  first : List Char
  later : List Char

namespace Gap

def none : Gap := ⟨[], false, [], []⟩

def fold (g : Gap) : List Char :=
  if g.broken then
    if g.first = ['\n'] then (if g.later = [] then [' '] else g.later) else g.first ++ g.later
  else g.blanks

def addBreak (g : Gap) (b : Char) : Gap :=
  if g.broken then { g with later := g.later ++ [b] }
  else { g with broken := true, first := [b], blanks := [] }

def addBlank (g : Gap) (b : Char) : Gap :=
  if g.broken then g else { g with blanks := g.blanks ++ [b] }

/-- Reads a gap. After a break a tab must not stand before column `indent`. -/
def read? (indent : Nat) : Nat → Gap → Cursor → Option (Gap × Cursor)
  | 0, g, c => some (g, c)
  | fuel + 1, g, c =>
    match c.line? with
    | some (b, c) => read? indent fuel (g.addBreak b) c
    | .none => match c.rest with
      | x :: _ =>
        if isBlank x then
          if g.broken ∧ c.column < indent ∧ x = '\t' then .none
          else read? indent fuel (g.addBlank x) (c.skip 1)
        else some (g, c)
      | [] => some (g, c)

end Gap

/-! ## Plain scalars -/

def isFlowMark (c : Char) : Bool := c == ',' || c == '[' || c == ']' || c == '\x7b' || c == '\x7d'

/-- Characters up to a gap or an indicator that ends the scalar. -/
def plainWord? (flow : Bool) : List Char → Option (List Char)
  | [] => some []
  | c :: cs =>
    if isGap c then some []
    else if flow && c == ':' && cs.head?.any (fun x => isFlowMark x || x == '?') then none
    else if c == ':' && (cs.head?.map isGap).getD true then some []
    else if flow && isFlowMark c then some []
    else (plainWord? flow cs).map (c :: ·)

/-- The text, the gap that was read past it, and the cursor. In block context the scalar goes on
only where it is indented by `indent` columns. -/
def plain? (flow : Bool) (indent : Nat) :
    Nat → List Char → Gap → Cursor → Option (List Char × Gap × Cursor)
  | 0, _, _, _ => none
  | fuel + 1, done, gap, c =>
    if c.atDocumentMark || c.startsWith ['#'] then some (done, gap, c)
    else do
      let word ← plainWord? flow c.rest
      let c := c.skip word.length
      let (done, gap) := if word.isEmpty then (done, gap) else (done ++ gap.fold ++ word, .none)
      match c.rest with
      | x :: _ =>
        if isGap x then
          let (gap, c) ← Gap.read? indent (c.rest.length + 1) .none c
          if !flow ∧ c.column < indent then some (done, gap, c)
          else plain? flow indent fuel done gap c
        else some (done, gap, c)
      | [] => some (done, gap, c)

/-! ## Quoted scalars -/

def simpleEscape? : Char → Option Char
  | '0' => some '\x00'
  | 'a' => some '\x07'
  | 'b' => some '\x08'
  | 't' | '\t' => some '\t'
  | 'n' => some '\n'
  | 'v' => some '\x0b'
  | 'f' => some '\x0c'
  | 'r' => some '\r'
  | 'e' => some '\x1b'
  | ' ' => some ' '
  | '"' => some '"'
  | '/' => some '/'
  | '\\' => some '\\'
  | 'N' => some '\u0085'
  | '_' => some '\u00a0'
  | 'L' => some '\u2028'
  | 'P' => some '\u2029'
  | _ => none

def codeLength? : Char → Option Nat
  | 'x' => some 2
  | 'u' => some 4
  | 'U' => some 8
  | _ => none

/-- The character of a numeric escape, which must be a scalar value. -/
def codePoint? (digits : List Char) : Option Char := do
  charOfCode? ((← digits.mapM hexDigit?).foldl (fun n d => 16 * n + d) 0)

/-- The escape after a backslash, and how many characters it takes. -/
def escape? : List Char → Option (Char × Nat)
  | [] => none
  | c :: cs => match codeLength? c with
    | some n =>
      if n ≤ cs.length then (codePoint? (cs.take n)).map fun x => (x, n + 1) else none
    | none => (simpleEscape? c).map fun x => (x, 1)

/-- Characters up to a gap, the closing quote, or an escaped line break, which is also read. -/
def quotedWord? (double : Bool) :
    Nat → List Char → Cursor → Option (List Char × Bool × Cursor)
  | 0, _, _ => none
  | fuel + 1, done, c =>
    match c.rest with
    | [] => some (done, false, c)
    | x :: rest =>
      if isGap x then some (done, false, c)
      else if double then
        if x = '"' then some (done, false, c)
        else if x = '\\' then
          match (c.skip 1).line? with
          | some (_, c) => some (done, true, c)
          | none => match escape? rest with
            | some (e, n) => quotedWord? double fuel (done ++ [e]) (c.skip (n + 1))
            | none => none
        else quotedWord? double fuel (done ++ [x]) (c.skip 1)
      else if x = '\'' then
        if rest.head? = some '\'' then quotedWord? double fuel (done ++ ['\'']) (c.skip 2)
        else some (done, false, c)
      else quotedWord? double fuel (done ++ [x]) (c.skip 1)

/-- The rest of a quoted scalar after its opening quote. -/
def quoted? (double : Bool) : Nat → List Char → Cursor → Option (List Char × Cursor)
  | 0, _, _ => none
  | fuel + 1, done, c =>
    if c.atDocumentMark then none
    else do
      let (word, escaped, c) ← quotedWord? double (c.rest.length + 1) [] c
      let done := done ++ word
      if c.startsWith [if double then '"' else '\''] then some (done, c.skip 1)
      else if c.rest.isEmpty then none
      else
        let (gap, c) ← Gap.read? 0 (c.rest.length + 1) ⟨[], escaped, [], []⟩ c
        quoted? double fuel (done ++ gap.fold) c

/-! ## Block scalars -/

inductive Chomping where
  | strip | clip | keep
deriving DecidableEq

/-- What follows `|` or `>` on its line: the chomping and the given indentation, in either order. -/
def blockHeader? (c : Cursor) : Option (Chomping × Option Nat × Cursor) :=
  let chomp (c : Cursor) : Option Chomping × Cursor := match c.rest with
    | '+' :: _ => (some .keep, c.skip 1)
    | '-' :: _ => (some .strip, c.skip 1)
    | _ => (none, c)
  let width (c : Cursor) : Option (Option Nat × Cursor) := match c.rest with
    | x :: _ => match digit? x with
      | some 0 => none
      | some n => some (some n, c.skip 1)
      | none => some (none, c)
    | [] => some (none, c)
  match chomp c with
  | (some k, c) => (width c).map fun (n, c) => (k, n, c)
  | (none, c) => (width c).map fun
    | (some n, c) => let (k, c) := chomp c; (k.getD .clip, some n, c)
    | (none, c) => (.clip, none, c)

/-- Indentation and empty lines before a line of content. Without an `indent` all spaces are
taken, and the widest line counts. -/
def blockBreaks? (indent : Option Nat) :
    Nat → List Char → Nat → Cursor → Option (List Char × Nat × Cursor)
  | 0, _, _, _ => none
  | fuel + 1, breaks, widest, c =>
    let spaces := (c.rest.takeWhile (· == ' ')).length
    let c := c.skip (match indent with | some n => min spaces (n - c.column) | none => spaces)
    let widest := max widest c.column
    let inside := match indent with | some n => c.column < n | none => true
    if inside && c.startsWith ['\t'] then none
    else match c.line? with
      | some (b, c) => blockBreaks? indent fuel (breaks ++ [b]) widest c
      | none => some (breaks, widest, c)

/-- The lines of content at column `indent`. `leading` is the break before the line and `breaks`
are the empty lines after it; `blank` is set when the line before started with a blank. -/
def blockLines? (literal : Bool) (indent : Nat) :
    Nat → List Char → List Char → List Char → Bool → Cursor →
      Option (List Char × List Char × List Char × Cursor)
  | 0, _, _, _, _, _ => none
  | fuel + 1, done, leading, breaks, blank, c =>
    if c.column ≠ indent ∨ c.rest.isEmpty then some (done, leading, breaks, c)
    else do
      let startsBlank := (c.rest.head?.map isBlank).getD false
      let joint :=
        if !literal ∧ leading = ['\n'] ∧ !blank ∧ !startsBlank then
          (if breaks = [] then [' '] else [])
        else leading
      let (text, c) := c.takeWhile (!isBreak ·)
      let (leading, c) := match c.line? with
        | some (b, c) => ([b], c)
        | none => ([], c)
      let done := done ++ joint ++ breaks ++ text
      let (breaks, _, c) ← blockBreaks? (some indent) (c.rest.length + 1) [] 0 c
      blockLines? literal indent fuel done leading breaks startsBlank c

/-- A block scalar after its indicator, inside a block of indentation `parent`. -/
def block? (literal : Bool) (parent : Int) (c : Cursor) : Option (List Char × Cursor) := do
  let (chomping, width, c) ← blockHeader? c
  let c ← c.finishLine?
  let given := width.map fun n => (max parent 0).toNat + n
  let (breaks, widest, c) ← blockBreaks? given (c.rest.length + 1) [] 0 c
  let indent := given.getD (max (max widest (parent + 1).toNat) 1)
  let (text, leading, breaks, c) ←
    blockLines? literal indent (c.rest.length + 1) [] [] breaks false c
  return (text ++ (if chomping = .strip then [] else leading)
    ++ (if chomping = .keep then breaks else []), c)

end PaneLayout.Yaml
