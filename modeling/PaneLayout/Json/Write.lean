import PaneLayout.Datum
import PaneLayout.Decimal.Shortest

set_option autoImplicit false

/-!
# Writing JSON

A value is written in one line, or set out over several.
-/

namespace PaneLayout.Json

/-- Between `0.00001` and sixteen digits before the point a double is written positionally, and a
whole one keeps a zero after the point. -/
def number : Decimal.Style where
  positional k := -5 < k && k ≤ 16
  pointZero := true
  up d := d % 2 == 1

def hexChar (n : Nat) : Char := "0123456789abcdef".toList.getD n '0'

def escapeChar (c : Char) : List Char :=
  if c = '"' then ['\\', '"']
  else if c = '\\' then ['\\', '\\']
  else if c = '\x08' then ['\\', 'b']
  else if c = '\x0c' then ['\\', 'f']
  else if c = '\n' then ['\\', 'n']
  else if c = '\r' then ['\\', 'r']
  else if c = '\t' then ['\\', 't']
  else if c.toNat < 0x20 then
    ['\\', 'u', '0', '0', hexChar (c.toNat / 16), hexChar (c.toNat % 16)]
  else [c]

def quote (s : String) : String :=
  String.ofList ('"' :: s.toList.flatMap escapeChar ++ ['"'])

def scalar : Datum → String
  | .bool true => "true"
  | .bool false => "false"
  | .unsigned n => Nat.repr n
  | .signed i => (if i < 0 then "-" else "") ++ Nat.repr i.natAbs
  | .real x => number.text x
  | .text s => quote s
  | _ => "null"

mutual

def compact : Datum → String
  | .list items => "[" ++ compactItems items ++ "]"
  | .map entries => "\x7b" ++ compactEntries entries ++ "\x7d"
  | d => scalar d

def compactItems : List Datum → String
  | [] => ""
  | [d] => compact d
  | d :: ds => compact d ++ "," ++ compactItems ds

def compactEntries : List (Datum × Datum) → String
  | [] => ""
  | [(k, v)] => scalar k ++ ":" ++ compact v
  | (k, v) :: es => scalar k ++ ":" ++ compact v ++ "," ++ compactEntries es

end

def indent (depth : Nat) : String := "\n" ++ String.ofList (List.replicate (2 * depth) ' ')

mutual

/-- One entry a line, two spaces a level; what is empty stays on its line. -/
def pretty (depth : Nat) : Datum → String
  | .list [] => "[]"
  | .list items => "[" ++ prettyItems (depth + 1) items ++ indent depth ++ "]"
  | .map [] => "\x7b\x7d"
  | .map entries => "\x7b" ++ prettyEntries (depth + 1) entries ++ indent depth ++ "\x7d"
  | d => scalar d

def prettyItems (depth : Nat) : List Datum → String
  | [] => ""
  | [d] => indent depth ++ pretty depth d
  | d :: ds => indent depth ++ pretty depth d ++ "," ++ prettyItems depth ds

def prettyEntries (depth : Nat) : List (Datum × Datum) → String
  | [] => ""
  | [(k, v)] => indent depth ++ scalar k ++ ": " ++ pretty depth v
  | (k, v) :: es =>
    indent depth ++ scalar k ++ ": " ++ pretty depth v ++ "," ++ prettyEntries depth es

end

end PaneLayout.Json
