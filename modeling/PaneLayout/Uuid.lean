set_option autoImplicit false

/-!
# Identifiers of compilations

128-bit identifiers in their usual text form.

Reading takes 32 hexadecimal digits, bare, in five groups, in braces, or after `urn:uuid:`; letters
may be of either case. Writing uses five groups of lower-case digits.
-/

namespace PaneLayout

structure Uuid where
  value : BitVec 128
deriving DecidableEq, Inhabited

namespace Uuid

def hexDigit? (c : Char) : Option Nat :=
  if '0' ≤ c ∧ c ≤ '9' then some (c.toNat - '0'.toNat)
  else if 'a' ≤ c ∧ c ≤ 'f' then some (c.toNat - 'a'.toNat + 10)
  else if 'A' ≤ c ∧ c ≤ 'F' then some (c.toNat - 'A'.toNat + 10)
  else none

def ofDigits? (cs : List Char) : Option Uuid :=
  if cs.length = 32 then
    (cs.mapM hexDigit?).map fun ds => ⟨BitVec.ofNat 128 (ds.foldl (fun n d => 16 * n + d) 0)⟩
  else none

/-- The digits of five groups of 8, 4, 4, 4 and 12. -/
def ungroup? (cs : List Char) : Option (List Char) :=
  if cs.length = 36 ∧ [8, 13, 18, 23].all (fun i => cs[i]? == some '-') then
    some (cs.take 8 ++ (cs.drop 9).take 4 ++ (cs.drop 14).take 4 ++ (cs.drop 19).take 4
      ++ cs.drop 24)
  else none

def ofChars? (cs : List Char) : Option Uuid := ofDigits? ((ungroup? cs).getD cs)

def urn : List Char := "urn:uuid:".toList

def read? (s : String) : Option Uuid :=
  let cs := s.toList
  if cs.head? == some '\x7b' && cs.getLast? == some '\x7d' && cs.length == 38 then
    (ungroup? (cs.drop 1).dropLast).bind ofDigits?
  else if (cs.take urn.length).map Char.toLower = urn then
    (ungroup? (cs.drop urn.length)).bind ofDigits?
  else ofChars? cs

def hexChar (n : Nat) : Char := "0123456789abcdef".toList.getD n '0'

def text (u : Uuid) : String :=
  let cs := (List.range 32).map fun i => hexChar (u.value.toNat / Nat.pow 16 (31 - i) % 16)
  String.ofList (cs.take 8 ++ '-' :: (cs.drop 8).take 4 ++ '-' :: (cs.drop 12).take 4
    ++ '-' :: (cs.drop 16).take 4 ++ '-' :: cs.drop 20)

/-- Ordered by time: 48 bits of milliseconds, then the version, the variant and `random` bits. -/
def ofTime (milliseconds random : Nat) : Uuid :=
  let low (n bits : Nat) : Nat := n % Nat.pow 2 bits
  ⟨BitVec.ofNat 128 ((low milliseconds 48 <<< 80) + (7 <<< 76) + (low (random >>> 62) 12 <<< 64)
    + (1 <<< 63) + low random 62)⟩

end Uuid
end PaneLayout
