/-
  Gateway.Url.Domain — domain names in ASCII.

  A domain is folded to lower case, split into labels, and each label beyond ASCII is
  written in its ASCII form. Characters that mean something in a URL, controls, spaces and
  percent signs have no place in it. Letters are folded for the Latin, Greek, Cyrillic and
  Armenian alphabets and for full-width forms.
-/

import Gateway.Text
import Gateway.Url.Punycode

namespace Gateway.Url.Domain

/-- Code points that are dropped. -/
def ignored (n : Nat) : Bool :=
  n = 0xAD || n = 0x34F || n = 0x200B || n = 0x2060 || n = 0x2064 || n = 0xFEFF ||
    (0xFE00 ≤ n && n ≤ 0xFE0F)

/-- Ranges of code points that no domain has. -/
def refused : List (Nat × Nat) :=
  [(0x80, 0x9F), (0x200E, 0x200F), (0x2028, 0x202E), (0x2061, 0x2063), (0x2066, 0x206F),
   (0xE000, 0xF8FF), (0xFDD0, 0xFDEF), (0xFFF9, 0xFFFF), (0xE0000, 0x10FFFF)]

/-- The code point of the lower-case letter. -/
def fold (n : Nat) : Nat :=
  let pairs (odd : Bool) := if n % 2 = (if odd then 1 else 0) then n + 1 else n
  if 0x41 ≤ n ∧ n ≤ 0x5A then n + 32
  else if n < 0xA0 then n
  else if n = 0xA0 ∨ (0x2000 ≤ n ∧ n ≤ 0x200A) ∨ n = 0x202F ∨ n = 0x205F ∨ n = 0x3000 then 0x20
  else if n = 0xAA then 0x61
  else if n = 0xB2 ∨ n = 0xB3 then n - 0x80
  else if n = 0xB5 then 0x3BC
  else if n = 0xB9 then 0x31
  else if n = 0xBA then 0x6F
  else if 0xC0 ≤ n ∧ n ≤ 0xDE ∧ n ≠ 0xD7 then n + 32
  else if n = 0x178 then 0xFF
  else if n = 0x17F then 0x73
  else if (0x100 ≤ n ∧ n ≤ 0x12F) ∨ (0x132 ≤ n ∧ n ≤ 0x137) ∨ (0x14A ≤ n ∧ n ≤ 0x177) then pairs false
  else if (0x139 ≤ n ∧ n ≤ 0x148) ∨ (0x179 ≤ n ∧ n ≤ 0x17E) then pairs true
  else if n = 0x386 then 0x3AC
  else if 0x388 ≤ n ∧ n ≤ 0x38A then n + 37
  else if n = 0x38C then 0x3CC
  else if n = 0x38E ∨ n = 0x38F then n + 63
  else if 0x391 ≤ n ∧ n ≤ 0x3AB then n + 32
  else if 0x400 ≤ n ∧ n ≤ 0x40F then n + 80
  else if 0x410 ≤ n ∧ n ≤ 0x42F then n + 32
  else if (0x460 ≤ n ∧ n ≤ 0x481) ∨ (0x48A ≤ n ∧ n ≤ 0x4BF) ∨ (0x4D0 ≤ n ∧ n ≤ 0x52F) then pairs false
  else if 0x531 ≤ n ∧ n ≤ 0x556 then n + 48
  else if n = 0x1E9E then 0xDF
  else if (0x1E00 ≤ n ∧ n ≤ 0x1E95) ∨ (0x1EA0 ≤ n ∧ n ≤ 0x1EFF) then pairs false
  else if n = 0x3002 ∨ n = 0xFF61 then 0x2E
  else if 0xFF21 ≤ n ∧ n ≤ 0xFF3A then n - 0xFEC0
  else if 0xFF01 ≤ n ∧ n ≤ 0xFF5E then n - 0xFEE0
  else n

/-- What is left of a character after folding; none if it is refused. -/
def map (c : Char) : Option (List Char) :=
  let n := c.toNat
  if ignored n then some []
  else if refused.any fun r => r.1 ≤ n && n ≤ r.2 then none
  else some [Char.ofNat (fold n)]

def isAscii (c : Char) : Bool := c.toNat < 0x80

/-- Marks that combine with the character before them. -/
def isMark (c : Char) : Bool := 0x300 ≤ c.toNat && c.toNat ≤ 0x36F

/-- A label may stand as it is: it neither folds to another one nor starts with a mark. -/
def wellFormed (l : List Char) : Bool :=
  (l.all fun c => map c = some [c]) && !(l.head?.any isMark)

def label (l : List Char) : Option (List Char) :=
  match l with
  | 'x' :: 'n' :: '-' :: '-' :: rest => do
    guard (rest.all isAscii)
    let decoded ← Punycode.decode rest
    guard (!decoded.all isAscii && wellFormed decoded)
    return l
  | _ =>
    if l.all isAscii then some l
    else if wellFormed l then some ('x' :: 'n' :: '-' :: '-' :: Punycode.encode l)
    else none

/-- Characters that no domain has. -/
def forbidden (c : Char) : Bool :=
  c.toNat ≤ 0x20 || c.toNat = 0x7F ||
    ['%', '#', '/', ':', '<', '>', '?', '@', '[', '\\', ']', '^', '|'].contains c

/-- The domain in ASCII. -/
def toAscii (l : List Char) : Option (List Char) := do
  let folded := (← l.mapM map).flatten
  let labels ← (Text.splitAt '.' folded).mapM label
  let text := ['.'].intercalate labels
  guard (!text.any forbidden)
  return text

end Gateway.Url.Domain
