/-
  Gateway.Address — IP addresses and socket addresses.

  An address of version 4 is four numbers below 256; one of version 6 is eight 16-bit
  groups. The longest run of two or more zero groups is written as a double colon.
-/

import Gateway.Numeral
import Gateway.Text

namespace Gateway

inductive IpAddress where
  | v4 (parts : List Nat)
  | v6 (groups : List Nat)
  deriving DecidableEq, Repr

namespace IpAddress

/-! ## Reading -/

/-- A decimal number of one to three digits, below 256 and without leading zeros. -/
def part? (l : List Char) : Option Nat := do
  guard (l.length = 1 || (2 ≤ l.length && l.length ≤ 3 && l.head? ≠ some '0'))
  (Numeral.digits 255 .tooLarge 0 l).toOption

def v4? (l : List Char) : Option (List Nat) := do
  let parts := Text.splitAt '.' l
  guard (parts.length = 4)
  parts.mapM part?

/-- One to four hexadecimal digits. -/
def group? (l : List Char) : Option Nat := do
  guard (1 ≤ l.length && l.length ≤ 4)
  return (← l.mapM Text.hexValue?).foldl (fun n d => 16 * n + d) 0

/-- Groups between colons; the last two may be written as an address of version 4. -/
def groups? (last : Bool) : List (List Char) → Option (List Nat)
  | [] => some []
  | [l] =>
    match group? l with
    | some g => some [g]
    | none => do
      guard last
      match ← v4? l with
      | [a, b, c, d] => return [256 * a + b, 256 * c + d]
      | _ => none
  | l :: r => do return (← group? l) :: (← groups? last r)

/-- The text before the first double colon and the text after it. -/
def cutGap : List Char → Option (List Char × List Char)
  | ':' :: ':' :: r => some ([], r)
  | c :: r => (cutGap r).map fun p => (c :: p.1, p.2)
  | [] => none

def side? (last : Bool) (l : List Char) : Option (List Nat) :=
  if l.isEmpty then some [] else groups? last (Text.splitAt ':' l)

def v6? (l : List Char) : Option (List Nat) :=
  match cutGap l with
  | none => do
    let groups ← side? true l
    guard (groups.length = 8)
    return groups
  | some (head, tail) => do
    let before ← side? false head
    let after ← side? true tail
    guard (before.length + after.length ≤ 7)
    return before ++ List.replicate (8 - before.length - after.length) 0 ++ after

def parse? (s : String) : Option IpAddress :=
  match v4? s.toList with
  | some parts => some (.v4 parts)
  | none => (v6? s.toList).map .v6

/-! ## Writing -/

def v4Text (parts : List Nat) : String := ".".intercalate (parts.map toString)

def hexDigits : Nat → Nat → List Char
  | 0, _ => []
  | fuel + 1, n => if n < 16 then [Text.hexDigit n] else hexDigits fuel (n / 16) ++ [Text.hexDigit (n % 16)]

def groupText (g : Nat) : String := String.ofList (hexDigits 4 g)

/-- Start and length of the first of the longest runs of zeros. -/
def longestRun : Nat → List Nat → Nat × Nat
  | _, [] => (0, 0)
  | place, g :: r =>
    let here := ((g :: r).takeWhile (· = 0)).length
    let later := longestRun (place + 1) r
    if here ≠ 0 ∧ later.2 ≤ here then (place, here) else later

def groupsText (groups : List Nat) : String := ":".intercalate (groups.map groupText)

/-- Groups with the longest run of zeros left out. -/
def compressed (groups : List Nat) : String :=
  let (start, length) := longestRun 0 groups
  if length < 2 then groupsText groups
  else groupsText (groups.take start) ++ "::" ++ groupsText (groups.drop (start + length))

/-- An address of version 6 that holds one of version 4 shows it as such. -/
def text : IpAddress → String
  | .v4 parts => v4Text parts
  | .v6 [0, 0, 0, 0, 0, 0xFFFF, a, b] => "::ffff:" ++ v4Text [a / 256, a % 256, b / 256, b % 256]
  | .v6 groups => compressed groups

/-- The address with a port. -/
def withPort (a : IpAddress) (port : Nat) : String :=
  match a with
  | .v4 _ => a.text ++ ":" ++ toString port
  | .v6 _ => "[" ++ a.text ++ "]:" ++ toString port

end IpAddress

end Gateway
