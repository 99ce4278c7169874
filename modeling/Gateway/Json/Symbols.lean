/-
  Gateway.Json.Symbols — the characters of a byte string.

  Bytes are read as UTF-8. A byte that does not belong to a well-formed sequence is a
  symbol of its own, without a character, and reading goes on with the next byte. So a
  malformed sequence never hides an ASCII character after it.
-/

namespace Gateway.Json

/-- A character, or a byte that is none. -/
abbrev Symbol := Option Char

namespace Symbol

def isContinuation (b : UInt8) : Bool := b.toNat / 64 = 2

/-- The character of these two, three or four bytes, unless a shorter form exists or it is
a surrogate. -/
def combine (least lead : Nat) (tail : List UInt8) : Option Char :=
  let value := tail.foldl (fun n b => 64 * n + b.toNat % 64) lead
  if tail.all isContinuation ∧ least ≤ value ∧ value.isValidChar then some (Char.ofNat value) else none

/-- The character at the start, and how many bytes it takes after the first. -/
def first? (b : UInt8) (rest : List UInt8) : Option (Char × Nat) :=
  let n := b.toNat
  if n < 0x80 then some (Char.ofNat n, 0)
  else
    let (least, lead, tail) :=
      if n / 32 = 6 then (0x80, n % 32, 1)
      else if n / 16 = 14 then (0x800, n % 16, 2)
      else if n / 8 = 30 then (0x10000, n % 8, 3)
      else (0, 0, 0)
    if tail = 0 ∨ rest.length < tail then none
    else (combine least lead (rest.take tail)).map fun c => (c, tail)

/-- Passes over `skip` bytes, which belong to the character before. -/
def decodeFrom : Nat → List UInt8 → List Symbol
  | _, [] => []
  | skip + 1, _ :: r => decodeFrom skip r
  | 0, b :: r =>
    match first? b r with
    | some (c, n) => some c :: decodeFrom n r
    | none => none :: decodeFrom 0 r

def ofBytes (l : List UInt8) : List Symbol := decodeFrom 0 l

def ofText (s : String) : List Symbol := s.toList.map some

end Symbol

end Gateway.Json
