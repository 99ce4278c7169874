/-
  Gateway.Json.Quoted — strings between quotes.

  Written, a string escapes the quote, the backslash and the control characters and
  leaves every other character as it is. Read, it may hold any escape; two escapes may
  form one character as a pair of surrogates. A string with half a pair, or with a byte
  that is no character, has no text, but it is still a string.
-/

import Gateway.Json.Symbols
import Gateway.Text

namespace Gateway.Json

/-! ## Writing -/

/-- The letter that stands for the character after a backslash. -/
def shortEscape? : Char → Option Char
  | '"' => some '"'
  | '\\' => some '\\'
  | '\x08' => some 'b'
  | '\x0c' => some 'f'
  | '\n' => some 'n'
  | '\r' => some 'r'
  | '\t' => some 't'
  | _ => none

def escape (c : Char) : List Char :=
  match shortEscape? c with
  | some e => ['\\', e]
  | none =>
    if c.toNat < 0x20 then
      ['\\', 'u', '0', '0', Text.hexDigit (c.toNat / 16), Text.hexDigit (c.toNat % 16)]
    else [c]

def quote (s : String) : String := String.ofList ('"' :: s.toList.flatMap escape ++ ['"'])

/-- An object of fields whose values are written already. -/
def writeObject (fields : List (String × String)) : String :=
  "\x7b" ++ ",".intercalate (fields.map fun f => quote f.1 ++ ":" ++ f.2) ++ "\x7d"

/-! ## Reading -/

/-- A string as far as it is read. -/
structure Content where
  /-- The last character first. -/
  chars : List Char
  /-- The first half of a pair whose second half has to follow. -/
  half : Option Nat
  /-- All that came so far is text. -/
  sound : Bool
  deriving DecidableEq, Repr

namespace Content

def empty : Content := ⟨[], none, true⟩

/-- A half that is not followed by the other half is no text. -/
def settle (q : Content) : Content :=
  match q.half with
  | some _ => { q with half := none, sound := false }
  | none => q

def push (q : Content) (c : Char) : Content :=
  let q := q.settle
  { q with chars := c :: q.chars }

/-- A byte that is no character. -/
def spoil (q : Content) : Content := { q.settle with sound := false }

/-- The escape of a UTF-16 unit. -/
def pushUnit (q : Content) (u : Nat) : Content :=
  if 0xDC00 ≤ u ∧ u ≤ 0xDFFF then
    match q.half with
    | some h => { q with chars := Char.ofNat (0x10000 + (h - 0xD800) * 0x400 + (u - 0xDC00)) :: q.chars
                         half := none }
    | none => q.spoil
  else if 0xD800 ≤ u ∧ u ≤ 0xDBFF then { q.settle with half := some u }
  else q.push (Char.ofNat u)

def text? (q : Content) : Option String :=
  let q := q.settle
  if q.sound then some (String.ofList q.chars.reverse) else none

end Content

/-- The character that a letter after a backslash stands for. -/
def unescape? : Char → Option Char
  | '"' => some '"'
  | '\\' => some '\\'
  | '/' => some '/'
  | 'b' => some '\x08'
  | 'f' => some '\x0c'
  | 'n' => some '\n'
  | 'r' => some '\r'
  | 't' => some '\t'
  | _ => none

end Gateway.Json
