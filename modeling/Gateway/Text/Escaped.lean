/-
  Gateway.Text.Escaped — texts between quotes, with escapes.

  A quote, a backslash and a few control characters have a short escape. Any other
  character without a form of its own is written as its number: controls, blanks but the
  space, signs that combine with others, and characters for private use.
-/

import Gateway.Text

namespace Gateway.Text.Escaped

/-- Closed ranges of characters without a form of their own, ascending and apart. -/
def formless : List (Nat × Nat) :=
  [(0x00, 0x1F), (0x7F, 0xA0), (0xAD, 0xAD), (0x300, 0x36F), (0x61C, 0x61C), (0x1680, 0x1680),
   (0x180B, 0x180F), (0x2000, 0x200F), (0x2028, 0x202F), (0x205F, 0x206F), (0x20D0, 0x20F0),
   (0x3000, 0x3000), (0xE000, 0xF8FF), (0xFE00, 0xFE0F), (0xFE20, 0xFE2F), (0xFEFF, 0xFEFF),
   (0xFFF0, 0xFFFB), (0xFFFE, 0xFFFF), (0xE0000, 0x10FFFF)]

def isFormless (c : Char) : Bool := formless.any fun r => r.1 ≤ c.toNat && c.toNat ≤ r.2

/-- The number of a character between braces. -/
def numbered (c : Char) : List Char :=
  ['\\', 'u', '\x7b'] ++ (Nat.toDigits 16 c.toNat) ++ ['\x7d']

def encodeChar (c : Char) : List Char :=
  if c = '"' ∨ c = '\\' then ['\\', c]
  else if c = '\n' then ['\\', 'n']
  else if c = '\r' then ['\\', 'r']
  else if c = '\t' then ['\\', 't']
  else if c = '\x00' then ['\\', '0']
  else if isFormless c then numbered c
  else [c]

/-- The text between quotes. -/
def quote (s : String) : String := "\"" ++ String.ofList (s.toList.flatMap encodeChar) ++ "\""

end Gateway.Text.Escaped
