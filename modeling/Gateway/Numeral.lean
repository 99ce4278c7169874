/-
  Gateway.Numeral — reading decimal integers of bounded size.

  An unsigned numeral is one or more digits, after an optional plus sign; a signed one
  may have a minus sign. Leading zeros are accepted. Digits are read from the left, and
  the first fault met is the one reported.
-/

namespace Gateway

inductive Numeral.Fault where
  | empty
  | invalidDigit
  | tooLarge
  | tooSmall
  deriving DecidableEq, Repr

def Numeral.Fault.text : Fault → String
  | .empty => "cannot parse integer from empty string"
  | .invalidDigit => "invalid digit found in string"
  | .tooLarge => "number too large to fit in target type"
  | .tooSmall => "number too small to fit in target type"

namespace Numeral

def digit? (c : Char) : Option Nat := if '0' ≤ c ∧ c ≤ '9' then some (c.toNat - 0x30) else none

/-- Appends the digits to `n`; `beyond` is the fault once `limit` is passed. -/
def digits (limit : Nat) (beyond : Fault) : Nat → List Char → Except Fault Nat
  | n, [] => .ok n
  | n, c :: r =>
    match digit? c with
    | none => .error .invalidDigit
    | some d => if limit < 10 * n + d then .error beyond else digits limit beyond (10 * n + d) r

def unsignedChars (limit : Nat) : List Char → Except Fault Nat
  | [] => .error .empty
  | ['+'] => .error .invalidDigit
  | '+' :: r => digits limit .tooLarge 0 r
  | l => digits limit .tooLarge 0 l

/-- The value of an unsigned numeral of at most `limit`. -/
def unsigned (limit : Nat) (s : String) : Except Fault Nat := unsignedChars limit s.toList

/-- The value of a numeral between `-limit - 1` and `limit`. -/
def signed (limit : Nat) (s : String) : Except Fault Int :=
  match s.toList with
  | ['-'] => .error .invalidDigit
  | '-' :: r => (digits (limit + 1) .tooSmall 0 r).map fun n => -(n : Int)
  | l => (unsignedChars limit l).map Int.ofNat

end Numeral

end Gateway
