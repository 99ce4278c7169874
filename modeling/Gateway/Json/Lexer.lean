/-
  Gateway.Json.Lexer — from symbols to tokens.

  The lexer reads one symbol at a time. What it is in the middle of is its mode; a number
  or a word that ends at a symbol gives its token there, and the symbol is then read
  between tokens.
-/

import Gateway.Json.Quoted

namespace Gateway.Json

inductive Token where
  | openArray
  | closeArray
  | openObject
  | closeObject
  | comma
  | colon
  | null
  | bool (b : Bool)
  /-- Digits without sign, fraction or exponent. -/
  | natural (n : Nat)
  /-- Any other number. -/
  | number
  /-- A string; none if it has no text. -/
  | string (s : Option String)
  deriving DecidableEq, Repr

/-- Where in a number the lexer is, and what may follow. -/
inductive NumberPart where
  | minus
  | zero
  | digits (value : Nat)
  | negativeZero
  | negativeDigits
  | point
  | fraction
  | mark
  | markSign
  | exponent
  deriving DecidableEq, Repr

/-- The part after one more character; none if the character does not continue the number. -/
def NumberPart.next (p : NumberPart) (c : Char) : Option NumberPart :=
  let digit := '0' ≤ c ∧ c ≤ '9'
  let fractionOrMark : Option NumberPart :=
    if c = '.' then some .point else if c = 'e' ∨ c = 'E' then some .mark else none
  match p with
  | .minus => if c = '0' then some .negativeZero else if digit then some .negativeDigits else none
  | .zero => fractionOrMark
  | .digits n => if digit then some (.digits (10 * n + (c.toNat - 0x30))) else fractionOrMark
  | .negativeZero => fractionOrMark
  | .negativeDigits => if digit then some .negativeDigits else fractionOrMark
  | .point => if digit then some .fraction else none
  | .fraction =>
    if digit then some .fraction else if c = 'e' ∨ c = 'E' then some .mark else none
  | .mark => if c = '+' ∨ c = '-' then some .markSign else if digit then some .exponent else none
  | .markSign => if digit then some .exponent else none
  | .exponent => if digit then some .exponent else none

/-- The number's token, if it may end here. -/
def NumberPart.token? : NumberPart → Option Token
  | .zero => some (.natural 0)
  | .digits n => some (.natural n)
  | .negativeZero => some .number
  | .negativeDigits => some .number
  | .fraction => some .number
  | .exponent => some .number
  | .minus => none
  | .point => none
  | .mark => none
  | .markSign => none

inductive Mode where
  | between
  | string (q : Content)
  /-- After a backslash. -/
  | escape (q : Content)
  /-- In the four digits of an escaped unit. -/
  | unit (q : Content) (left value : Nat)
  | number (p : NumberPart)
  /-- In a word, with the letters that have to follow. -/
  | word (rest : List Char) (t : Token)
  deriving DecidableEq, Repr

structure Lexer where
  mode : Mode
  /-- The last token first. -/
  tokens : List Token
  deriving DecidableEq, Repr

namespace Lexer

def start : Lexer := ⟨.between, []⟩

/-- Reads a character between tokens. -/
def begin (tokens : List Token) (c : Char) : Option Lexer :=
  match c with
  | ' ' => some ⟨.between, tokens⟩
  | '\n' => some ⟨.between, tokens⟩
  | '\t' => some ⟨.between, tokens⟩
  | '\r' => some ⟨.between, tokens⟩
  | '[' => some ⟨.between, .openArray :: tokens⟩
  | ']' => some ⟨.between, .closeArray :: tokens⟩
  | '\x7b' => some ⟨.between, .openObject :: tokens⟩
  | '\x7d' => some ⟨.between, .closeObject :: tokens⟩
  | ',' => some ⟨.between, .comma :: tokens⟩
  | ':' => some ⟨.between, .colon :: tokens⟩
  | '"' => some ⟨.string .empty, tokens⟩
  | 'n' => some ⟨.word ['u', 'l', 'l'] .null, tokens⟩
  | 't' => some ⟨.word ['r', 'u', 'e'] (.bool true), tokens⟩
  | 'f' => some ⟨.word ['a', 'l', 's', 'e'] (.bool false), tokens⟩
  | '-' => some ⟨.number .minus, tokens⟩
  | '0' => some ⟨.number .zero, tokens⟩
  | _ => if '1' ≤ c ∧ c ≤ '9' then some ⟨.number (.digits (c.toNat - 0x30)), tokens⟩ else none

/-- Reads a symbol inside a string. -/
def inside (tokens : List Token) (q : Content) : Symbol → Option Lexer
  | none => some ⟨.string q.spoil, tokens⟩
  | some '"' => some ⟨.between, .string q.text? :: tokens⟩
  | some '\\' => some ⟨.escape q, tokens⟩
  | some c => if c.toNat < 0x20 then none else some ⟨.string (q.push c), tokens⟩

def step (l : Lexer) (x : Symbol) : Option Lexer :=
  match l.mode, x with
  | .string q, x => inside l.tokens q x
  | .between, some c => begin l.tokens c
  | .escape q, some c =>
    if c = 'u' then some { l with mode := .unit q 3 0 }
    else (unescape? c).map fun e => { l with mode := .string (q.push e) }
  | .unit q left value, some c =>
    (Text.hexValue? c).map fun d =>
      match left with
      | 0 => { l with mode := .string (q.pushUnit (16 * value + d)) }
      | left + 1 => { l with mode := .unit q left (16 * value + d) }
  | .number p, some c =>
    match p.next c with
    | some p => some { l with mode := .number p }
    | none => p.token?.bind fun t => begin (t :: l.tokens) c
  | .word [] t, some c => begin (t :: l.tokens) c
  | .word (e :: rest) t, some c => if c = e then some { l with mode := .word rest t } else none
  | _, none => none

/-- All tokens, first to last. -/
def finish (l : Lexer) : Option (List Token) :=
  match l.mode with
  | .between => some l.tokens.reverse
  | .number p => p.token?.map fun t => (t :: l.tokens).reverse
  | .word [] t => some (t :: l.tokens).reverse
  | _ => none

end Lexer

def tokens (l : List Symbol) : Option (List Token) := (l.foldlM Lexer.step Lexer.start).bind Lexer.finish

end Gateway.Json
