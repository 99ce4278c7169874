/-
  Gateway.Account — accounts, the payment types of their tokens, and authorizations.
-/

import Gateway.Failure
import Gateway.Text

namespace Gateway

/-! ## Texts that are not blank -/

/-- The text itself, if it holds a character that is not blank. -/
def nonBlank (s : String) : Except Failure String :=
  if Text.allBlank s then .error ⟨.validation, "value must not be empty or whitespace"⟩ else .ok s

structure AccountId where
  text : String
  deriving DecidableEq, Repr

def AccountId.parse (s : String) : Except Failure AccountId := (nonBlank s).map AccountId.mk

/-! ## Payment types -/

/-- What a token may pay with. -/
inductive TokenType where
  | card
  | directDebit
  deriving DecidableEq, Repr

namespace TokenType

def name : TokenType → String
  | .card => "card"
  | .directDebit => "direct_debit"

def all : List TokenType := [.card, .directDebit]

/-- Names are read in any letter case. -/
def parse (s : String) : Except Failure TokenType :=
  match all.find? fun t => Text.sameLetters t.name s with
  | some t => .ok t
  | none => .error ⟨.validation, "unknown token payment type '" ++ s ++ "'"⟩

end TokenType

/-! ## Authorizations -/

/-- What a recognised credential stands for. -/
structure Authorization where
  account : AccountId
  tokenType : TokenType
  service : Option String
  deriving DecidableEq, Repr

end Gateway
