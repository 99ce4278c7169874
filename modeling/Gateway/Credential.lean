/-
  Gateway.Credential — bearer tokens.

  A token is 1 to 512 bytes of visible ASCII. It comes in a header value: the scheme, a
  space and the token, with blanks around and between them. Logs show a fingerprint only.
-/

import Gateway.Digest
import Gateway.Failure

namespace Gateway

structure Credential where
  token : String
  deriving DecidableEq, Repr

namespace Credential

/-- Why a request carries no credential. -/
inductive Fault where
  | missing
  | unreadable
  | wrongScheme
  | empty
  | tooLong
  | illegal
  deriving DecidableEq, Repr

def maxLength : Nat := 512

def Fault.message : Fault → String
  | .missing => "missing bearer credential"
  | .unreadable => "authorization header is not ascii"
  | .wrongScheme => "authorization header must use the Bearer scheme"
  | .empty => "bearer token must not be empty"
  | .tooLong => "bearer token must not exceed " ++ toString maxLength ++ " characters"
  | .illegal => "bearer token contains invalid characters"

def Fault.failure (f : Fault) : Failure := ⟨.unauthorized, f.message⟩

def parse (token : String) : Except Fault Credential :=
  if token.isEmpty then .error .empty
  else if maxLength < token.utf8ByteSize then .error .tooLong
  else if token.toList.all Text.isVisible then .ok ⟨token⟩
  else .error .illegal

/-! ## The header -/

def scheme : String := "bearer"

/-- The credential in a header value. The scheme ends at the first space. -/
def ofHeader (value : String) : Except Fault Credential :=
  match Text.cutAt ' ' (Text.trimRight (Text.trimLeft value.toList)) with
  | none => .error .wrongScheme
  | some (word, rest) =>
    if Text.sameLetters (String.ofList word) scheme then parse (String.ofList (Text.trimLeft rest))
    else .error .wrongScheme

/-! ## The fingerprint -/

/-- The first six bytes of the token's digest. -/
def fingerprint (c : Credential) : String :=
  Digest.hex ((Digest.sha256 c.token.toUTF8.toList).take 6)

/-- What may be shown of a credential. -/
def redacted (c : Credential) : String := "Credential(" ++ c.fingerprint ++ ")"

end Credential

end Gateway
