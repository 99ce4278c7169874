/-
  Gateway.Authority — what the authentication service says of a credential.

  The service answers a request that bears the token. Three statuses mean that the token
  is not recognised, whatever the body; a success must bring an authorization in its
  body; anything else is a failure of the service.
-/

import Gateway.Account
import Gateway.Credential
import Gateway.Json.Value
import Gateway.Status
import Gateway.Url.Reference
import Gateway.Word

namespace Gateway

inductive Lookup where
  | valid (a : Authorization)
  | invalid
  deriving DecidableEq, Repr

namespace Authority

/-- What comes back of a request. The body is none if it breaks off. -/
inductive Reply where
  | lost (why : String)
  | answered (status : Nat) (body : Option (List UInt8))
  deriving DecidableEq, Repr

inductive Verdict where
  | accepted
  | refused
  | failed
  deriving DecidableEq, Repr

def verdict (status : Nat) : Verdict :=
  if Status.isSuccess status then .accepted
  else if status = 401 ∨ status = 403 ∨ status = 404 then .refused
  else .failed

/-- What is received when the service sends this status and body and then closes, the
body being shorter than announced or not. Informational statuses but one are no answer,
and some statuses have no body. -/
def Reply.received (status : Nat) (body : List UInt8) (short : Bool) : Reply :=
  if status < 200 ∧ status ≠ 101 then .lost "closed before an answer"
  else if status = 204 ∨ status = 304 then .answered status (some [])
  else .answered status (if short then none else some body)

/-! ## The request -/

/-- The service below its base. -/
def servicePath : String := "v1/api/auth"

/-- The base with a slash at the end of its path. -/
def closed (base : Url) : Url :=
  let path := base.path.text
  if path.toList.getLast? = some '/' then base else base.withPath (path ++ "/")

/-- Where the service is asked: below the path of its base. -/
def endpoint (base : Url) : Except Failure Url :=
  let base := closed base
  (base.join servicePath).mapError fun e =>
    ⟨.validation, "invalid auth service url '" ++ base.text ++ "': " ++ e.message⟩

def requestLine (endpoint : Url) : String := "GET " ++ endpoint.path.text ++ " HTTP/1.1"

/-- The header value that bears the token. -/
def bearing (c : Credential) : String := "Bearer " ++ c.token

/-! ## The body -/

/-- An account, a payment type and a service name, not looked into yet. -/
structure Claim where
  account : String
  tokenType : String
  service : Option String
  deriving DecidableEq, Repr

/-- Accounts are texts, or numbers that fit in a word. -/
def accountText? : Json → Option String
  | .string s => s
  | .natural n => if n ≤ Word.top then some (toString n) else none
  | _ => none

def Claim.ofParts? (account tokenType service : Json) : Option Claim := do
  return ⟨← accountText? account, ← tokenType.text?, ← service.optionalText?⟩

/-- The claim of a body: an object with the fields in any order and among others, none of
the three twice; or an array. The service name may be missing. -/
def Claim.ofJson? : Json → Option Claim
  | .object fields => do
    guard (Json.namesSound fields)
    let service ← Json.field? "service_name" fields
    ofParts? (← ← Json.field? "account_id" fields) (← ← Json.field? "token_type" fields)
      (service.getD .null)
  | .array [account, tokenType] => ofParts? account tokenType .null
  | .array [account, tokenType, service] => ofParts? account tokenType service
  | _ => none

def unavailable (message : String) : Failure := ⟨.unavailable, message⟩

def Claim.authorization (c : Claim) : Except Failure Authorization := do
  let account ← (AccountId.parse c.account).mapError fun e =>
    unavailable ("auth service returned an unusable account id: " ++ e.text)
  let tokenType ← (TokenType.parse c.tokenType).mapError fun e =>
    unavailable ("auth service returned an unusable token type: " ++ e.text)
  return ⟨account, tokenType, c.service.filter fun s => !Text.allBlank s⟩

def decode (body : List UInt8) : Except Failure Authorization :=
  match (Json.ofBytes body).bind Claim.ofJson? with
  | some claim => claim.authorization
  | none => .error (unavailable "failed to decode auth service response: not an authorization")

/-! ## The answer -/

def lookup : Reply → Except Failure Lookup
  | .lost why => .error (unavailable ("auth service transport error: " ++ why))
  | .answered status body =>
    match verdict status with
    | .refused => .ok .invalid
    | .failed => .error (unavailable ("auth service returned status " ++ Status.text status))
    | .accepted =>
      match body with
      | none => .error (unavailable "failed to read auth service response: the body breaks off")
      | some bytes => (decode bytes).map .valid

end Authority

end Gateway
