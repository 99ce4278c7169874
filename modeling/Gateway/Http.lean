/-
  Gateway.Http — requests, responses, and what failures look like from outside.

  A failure answers with a status, a code and a description. Only the message of invalid
  input is shown to the caller; what went wrong inside is logged.
-/

import Gateway.Account
import Gateway.Failure
import Gateway.Json.Quoted
import Gateway.Log

namespace Gateway.Http

structure Request where
  method : String
  uri : String
  /-- Names and values, in order. -/
  headers : List (String × String)
  deriving DecidableEq, Repr

structure Response where
  status : Nat
  body : String
  contentType : Option String
  retryAfter : Option Nat
  allow : Option String
  deriving DecidableEq, Repr

/-! ## Requests -/

/-- The value of the first header of that name, in any letter case. -/
def Request.header? (r : Request) (name : String) : Option String :=
  (r.headers.find? fun h => Text.sameLetters h.1 name).map Prod.snd

/-- Visible ASCII, spaces and tabs. -/
def isPrintable (s : String) : Bool := s.toList.all fun c => Text.isVisible c || c = ' ' || c = '\t'

/-- The path of a request target: the part before the query, without scheme and host. -/
def pathOf (uri : String) : String :=
  let target := uri.toList.takeWhile fun c => c ≠ '?' && c ≠ '#'
  match target with
  | '/' :: _ => String.ofList target
  | _ =>
    match Text.cutAt ':' target with
    | some (_, '/' :: '/' :: rest) =>
      let path := rest.dropWhile (· ≠ '/')
      if path.isEmpty then "/" else String.ofList path
    | _ => if target = ['*'] then "*" else ""

/-! ## Responses -/

def Response.empty (status : Nat) : Response := ⟨status, "", none, none, none⟩

def Response.json (status : Nat) (body : String) : Response :=
  ⟨status, body, some "application/json", none, none⟩

def problem (status : Nat) (code description : String) : Response :=
  .json status (Json.writeObject [("code", Json.quote code), ("description", Json.quote description)])

def ofFailure (f : Failure) : Response :=
  match f.kind with
  | .validation => problem 400 "P0102" f.message
  | .unauthorized => problem 401 "P0110" "Credentials are required to access this resource"
  | .rateLimited => problem 429 "P0900" "Too many requests"
  | .unavailable => problem 503 "P0920" "Authentication service is temporarily unavailable"
  | .internal => problem 500 "P0999" "Unexpected internal error"

/-- What is logged when a request fails. -/
def failureEvents (f : Failure) : List Log.Event :=
  match f.kind with
  | .unavailable =>
    [⟨.warn, "request failed on an unavailable dependency", [("error", .plain f.message)]⟩]
  | .internal => [⟨.error, "request failed with an internal error", [("error", .plain f.message)]⟩]
  | _ => []

/-- The budget of the window is spent; come back in so many seconds, at least one. -/
def throttled (seconds : Nat) : Response :=
  { ofFailure ⟨.rateLimited, "window budget exhausted"⟩ with retryAfter := some (max 1 seconds) }

/-- What a resource answers: whom it was asked for. -/
def resource (a : Authorization) : Response :=
  .json 200 (Json.writeObject
    ([("account_id", Json.quote a.account.text), ("token_type", Json.quote a.tokenType.name)] ++
      (a.service.map fun s => ("service_name", Json.quote s)).toList))

end Gateway.Http
