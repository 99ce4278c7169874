/-
  Gateway.Filter — how HTTP requests meet the gate.

  A request for a controlled place passes the gate whatever its method, and only then is
  its method looked at. A request for the health report or for no place does not touch
  the gate. An answer to a method that the place does not serve names those it serves,
  and an answer to HEAD has no body.
-/

import Gateway.Admission
import Gateway.Http
import Gateway.Place

namespace Gateway

namespace Http.Request

def place? (r : Request) : Option Place := Place.ofPath? (pathOf r.uri)

def operation (r : Request) : Operation := Operation.ofRequest r.method (pathOf r.uri)

/-- The credential in the first authorization header. -/
def credential (r : Request) : Except Credential.Fault Credential :=
  match r.header? "authorization" with
  | some value => if isPrintable value then Credential.ofHeader value else .error .unreadable
  | none => .error .missing

end Http.Request

namespace Filter

/-! ## Answers -/

/-- The answer as this place gives it to this method. -/
def dress (p : Place) (method : String) (r : Http.Response) : Http.Response :=
  let r := if p.serves method then r else { r with allow := some p.allow }
  if method = "HEAD" then { r with body := "" } else r

def refuseMethod : Http.Response := .empty 405

/-- What the place answers to a request that was let in. -/
def handle (p : Place) (method : String) (a : Authorization) : Http.Response :=
  if p.serves method then Http.resource a else refuseMethod

def throttledEvent (a : Authorization) (d : Decision) (seconds : Nat) : Log.Event :=
  ⟨.info, "request throttled",
   [("account_id", .plain a.account.text), ("operation_class", .plain d.key.operation.name),
    ("retry_after_seconds", .number seconds), ("source", .quoted d.source.name)]⟩

/-- The answer to a request that met the gate, and what is logged. -/
def respond (r : Http.Request) (x : Except Failure Admission) : Http.Response × List Log.Event :=
  match r.place?, x with
  | none, _ => (.empty 404, [])
  | some p, .ok (.admitted a _) => (dress p r.method (handle p r.method a), [])
  | some p, .ok (.throttled a d s) => (dress p r.method (Http.throttled s), [throttledEvent a d s])
  | some p, .error e => (dress p r.method (Http.ofFailure e), Http.failureEvents e)

/-! ## The health report -/

/-- What came of a ping to the shared store. -/
inductive Ping where
  | well
  | failed (f : Failure)
  | silent
  deriving DecidableEq, Repr

/-- What the report says of the shared store; none if there is none. -/
def storeReport (patience : Span) : Option Ping → String
  | none => Json.writeObject [("status", Json.quote "disabled")]
  | some .well => Json.writeObject [("status", Json.quote "ok")]
  | some (.failed f) => Json.writeObject [("status", Json.quote "error"), ("detail", Json.quote f.text)]
  | some .silent =>
    Json.writeObject [("status", Json.quote "error"),
      ("detail", Json.quote ("redis ping timed out after " ++ toString patience.millis ++ " ms"))]

def health (store mode : String) (cached : Nat) (method : String) : Http.Response :=
  dress .health method (.json 200 (Json.writeObject
    [("status", Json.quote "ok"), ("redis", store), ("rate_limiter", Json.quote mode),
     ("cached_credentials", toString cached)]))

/-! ## The way of a request -/

inductive Way where
  /-- Answered at once. -/
  | direct (r : Http.Response)
  | health
  | gate
  deriving DecidableEq, Repr

def way (r : Http.Request) : Way :=
  match r.place? with
  | none => .direct (.empty 404)
  | some p =>
    if p.controlled then .gate
    else if p.serves r.method then .health
    else .direct (dress p r.method refuseMethod)

end Filter

end Gateway
