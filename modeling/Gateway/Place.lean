/-
  Gateway.Place — the paths that are served, and the class of each request.

  A path names a place, and a place is read, written or both. Every place but the health
  report is behind the gate. The class of a request depends on whether it reads and on
  the segments of its path that are not empty.
-/

import Gateway.Operation

namespace Gateway

/-- What a path names. -/
inductive Place where
  | payments
  | payment (id : String)
  /-- Anything below a payment. -/
  | paymentPart (id part : String)
  | refunds
  | agreements
  | agreement (id : String)
  | agreementCancel (id : String)
  | health
  deriving DecidableEq, Repr

namespace Place

/-- The texts between the slashes of a path. -/
def segments (path : String) : List String := (Text.splitAt '/' path.toList).map String.ofList

/-- An identifier may be empty only where something follows it. -/
def ofPath? (path : String) : Option Place :=
  match segments path with
  | ["", "healthcheck"] => some .health
  | ["", "v1", "payments"] => some .payments
  | ["", "v1", "payments", id] => if id.isEmpty then none else some (.payment id)
  | "" :: "v1" :: "payments" :: id :: part =>
    let part := "/".intercalate part
    if part.isEmpty then none else some (.paymentPart id part)
  | ["", "v1", "refunds"] => some .refunds
  | ["", "v1", "agreements"] => some .agreements
  | ["", "v1", "agreements", id] => if id.isEmpty then none else some (.agreement id)
  | ["", "v1", "agreements", id, "cancel"] => some (.agreementCancel id)
  | _ => none

def isRead : Place → Bool
  | .agreementCancel _ => false
  | _ => true

def isWritten : Place → Bool
  | .payments => true
  | .paymentPart _ _ => true
  | .agreements => true
  | .agreementCancel _ => true
  | _ => false

def controlled : Place → Bool
  | .health => false
  | _ => true

def methods (p : Place) : List String :=
  (if p.isRead then ["GET", "HEAD"] else []) ++ (if p.isWritten then ["POST"] else [])

def serves (p : Place) (method : String) : Bool := p.methods.contains method

/-- The methods as they are named to a caller who used another one. -/
def allow (p : Place) : String := ",".intercalate p.methods

end Place

/-! ## Classes -/

/-- The methods that change nothing. -/
def reading (method : String) : Bool := ["GET", "HEAD", "OPTIONS"].contains method

/-- The class whose budget a request spends. -/
def Operation.ofRequest (method path : String) : Operation :=
  let segments := (Place.segments path).filter fun s => !s.isEmpty
  if reading method then
    match segments with
    | ["v1", "payments"] => .search
    | ["v1", "refunds"] => .search
    | ["v1", "agreements"] => .search
    | _ => .read
  else
    match segments with
    | ["v1", "payments", _, "cancel"] => .cancel
    | ["v1", "agreements", _, "cancel"] => .cancel
    | ["v1", "payments", _, "capture"] => .capture
    | ["v1", "payments", _, "refunds"] => .refund
    | _ => .create

end Gateway
