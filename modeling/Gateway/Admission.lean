/-
  Gateway.Admission — what becomes of a request that names a credential.

  An authorized request is admitted or told to come back later; the wait is counted from
  the instant at which it is told. Where
  the wait overflows it is neither.
-/

import Gateway.Authority
import Gateway.Decision
import Gateway.Log

namespace Gateway

inductive Admission where
  | admitted (a : Authorization) (d : Decision)
  | throttled (a : Authorization) (d : Decision) (retryAfter : Nat)
  deriving DecidableEq, Repr

namespace Admission

def ofDecision (a : Authorization) (d : Decision) (now : Instant) : Except Word.Fault Admission :=
  (d.retryAfter now).map fun
    | none => .admitted a d
    | some s => .throttled a d s

def events : Admission → List Log.Event
  | .admitted a d =>
    [⟨.debug, "admission granted",
      [("account_id", .plain a.account.text), ("operation_class", .plain d.key.operation.name)]⟩]
  | .throttled _ _ _ => []

end Admission

/-- The credential in a header that may be missing. -/
def Credential.ofHeader? : Option String → Except Credential.Fault Credential
  | none => .error .missing
  | some value => ofHeader value

end Gateway
