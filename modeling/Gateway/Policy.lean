/-
  Gateway.Policy — one rule for each class of operations.
-/

import Gateway.Failure
import Gateway.Operation
import Gateway.Time

namespace Gateway

/-- At most `limit` requests in each window. -/
structure Rule where
  operation : Operation
  limit : Nat
  window : Span
  deriving DecidableEq, Repr

namespace Rule

inductive Fault where
  | noRequests (o : Operation)
  | noWindow (o : Operation)
  deriving DecidableEq, Repr

def Fault.failure : Fault → Failure
  | .noRequests o =>
    ⟨.validation, "rate limit for '" ++ o.name ++ "' must allow at least one request"⟩
  | .noWindow o =>
    ⟨.validation, "rate limit window for '" ++ o.name ++ "' must be at least one millisecond"⟩

def make (o : Operation) (limit : Nat) (window : Span) : Except Fault Rule :=
  if limit = 0 then .error (.noRequests o)
  else if window.millis = 0 then .error (.noWindow o)
  else .ok ⟨o, limit, window⟩

/-- Requests a second when nothing else is set. -/
def standard (o : Operation) : Rule :=
  ⟨o, match o with | .create => 20 | .read => 60 | _ => 10, Span.ofSeconds 1⟩

end Rule

structure Policy where
  rule : Operation → Rule

namespace Policy

def standard : Policy := ⟨Rule.standard⟩

/-- Puts the rule in force for its class. -/
def set (p : Policy) (r : Rule) : Policy := ⟨fun o => if o = r.operation then r else p.rule o⟩

def rules (p : Policy) : List Rule := Operation.all.map p.rule

def agrees (p q : Policy) : Bool := p.rules = q.rules

end Policy

/-! ## The shared counters -/

/-- How long an instance waits for the shared store, and how long it keeps away from it
after a failure. -/
structure StoreSettings where
  timeout : Span
  cooldown : Span
  deriving DecidableEq, Repr

def StoreSettings.standard : StoreSettings := ⟨Span.ofMillis 250, Span.ofSeconds 5⟩

end Gateway
