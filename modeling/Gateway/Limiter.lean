/-
  Gateway.Limiter — which counter an attempt goes to, and what follows from its count.

  An attempt is counted in the shared store unless that is missing or to be kept away
  from. If the store fails or stays silent, the attempt is counted in the instance's own
  counters, and the caller does not learn of it. The failure is noted for the instant at
  which the attempt began.
-/

import Gateway.Decision
import Gateway.Health
import Gateway.Log
import Gateway.Policy

namespace Gateway

/-- A request on its way to a counter. -/
structure Attempt where
  key : WindowKey
  limit : Nat
  began : Instant
  deriving DecidableEq, Repr

structure Limiter where
  policy : Policy
  health : Health
  /-- There is a shared store. -/
  shared : Bool
  /-- How long the shared store may take. -/
  patience : Span

namespace Limiter

/-- What comes back from a store; silence is an answer that came too late. -/
inductive Reply where
  | counted (n : Nat)
  | failed (f : Failure)
  | silent
  deriving DecidableEq, Repr

def sharing (policy : Policy) (settings : StoreSettings) : Limiter :=
  ⟨policy, Health.start settings.cooldown, true, settings.timeout⟩

def localOnly (policy : Policy) : Limiter :=
  ⟨policy, Health.start Span.zero, false, StoreSettings.standard.timeout⟩

/-- Decisions come from the instance's own counters. -/
def degraded (l : Limiter) : Bool := !l.shared || l.health.degraded

/-- How the health report calls the state of the limiter. -/
def mode (l : Limiter) : String :=
  if !l.shared then "local_only" else if l.degraded then "degraded" else "shared"

/-! ## Attempts -/

/-- The attempt that a request is, and the counter it goes to first. -/
def begin (l : Limiter) (p : AccountId) (o : Operation) (now : Instant) :
    Except Failure (Attempt × Source × Limiter) :=
  let rule := l.policy.rule o
  match WindowKey.containing p o rule.window now with
  | .error f => .error f.failure
  | .ok key =>
    let attempt : Attempt := ⟨key, rule.limit, now⟩
    if l.shared then
      let (try_, health) := l.health.probe now
      .ok (attempt, if try_ then .shared else .fallback, { l with health })
    else .ok (attempt, .fallback, l)

def Attempt.decide (a : Attempt) (count : Nat) (source : Source) : Decision :=
  ⟨a.key, count, a.limit, source⟩

/-- Notes that the shared store failed an attempt, and for what reason. -/
def noteFailure (l : Limiter) (a : Attempt) (reason : String) : Limiter × List Log.Event :=
  let (failures, health) := l.health.failed a.began
  ({ l with health },
    if failures = 1 then
      [⟨.warn, "shared rate limit store unavailable; using local fallback counters",
        [("error", .plain reason)]⟩]
    else
      [⟨.debug, "shared rate limit store still unavailable",
        [("error", .plain reason), ("consecutive_failures", .number failures)]⟩])

def tooLate (l : Limiter) : String := "no answer within " ++ toString l.patience.millis ++ " ms"

/-- The decision that the shared store's reply allows; none if the attempt has to be
counted elsewhere. -/
def hear (l : Limiter) (a : Attempt) : Reply → Option Decision × Limiter × List Log.Event
  | .counted n =>
    let (recovered, health) := l.health.succeeded
    (some (Attempt.decide a n .shared), { l with health },
      if recovered then
        [⟨.info, "shared rate limit store reachable again; leaving local fallback", []⟩]
      else [])
  | .failed f => (none, l.noteFailure a f.text)
  | .silent => (none, l.noteFailure a l.tooLate)

def decisionEvent (d : Decision) : Log.Event :=
  ⟨if d.admitted then .debug else .warn,
   if d.admitted then "request admitted" else "rate limit exceeded",
   [("account_id", .plain d.key.principal), ("operation_class", .plain d.key.operation.name),
    ("count", .number d.count), ("limit", .number d.limit), ("source", .quoted d.source.name)]⟩

/-! ## Reading the shared count -/

/-- The key to read; none if there is no shared store. -/
def readKey (l : Limiter) (p : AccountId) (o : Operation) (now : Instant) :
    Except Failure (Option WindowKey) :=
  if l.shared then
    match WindowKey.containing p o (l.policy.rule o).window now with
    | .error f => .error f.failure
    | .ok key => .ok (some key)
  else .ok none

def countOf : Reply → Except Failure Nat
  | .counted n => .ok n
  | .failed f => .error f
  | .silent => .error ⟨.unavailable, "shared rate limit store read timed out"⟩

end Limiter

end Gateway
