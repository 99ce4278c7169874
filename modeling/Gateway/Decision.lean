/-
  Gateway.Decision — the answer to one counted attempt.
-/

import Gateway.Window

namespace Gateway

/-- The counter that was used. -/
inductive Source where
  | shared
  | fallback
  deriving DecidableEq, Repr

def Source.name : Source → String
  | .shared => "shared_store"
  | .fallback => "local_fallback"

structure Decision where
  key : WindowKey
  /-- Attempts counted in the window, this one included. -/
  count : Nat
  limit : Nat
  source : Source
  deriving DecidableEq, Repr

namespace Decision

def admitted (d : Decision) : Bool := d.count ≤ d.limit

def outcome (d : Decision) : String := if d.admitted then "admit" else "reject"

/-- Seconds to wait, at least one; none if the attempt is within the limit. -/
def retryAfter (d : Decision) (now : Instant) : Except Word.Fault (Option Nat) :=
  if d.admitted then .ok none
  else (d.key.remaining now).map fun left => some (max 1 ((left.millis + 999) / 1000))

variable {d : Decision} {now : Instant}

theorem retryAfter_admitted (within : d.count ≤ d.limit) : d.retryAfter now = .ok none :=
  if_pos (decide_eq_true within)

theorem retryAfter_rejected (rejected : d.limit < d.count) :
    d.retryAfter now = (d.key.remaining now).map fun left => some (max 1 ((left.millis + 999) / 1000)) :=
  if_neg fun h => Nat.not_le.mpr rejected (of_decide_eq_true h)

end Decision

end Gateway
