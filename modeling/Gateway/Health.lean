/-
  Gateway.Health — when to try the shared store and when to keep away from it.

  Two cells are kept: the number of failures since the last success, and a mark. The mark
  is a fixed word while the store is well; otherwise it is the instant from which the
  store is tried again. Whoever passes the mark first moves it on by the cool-down, so one
  caller probes and the others keep away. The cells are read and written one at a time;
  `probe`, `succeeded` and `failed` are sequences of these single steps.
-/

import Gateway.Time
import Gateway.Word

namespace Gateway

structure Health where
  /-- Failures since the last success, modulo the number of words of 32 bits. -/
  failures : Nat
  mark : Int
  /-- Milliseconds. -/
  cooldown : Int
  deriving DecidableEq, Repr

namespace Health

def well : Int := Word.least

def start (cooldown : Span) : Health := ⟨0, well, Word.clamp cooldown.millis⟩

def degraded (h : Health) : Bool := 0 < h.failures

/-- The mark that is set at `now`. -/
def deadline (h : Health) (now : Instant) : Int := Word.clamp (now + h.cooldown)

/-! ## Single steps -/

/-- What follows from the mark that was read. -/
inductive Reading where
  | free
  | skip
  /-- Whoever moves this mark may try. -/
  | contend (mark : Int)
  deriving DecidableEq, Repr

def read (h : Health) (now : Instant) : Reading :=
  if h.mark = well then .free else if now < h.mark then .skip else .contend h.mark

/-- Moves the mark, unless it has moved since it was read. -/
def exchange (h : Health) (seen : Int) (now : Instant) : Bool × Health :=
  if h.mark = seen then (true, { h with mark := h.deadline now }) else (false, h)

def clearMark (h : Health) : Health := { h with mark := well }

/-- Ends the count of failures, and tells whether there were any. -/
def clearFailures (h : Health) : Bool × Health := (0 < h.failures, { h with failures := 0 })

def setMark (h : Health) (now : Instant) : Health := { h with mark := h.deadline now }

/-- One more failure, and how many there are now. -/
def countFailure (h : Health) : Nat × Health :=
  (min (h.failures + 1) Word.halfTop, { h with failures := (h.failures + 1) % Word.halfSize })

/-! ## Operations -/

/-- Whether a call at `now` tries the shared store. -/
def probe (h : Health) (now : Instant) : Bool × Health :=
  match h.read now with
  | .free => (true, h)
  | .skip => (false, h)
  | .contend seen => h.exchange seen now

/-- The store answered. Tells whether that ends a degraded time. -/
def succeeded (h : Health) : Bool × Health := h.clearMark.clearFailures

/-- The store failed a call that began at `now`. Tells how many failures there are. -/
def failed (h : Health) (now : Instant) : Nat × Health := (h.setMark now).countFailure

end Health

end Gateway
