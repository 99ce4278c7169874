/-
  Gateway.Window — the fixed windows that budgets are counted in.

  A window has a width in whole milliseconds. Windows are laid end to end from the epoch,
  so every instance places the same bounds. A key names one window of one budget.
-/

import Gateway.Account
import Gateway.Operation
import Gateway.Time
import Gateway.Word

namespace Gateway

structure WindowKey where
  principal : String
  operation : Operation
  /-- Milliseconds. -/
  width : Nat
  /-- The window's number; the window with number 0 starts at the epoch. -/
  index : Int
  deriving DecidableEq, Repr

/-- Why no window has this width. -/
inductive WindowKey.Fault where
  | tooWide
  | tooNarrow
  deriving DecidableEq, Repr

def WindowKey.Fault.failure : Fault → Failure
  | .tooWide =>
    ⟨.validation, "rate limit window is too large: number too large to fit in target type"⟩
  | .tooNarrow => ⟨.validation, "rate limit window must be at least one millisecond"⟩

namespace WindowKey

/-- The key of the window around an instant. -/
def containing (principal : AccountId) (operation : Operation) (width : Span) (now : Instant) :
    Except Fault WindowKey :=
  if Word.greatest < width.millis then .error .tooWide
  else if width.millis = 0 then .error .tooNarrow
  else .ok ⟨principal.text, operation, width.millis, now / width.millis⟩

/-- Only a window that is too narrow or too wide has no key. -/
theorem containing_ok {p : AccountId} {o : Operation} {w : Span} {now : Instant} {k : WindowKey} :
    containing p o w now = .ok k ↔
      0 < w.millis ∧ (w.millis : Int) ≤ Word.greatest ∧ k = ⟨p.text, o, w.millis, now / w.millis⟩ := by
  unfold containing
  by_cases wide : Word.greatest < w.millis
  · rw [if_pos wide]
    exact iff_of_false (fun h => by cases h) fun h => Int.not_lt.mpr h.2.1 wide
  · rw [if_neg wide]
    by_cases narrow : w.millis = 0
    · rw [if_pos narrow]
      exact iff_of_false (fun h => by cases h) fun h => absurd h.1 (by omega)
    · rw [if_neg narrow]
      constructor
      · intro h
        cases h
        exact ⟨by omega, Int.not_lt.mp wide, rfl⟩
      · intro h
        rw [h.2.2]

/-- The first instant of the window. -/
def start (k : WindowKey) : Int := Word.clamp (k.index * k.width)

/-- The first instant after the window. -/
def stop (k : WindowKey) : Int := Word.clamp (k.start + k.width)

def window (k : WindowKey) : Span := Span.ofMillis k.width

/-- What is left of the window. -/
def remaining (k : WindowKey) (now : Instant) : Except Word.Fault Span :=
  (Word.sub k.stop now).map fun left => Span.ofMillis left.toNat

/-- The name under which the window is counted. -/
def storageName (k : WindowKey) : String :=
  k.operation.name ++ ":" ++ k.principal ++ ":" ++ toString k.width ++ "ms:" ++ toString k.index

end WindowKey

end Gateway
