/-
  Gateway.Failure — why an operation was refused.

  A failure has one of five kinds and a message. Its text starts with the kind.
-/

namespace Gateway

inductive Failure.Kind where
  /-- Input that breaks a rule. -/
  | validation
  /-- A credential that is missing, malformed or not recognised. -/
  | unauthorized
  /-- A budget that is spent. -/
  | rateLimited
  /-- A dependency that cannot be reached or fails. -/
  | unavailable
  /-- Anything unforeseen. -/
  | internal
  deriving DecidableEq, Repr

structure Failure where
  kind : Failure.Kind
  message : String
  deriving DecidableEq, Repr

namespace Failure

def Kind.label : Kind → String
  | .validation => "validation error"
  | .unauthorized => "unauthorized"
  | .rateLimited => "rate limited"
  | .unavailable => "unavailable"
  | .internal => "internal error"

/-- The one-word name of the kind. -/
def Kind.name : Kind → String
  | .validation => "Validation"
  | .unauthorized => "Unauthorized"
  | .rateLimited => "RateLimited"
  | .unavailable => "Unavailable"
  | .internal => "Internal"

def text (f : Failure) : String := f.kind.label ++ ": " ++ f.message

/-- The same request may succeed later. -/
def retryable (f : Failure) : Bool := f.kind = .rateLimited || f.kind = .unavailable

end Failure

/-! ## Operations that succeed -/

theorem bind_eq_ok {ε α β : Type} {x : Except ε α} {f : α → Except ε β} {b : β} :
    x >>= f = .ok b ↔ ∃ a, x = .ok a ∧ f a = .ok b := by
  cases x with
  | error e => exact iff_of_false (fun h => by cases h) fun ⟨a, h, _⟩ => by cases h
  | ok a => exact ⟨fun h => ⟨a, rfl, h⟩, fun ⟨a', h, h'⟩ => by cases h; exact h'⟩

theorem map_eq_ok {ε α β : Type} {x : Except ε α} {f : α → β} {b : β} : x.map f = .ok b ↔ ∃ a, x = .ok a ∧ f a = b := by
  cases x with
  | error e => exact iff_of_false (fun h => by cases h) fun ⟨a, h, _⟩ => by cases h
  | ok a => exact ⟨fun h => ⟨a, rfl, by cases h; rfl⟩, fun ⟨_, h, h'⟩ => by cases h; cases h'; rfl⟩

theorem mapError_eq_ok {ε ε' α : Type} {x : Except ε α} {f : ε → ε'} {a : α} : x.mapError f = .ok a ↔ x = .ok a := by
  cases x with
  | error e => exact iff_of_false (fun h => by cases h) fun h => by cases h
  | ok b => exact ⟨fun h => by cases h; rfl, fun h => by cases h; rfl⟩

theorem ite_eq_ok {ε α : Type} {c : Prop} [Decidable c] {e : ε} {x : Except ε α} {a : α} :
    (if c then .error e else x) = .ok a ↔ ¬ c ∧ x = .ok a := by
  by_cases h : c
  · rw [if_pos h]
    exact iff_of_false (fun h' => by cases h') fun h' => h'.1 h
  · rw [if_neg h, and_iff_right h]

end Gateway
