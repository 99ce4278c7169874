/-
  Gateway.Word — the bounds of 64-bit words, and arithmetic that saturates, wraps or fails.
-/

namespace Gateway.Word

/-- How many words there are. -/
def size : Nat := 18446744073709551616

/-- The greatest unsigned word. -/
def top : Nat := 18446744073709551615

/-- The least and greatest signed words. -/
def least : Int := -9223372036854775808
def greatest : Int := 9223372036854775807

/-- How many words of 32 bits there are, and the greatest of them. -/
def halfSize : Nat := 4294967296
def halfTop : Nat := 4294967295

/-- The signed word nearest to `x`. -/
def clamp (x : Int) : Int := max least (min x greatest)

/-- Why two words have no difference. Whatever computes it breaks off. -/
inductive Fault where
  | overflow
  deriving DecidableEq, Repr

/-- The difference of two signed words. -/
def sub (x y : Int) : Except Fault Int :=
  if least ≤ x - y ∧ x - y ≤ greatest then .ok (x - y) else .error .overflow

/-- The unsigned word congruent to `x` modulo the number of words. -/
def unsigned (x : Int) : Nat := (x % size).toNat

end Gateway.Word
