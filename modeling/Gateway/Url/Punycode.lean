/-
  Gateway.Url.Punycode — labels beyond ASCII, written in ASCII.

  The basic characters come first. The others follow in ascending order, each as the
  difference to the state before it, in digits whose thresholds adapt to the differences
  met so far.
-/

namespace Gateway.Url.Punycode

def digitChar (d : Nat) : Char := if d < 26 then Char.ofNat (0x61 + d) else Char.ofNat (0x16 + d)

def digitValue? (c : Char) : Option Nat :=
  if 'a' ≤ c ∧ c ≤ 'z' then some (c.toNat - 0x61)
  else if 'A' ≤ c ∧ c ≤ 'Z' then some (c.toNat - 0x41)
  else if '0' ≤ c ∧ c ≤ '9' then some (c.toNat - 0x16)
  else none

/-- The threshold of the digit at position `k`, a multiple of 36. -/
def threshold (bias k : Nat) : Nat := if k ≤ bias then 1 else min 26 (k - bias)

theorem threshold_pos (bias k : Nat) : 0 < threshold bias k := by
  unfold threshold; split <;> omega

def shrink (delta k : Nat) : Nat :=
  if 455 < delta then shrink (delta / 35) (k + 36) else k + 36 * delta / (delta + 38)
termination_by delta
decreasing_by omega

/-- The bias after a difference, the `count`-th character being placed. -/
def adapt (delta count : Nat) (first : Bool) : Nat :=
  let d := if first then delta / 700 else delta / 2
  shrink (d + d / count) 0

/-! ## Writing -/

def digits (bias k q : Nat) : List Char :=
  let t := threshold bias k
  if q < t then [digitChar q]
  else digitChar (t + (q - t) % (36 - t)) :: digits bias (k + 36) ((q - t) / (36 - t))
termination_by q
decreasing_by
  have pos := threshold_pos bias k
  exact Nat.lt_of_le_of_lt (Nat.div_le_self _ _) (by omega)

structure Writer where
  out : List Char
  delta : Nat
  bias : Nat
  placed : Nat

/-- Passes one character of the label, while the character `m` is placed. -/
def Writer.pass (basic m : Nat) (w : Writer) (c : Char) : Writer :=
  if c.toNat < m then { w with delta := w.delta + 1 }
  else if c.toNat = m then
    ⟨w.out ++ digits w.bias 36 w.delta, 0, adapt w.delta (w.placed + 1) (w.placed = basic), w.placed + 1⟩
  else w

def place (label : List Char) (basic : Nat) : List Nat → Nat → Writer → Writer
  | [], _, w => w
  | m :: rest, n, w =>
    let w := label.foldl (Writer.pass basic m) { w with delta := w.delta + (m - n) * (w.placed + 1) }
    place label basic rest (m + 1) { w with delta := w.delta + 1 }

def insertSorted (x : Nat) : List Nat → List Nat
  | [] => [x]
  | y :: r => if x < y then x :: y :: r else if x = y then y :: r else y :: insertSorted x r

def encode (label : List Char) : List Char :=
  let basic := label.filter fun c => c.toNat < 0x80
  let others := (label.filter fun c => 0x80 ≤ c.toNat).foldr (fun c l => insertSorted c.toNat l) []
  let start := if basic.isEmpty then [] else basic ++ ['-']
  (place label basic.length others 0x80 ⟨start, 0, 72, basic.length⟩).out

/-! ## Reading -/

structure Reader where
  out : List Char
  n : Nat
  i : Nat
  bias : Nat
  /-- The value of `i` when the current number began, and its weight and position. -/
  began : Nat
  weight : Nat
  position : Nat

def Reader.step (r : Reader) (c : Char) : Option Reader := do
  let d ← digitValue? c
  let i := r.i + d * r.weight
  let t := threshold r.bias r.position
  if t ≤ d then return { r with i, weight := r.weight * (36 - t), position := r.position + 36 }
  let count := r.out.length + 1
  let n := r.n + i / count
  if ¬ n.isValidChar then none
  return ⟨r.out.take (i % count) ++ Char.ofNat n :: r.out.drop (i % count), n, i % count + 1,
    adapt (i - r.began) count (r.began = 0), i % count + 1, 1, 36⟩

/-- The part before the last hyphen and the part after it. -/
def divide (l : List Char) : List Char × List Char :=
  let tail := (l.reverse.takeWhile (· ≠ '-')).reverse
  (l.take (l.length - tail.length - 1), tail)

def decode (l : List Char) : Option (List Char) := do
  let (basic, rest) := divide l
  let r ← rest.foldlM Reader.step ⟨basic, 0x80, 0, 72, 0, 1, 36⟩
  guard (r.position = 36)
  return r.out

end Gateway.Url.Punycode
