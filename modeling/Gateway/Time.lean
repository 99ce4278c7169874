/-
  Gateway.Time — instants, spans and the settable clock.

  Instants are whole milliseconds since the Unix epoch, negative before it; the calendar
  bounds them. Spans are nanoseconds. A span added to an instant is compared in
  nanoseconds, so a span below a millisecond still counts.
-/

import Gateway.Word

namespace Gateway

/-- Milliseconds since the Unix epoch. -/
abbrev Instant := Int

namespace Instant

/-- The first and last instants of the calendar. -/
def first : Instant := -8334601228800000
def last : Instant := 8210266876799999

def InRange (t : Instant) : Prop := first ≤ t ∧ t ≤ last

instance (t : Instant) : Decidable (InRange t) := inferInstanceAs (Decidable (_ ∧ _))

theorem bounds {t : Int} (h : InRange t) : -8334601228800000 ≤ t ∧ t ≤ 8210266876799999 := h

/-- Nanoseconds since the epoch. -/
def nanos (t : Instant) : Int := t * 1000000

end Instant

/-- A length of time. -/
structure Span where
  nanos : Nat
  deriving DecidableEq, Repr

namespace Span

def zero : Span := ⟨0⟩

def ofMillis (n : Nat) : Span := ⟨n * 1000000⟩

def ofSeconds (n : Nat) : Span := ⟨n * 1000000000⟩

/-- Whole milliseconds, rounded down. -/
def millis (d : Span) : Nat := d.nanos / 1000000

@[simp] theorem millis_ofMillis (n : Nat) : (ofMillis n).millis = n := by
  simp [millis, ofMillis]

@[simp] theorem millis_zero : zero.millis = 0 := by
  simp [millis, zero]

/-- Whole milliseconds, rounded up. -/
def millisUp (d : Span) : Nat := (d.nanos + 999999) / 1000000

/-- Whole seconds, rounded down. -/
def seconds (d : Span) : Nat := d.nanos / 1000000000

/-- Nanoseconds beyond the whole seconds. -/
def subsecond (d : Span) : Nat := d.nanos % 1000000000

/-- Whole milliseconds, or the greatest word if they do not fit in one. -/
def millisWord (d : Span) : Nat := min d.millis Word.top

end Span

/-! ## The settable clock -/

/-- A clock that moves when told. A move beyond the calendar breaks it: it keeps its
reading and ignores every later move. -/
structure Clock where
  now : Instant
  broken : Bool
  deriving DecidableEq, Repr

namespace Clock

def start (t : Instant) : Clock := ⟨t, false⟩

def set (c : Clock) (t : Instant) : Clock := if c.broken then c else { c with now := t }

/-- Moves by `d` milliseconds. -/
def advance (c : Clock) (d : Int) : Clock :=
  if c.broken then c
  else if Instant.InRange (c.now + d) then { c with now := c.now + d }
  else { c with broken := true }

/-- The move breaks a clock that was whole. -/
def breaks (c : Clock) (d : Int) : Bool := !c.broken && (c.advance d).broken

theorem le_advance (c : Clock) (ms : Nat) : c.now ≤ (c.advance ms).now := by
  unfold advance
  split
  · exact Int.le_refl _
  · split
    · exact Int.le_add_of_nonneg_right (Int.natCast_nonneg ms)
    · exact Int.le_refl _

theorem advance_inRange {c : Clock} (h : c.now.InRange) (d : Int) : (c.advance d).now.InRange := by
  unfold advance
  split
  · exact h
  · split
    · assumption
    · exact h

end Clock

/-! ## Calendar text -/

/-- Year, month and day of the day with this number, counted from the epoch. -/
def civilDate (day : Int) : Int × Int × Int :=
  let z := day + 719468
  let era := z / 146097
  let dayOfEra := z - era * 146097
  let yearOfEra := (dayOfEra - dayOfEra / 1460 + dayOfEra / 36524 - dayOfEra / 146096) / 365
  let dayOfYear := dayOfEra - (365 * yearOfEra + yearOfEra / 4 - yearOfEra / 100)
  let shifted := (5 * dayOfYear + 2) / 153
  let month := if shifted < 10 then shifted + 3 else shifted - 9
  let year := yearOfEra + era * 400 + (if month ≤ 2 then 1 else 0)
  (year, month, dayOfYear - (153 * shifted + 2) / 5 + 1)

/-- Decimal digits padded with zeros to `width`. -/
def padded (width n : Nat) : String :=
  let d := toString n
  String.ofList (List.replicate (width - d.length) '0') ++ d

/-- Years outside 0 to 9999 carry their sign. -/
def yearText (y : Int) : String :=
  if 0 ≤ y ∧ y ≤ 9999 then padded 4 y.toNat
  else (if y < 0 then "-" else "+") ++ padded 4 y.natAbs

/-- Date, time of day to the needed fraction, and the zone. -/
def Instant.text (t : Instant) : String :=
  let day := t / 86400000
  let ms := (t - day * 86400000).toNat
  let (y, m, d) := civilDate day
  let fraction := if ms % 1000 = 0 then "" else "." ++ padded 3 (ms % 1000)
  yearText y ++ "-" ++ padded 2 m.toNat ++ "-" ++ padded 2 d.toNat ++ " " ++
    padded 2 (ms / 3600000) ++ ":" ++ padded 2 (ms / 60000 % 60) ++ ":" ++
    padded 2 (ms / 1000 % 60) ++ fraction ++ " UTC"

end Gateway
