/-
  Gateway.Keyspace — named texts, some of which end at an instant.

  A text whose end has come is gone. A counter is a text that is the numeral of a signed
  word; a text that is none cannot be counted up. Counting up keeps the end of the text.
  An attempt counts up and sees to it that the counter has an end, both at once or
  neither.
-/

import Gateway.Numeral
import Gateway.Table
import Gateway.Time
import Gateway.Word

namespace Gateway

structure Keyspace.Entry where
  text : String
  /-- None if the text stays. -/
  ends : Option Int
  deriving DecidableEq, Repr

structure Keyspace where
  entries : Table String Keyspace.Entry

namespace Keyspace

def empty : Keyspace := ⟨Table.empty⟩

def Entry.lasts (e : Entry) (now : Instant) : Bool := e.ends.all fun t => now < t

/-- Drops what is gone. -/
def purge (s : Keyspace) (now : Instant) : Keyspace := ⟨s.entries.filter fun _ e => e.lasts now⟩

def entry? (s : Keyspace) (name : String) (now : Instant) : Option Entry :=
  (s.purge now).entries.get? name

/-- Puts a text that stays in place of any other. -/
def put (s : Keyspace) (name text : String) : Keyspace := ⟨s.entries.insert name ⟨text, none⟩⟩

/-! ## Counters -/

/-- The value of a counter, zero if there is none; nothing if the text is no unsigned word. -/
def count? (s : Keyspace) (name : String) (now : Instant) : Option Nat :=
  match s.entry? name now with
  | none => some 0
  | some e => (Numeral.unsigned Word.top e.text).toOption

/-- The value that counting up leads to. -/
def Entry.next? (e : Entry) : Option Int :=
  match Numeral.signed Word.greatest.toNat e.text with
  | .ok n => if n < Word.greatest then some (n + 1) else none
  | .error _ => none

/-- Counts up; a missing counter starts at one and stays. -/
def increment? (s : Keyspace) (name : String) (now : Instant) : Option (Int × Keyspace) :=
  match s.entry? name now with
  | none => some (1, ⟨(s.purge now).entries.insert name ⟨"1", none⟩⟩)
  | some e => e.next?.map fun n =>
      (n, ⟨(s.purge now).entries.insert name { e with text := toString n }⟩)

/-- Gives a text an end unless it has one. -/
def bound (s : Keyspace) (name : String) (ends : Int) : Keyspace :=
  ⟨s.entries.update name fun e => { e with ends := some (e.ends.getD ends) }⟩

/-- Counts an attempt in a window of that many milliseconds. -/
def attempt? (s : Keyspace) (name : String) (width : Nat) (now : Instant) : Option (Int × Keyspace) :=
  (s.increment? name now).map fun r => (r.1, r.2.bound name (now + width))

/-! ## Reading -/

/-- Name, text and what is left of it in milliseconds, in the order of names. -/
def listing (s : Keyspace) (now : Instant) : List (String × String × Option Int) :=
  let entries := (s.purge now).entries.entries.mergeSort fun x y => decide (x.1 ≤ y.1)
  entries.map fun x => (x.1, x.2.text, x.2.ends.map (· - now))

end Keyspace

end Gateway
