/-
  Gateway.Counters — attempts counted in memory.

  A window is counted under its storage name, from its first attempt until a sweep after
  its end.
-/

import Gateway.Table
import Gateway.Window

namespace Gateway

structure Counter where
  count : Nat
  /-- The end of the window. -/
  closes : Int
  deriving DecidableEq, Repr

structure Counters where
  windows : Table String Counter

namespace Counters

def empty : Counters := ⟨Table.empty⟩

/-- Windows that are counted. -/
def tracked (c : Counters) : Nat := c.windows.size

/-- Counts an attempt and tells how many there are. -/
def record (c : Counters) (k : WindowKey) : Nat × Counters :=
  let before := (c.windows.get? k.storageName).getD ⟨0, k.stop⟩
  let count := min (before.count + 1) Word.top
  (count, ⟨c.windows.insert k.storageName { before with count }⟩)

def count (c : Counters) (k : WindowKey) : Nat :=
  ((c.windows.get? k.storageName).map Counter.count).getD 0

/-- Drops the windows that have ended. -/
def sweep (c : Counters) (now : Instant) : Counters := ⟨c.windows.filter fun _ w => now < w.closes⟩

end Counters

end Gateway
