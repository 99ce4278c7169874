/-
  Gateway.Instance — a gate between an authority and a shared store, one call at a time.

  Each request is followed to its end before the next one. What it needs on its way comes
  at once: the authority's word, the shared store's answer or silence, and the instance's
  own counters, which never fail. The store's clock is the gate's.
-/

import Gateway.Gate
import Gateway.SharedStore

namespace Gateway

structure Instance where
  gate : Gate
  /-- None if the instance counts for itself alone. -/
  store : Option SharedStore
  authority : Credential → Except Failure Lookup

namespace Instance

def feed (i : Instance) (e : Gate.Event) : Instance := { i with gate := i.gate.step e }

/-! ## The shared store -/

/-- Uses the store; silence if there is none. -/
def use {α : Type} (i : Instance) (command : SharedStore → SharedStore.Use α) :
    SharedStore.Exchange α × Instance :=
  match i.store with
  | none => (.silent, i)
  | some store =>
    let u := command store
    (u.reply, { i with store := some u.next, gate := i.gate.say u.events })

def record (i : Instance) (k : WindowKey) (patience : Option Span) : SharedStore.Exchange Nat × Instance :=
  i.use fun s => s.record k i.gate.now patience

def count (i : Instance) (k : WindowKey) (patience : Option Span) : SharedStore.Exchange Nat × Instance :=
  i.use fun s => s.count k i.gate.now patience

def ping (i : Instance) (patience : Option Span) : SharedStore.Exchange Unit × Instance :=
  i.use fun s => s.ping patience

/-! ## Requests -/

/-- Gives the call what it waits for. -/
def attend (i : Instance) (c : CallId) : Instance :=
  match i.gate.need? c with
  | none => i
  | some (.lookup k) => i.feed (.lookedUp c (.answered (i.authority k)))
  | some (.attempt k) =>
    let (r, i) := i.record k (some i.gate.limiter.patience)
    i.feed (.replied c r.toReply)
  | some (.reading k) =>
    let (r, i) := i.count k (some i.gate.limiter.patience)
    i.feed (.replied c r.toReply)
  | some .fallback => i.feed (.countedLocally c)
  | some .ping =>
    let (r, i) := i.ping i.gate.pinger
    i.feed (.pinged c r.toPing)

/-- Serves a request. It waits for three things at most: the authority, the shared store
and the instance's counters. -/
def serve (i : Instance) (r : Request) : Option Answer × Instance :=
  let c := i.gate.next
  let i := (((i.feed (.arrived r)).attend c).attend c).attend c
  (i.gate.answer? c, i)

/-! ## Between requests -/

def advance (i : Instance) (ms : Int) : Instance := i.feed (.advanced ms)

/-- Drops everything that has expired. -/
def sweep (i : Instance) : Instance := (i.feed (.swept .credentials)).feed (.swept .windows)

/-- Changes the store, if there is one. -/
def withStore (i : Instance) (f : SharedStore → SharedStore) : Instance := { i with store := i.store.map f }

/-- Names, texts and remaining times of what the store holds. -/
def stored (i : Instance) : List (String × String × Option Int) :=
  (i.store.map fun s => s.keyspace.listing i.gate.now).getD []

/-- The state with nothing answered and nothing logged. -/
def cleared (i : Instance) : Instance := { i with gate := i.gate.cleared }

end Instance

end Gateway
