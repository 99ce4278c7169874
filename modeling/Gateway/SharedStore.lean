/-
  Gateway.SharedStore — the counters that instances share, as one instance uses them.

  The store is reached over a connection that is opened at the first use and kept. A
  command to a store that does not react comes to its own end after a while: connecting
  is tried for ten seconds, an answer is waited for half a second. A caller with less
  patience sees only silence. An error of the store changes nothing in it.
-/

import Gateway.Keyspace
import Gateway.Filter
import Gateway.Limiter

namespace Gateway

/-- How a store behaves. -/
structure SharedStore.Conduct where
  /-- It answers nothing. -/
  hangs : Bool
  /-- It answers every command with this error. -/
  fault : Option String
  /-- What it answers to a ping. -/
  pong : String
  deriving DecidableEq, Repr

structure SharedStore where
  /-- Put before the name of every counter. -/
  stem : String
  keyspace : Keyspace
  conduct : SharedStore.Conduct
  reachable : Bool
  connected : Bool

namespace SharedStore

def Conduct.well : Conduct := ⟨false, none, "PONG"⟩

def start (stem : String) (reachable : Bool) (conduct : Conduct) : SharedStore :=
  ⟨stem, Keyspace.empty, conduct, reachable, false⟩

/-- The name of a window's counter. -/
def nameOf (s : SharedStore) (k : WindowKey) : String := s.stem ++ ":" ++ k.storageName

/-! ## Commands -/

/-- What a caller gets of a command. -/
inductive Exchange (α : Type) where
  | ended (r : Except Failure α)
  /-- The caller gave up before. -/
  | silent

/-- A command that ends in failure after this time. -/
def Exchange.late {α : Type} (patience : Option Span) (after : Span) (f : Failure) : Exchange α :=
  if patience.any fun p => p.nanos ≤ after.nanos then .silent else .ended (.error f)

def connecting : Span := Span.ofSeconds 10

def answering : Span := Span.ofMillis 500

def unavailable (message : String) : Failure := ⟨.unavailable, message⟩

/-- The state and the log of one command. -/
structure Use (α : Type) where
  reply : Exchange α
  next : SharedStore
  events : List Log.Event

def connectedEvent : Log.Event := ⟨.info, "redis rate limit connection established", []⟩

/-- Sends a command; `failed` names a failure of it. -/
def send {α : Type} (s : SharedStore) (patience : Option Span) (failed : String → Failure)
    (command : Keyspace → Except Failure α × Keyspace) : Use α :=
  if !s.connected && (!s.reachable || s.conduct.hangs) then
    ⟨.late patience connecting (unavailable "failed to connect to redis: no connection"), s, []⟩
  else
    let events := if s.connected then [] else [connectedEvent]
    let s := { s with connected := true }
    if s.conduct.hangs then ⟨.late patience answering (failed "no answer"), s, events⟩
    else match s.conduct.fault with
      | some why => ⟨.ended (.error (failed why)), s, events⟩
      | none =>
        let (r, keyspace) := command s.keyspace
        ⟨.ended r, { s with keyspace }, events⟩

def recordFailed (why : String) : Failure :=
  unavailable ("failed to record redis rate limit attempt: " ++ why)

/-- Counts an attempt. A negative counter is told as the unsigned word of the same bits. -/
def record (s : SharedStore) (k : WindowKey) (now : Instant) (patience : Option Span) : Use Nat :=
  s.send patience recordFailed fun l =>
    match l.attempt? (s.nameOf k) k.width now with
    | some (n, l) => (.ok (Word.unsigned n), l)
    | none => (.error (recordFailed "the counter cannot go up"), l)

def countFailed (why : String) : Failure :=
  unavailable ("failed to read redis rate limit counter: " ++ why)

def count (s : SharedStore) (k : WindowKey) (now : Instant) (patience : Option Span) : Use Nat :=
  s.send patience countFailed fun l =>
    match l.count? (s.nameOf k) now with
    | some n => (.ok n, l)
    | none => (.error (countFailed "no count"), l)

def pingFailed (why : String) : Failure := unavailable ("redis ping failed: " ++ why)

def ping (s : SharedStore) (patience : Option Span) : Use Unit :=
  s.send patience pingFailed fun l =>
    if Text.sameLetters s.conduct.pong "pong" then (.ok (), l)
    else (.error (unavailable ("unexpected redis ping response: " ++ s.conduct.pong)), l)

/-! ## What callers make of it -/

def Exchange.toReply : Exchange Nat → Limiter.Reply
  | .ended (.ok n) => .counted n
  | .ended (.error f) => .failed f
  | .silent => .silent

def Exchange.toPing : Exchange Unit → Filter.Ping
  | .ended (.ok _) => .well
  | .ended (.error f) => .failed f
  | .silent => .silent

end SharedStore

end Gateway
