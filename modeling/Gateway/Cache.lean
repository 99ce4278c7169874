/-
  Gateway.Cache — authorizations kept for a while.

  An entry is fresh until the instant of its lookup plus the time to live, compared in
  nanoseconds. An entry that is not fresh is never used: whoever meets it drops it, and a
  sweep drops all of them. Only an authorization is kept; a refusal or a failure leaves
  no trace.
-/

import Gateway.Authority
import Gateway.Credential
import Gateway.Log
import Gateway.Table
import Gateway.Time

namespace Gateway

structure Entry where
  authorization : Authorization
  since : Instant
  /-- Nanoseconds since the epoch. -/
  expires : Int
  deriving DecidableEq, Repr

def Entry.isFresh (e : Entry) (now : Instant) : Bool := now.nanos < e.expires

structure Cache where
  ttl : Span
  /-- How long the authority may take. -/
  patience : Span
  entries : Table Credential Entry

namespace Cache

/-! ## Settings -/

def longestTtl : Span := Span.ofSeconds 2592000

def make (ttl patience : Span) : Except Failure Cache :=
  if longestTtl.nanos < ttl.nanos then
    .error ⟨.validation,
      "credential cache ttl must not exceed " ++ toString longestTtl.seconds ++ " seconds"⟩
  else if patience.nanos = 0 then
    .error ⟨.validation, "credential lookup timeout must be greater than zero"⟩
  else .ok ⟨ttl, patience, Table.empty⟩

/-! ## Entries -/

def size (c : Cache) : Nat := c.entries.size

/-- The fresh entry of a credential. One that is not fresh is dropped. -/
def look (c : Cache) (k : Credential) (now : Instant) : Option Entry × Cache :=
  match c.entries.get? k with
  | some e => if e.isFresh now then (some e, c) else (none, { c with entries := c.entries.erase k })
  | none => (none, c)

/-- Drops the entries that are not fresh. -/
def sweep (c : Cache) (now : Instant) : Cache :=
  { c with entries := c.entries.filter fun _ e => e.isFresh now }

/-- Keeps an authorization from now on; none if its end is beyond the calendar. -/
def keep (c : Cache) (k : Credential) (a : Authorization) (now : Instant) : Option Cache :=
  let expires := now.nanos + c.ttl.nanos
  if c.ttl.nanos = 0 then some c
  else if Instant.last.nanos + 999999 < expires then none
  else some { c with entries := c.entries.insert k ⟨a, now, expires⟩ }

/-! ## Lookups -/

/-- What came of asking the authority. -/
inductive Finding where
  | answered (r : Except Failure Lookup)
  | silent

/-- Every failure of the authority means that it is unavailable. -/
def Finding.lookup (patience : Span) : Finding → Except Failure Lookup
  | .answered (.ok l) => .ok l
  | .answered (.error e) =>
    .error (if e.kind = .unavailable then e
      else ⟨.unavailable, "authentication service failed: " ++ e.text⟩)
  | .silent =>
    .error ⟨.unavailable,
      "authentication service did not answer within " ++ toString patience.millis ++ " ms"⟩

def marked (k : Credential) : String × Log.Value := ("credential", .plain k.fingerprint)

/-- The result of a lookup that ends now, what is kept of it, and what is logged. -/
def conclude (c : Cache) (k : Credential) (f : Finding) (now : Instant) :
    Except Failure Authorization × Cache × List Log.Event :=
  match f.lookup c.patience with
  | .error e =>
    (.error e, c, [⟨.warn, "authentication service unavailable", [marked k, ("error", .plain e.text)]⟩])
  | .ok .invalid =>
    (.error ⟨.unauthorized, "credential is not recognised"⟩, c,
      [⟨.warn, "credential rejected by authentication service", [marked k]⟩])
  | .ok (.valid a) =>
    match c.keep k a now with
    | none => (.error ⟨.internal, "credential cache expiry overflows at " ++ now.text⟩, c, [])
    | some c =>
      (.ok a, c, [⟨.info, "credential validated", [marked k, ("account_id", .plain a.account.text)]⟩])

/-- What is logged when a fresh entry is used. -/
def hitEvent (k : Credential) (e : Entry) (now : Instant) : Log.Event :=
  ⟨.debug, "credential cache hit", [marked k, ("cached_for_ms", .number (now - e.since))]⟩

end Cache

/-! ## Shared outcomes -/

/-- The result of a lookup in the form in which it is shared. -/
inductive Outcome where
  | authorized (a : Authorization)
  | rejected (message : String)
  | unavailable (message : String)
  | failed (message : String)
  deriving DecidableEq, Repr

namespace Outcome

def ofResult : Except Failure Authorization → Outcome
  | .ok a => .authorized a
  | .error e =>
    match e.kind with
    | .unauthorized => .rejected e.message
    | .unavailable => .unavailable e.message
    | _ => .failed e.text

def result : Outcome → Except Failure Authorization
  | .authorized a => .ok a
  | .rejected m => .error ⟨.unauthorized, m⟩
  | .unavailable m => .error ⟨.unavailable, m⟩
  | .failed m => .error ⟨.internal, m⟩

end Outcome

end Gateway
