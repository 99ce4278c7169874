/-
  Gateway.Sweeper — what is swept from time to time.
-/

import Gateway.Log
import Gateway.Time

namespace Gateway

/-- Credentials of the cache, or windows of the instance's own counters. -/
inductive Sweeper where
  | credentials
  | windows
  deriving DecidableEq, Repr

namespace Sweeper

def all : List Sweeper := [.credentials, .windows]

def name : Sweeper → String
  | .credentials => "credential_cache"
  | .windows => "local_rate_limit"

def startEvent (s : Sweeper) (period : Span) : Log.Event :=
  ⟨.info, "sweeper started", [("sweeper", .quoted s.name), ("interval_ms", .number period.millisWord)]⟩

/-- What is logged of a sweep; nothing if it found nothing. -/
def sweepEvents (s : Sweeper) (evicted : Nat) : List Log.Event :=
  if evicted = 0 then []
  else [⟨.debug, "expired entries evicted", [("sweeper", .quoted s.name), ("evicted", .number evicted)]⟩]

end Sweeper

end Gateway
