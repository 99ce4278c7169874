/-
  Gateway.Setup — a gate put together from its settings.

  Where credentials are looked up is settled first, then the cache, then the shared
  store; the first fault ends it. What is logged on the way is kept in either case.
-/

import Gateway.Config
import Gateway.Gate
import Gateway.StoreAddress

namespace Gateway

structure Setup where
  gate : Gate
  /-- Where credentials are looked up. -/
  endpoint : Url
  /-- None if the instance counts for itself alone. -/
  store : Option StoreAddress

namespace Setup

/-! ## What is logged -/

def endpointEvent (endpoint : Url) (ttl : Span) : Log.Event :=
  ⟨.info, "credential authority configured",
   [("auth_endpoint", .plain endpoint.text), ("cache_ttl_seconds", .number ttl.seconds)]⟩

def aloneEvent : Log.Event :=
  ⟨.warn, "REDIS_URL not configured; rate limits are enforced per instance only", []⟩

def ruleEvent (r : Rule) : Log.Event :=
  ⟨.info, "rate limit rule loaded",
   [("operation_class", .plain r.operation.name), ("max_requests", .number r.limit),
    ("window_ms", .number r.window.millisWord)]⟩

/-! ## Parts -/

/-- The shared store that the settings name, if any. -/
def storeOf (c : Config) : Except StoreAddress.Fault (Option StoreAddress) :=
  match c.redisUrl with
  | none => .ok none
  | some url => (StoreAddress.parse url).map some

def limiterOf (c : Config) (store : Option StoreAddress) : Limiter :=
  if store.isSome then Limiter.sharing c.policy c.store else Limiter.localOnly c.policy

/-- The health report waits for the shared store as long as a request does. -/
def pingerOf (c : Config) (store : Option StoreAddress) : Option Span := store.map fun _ => c.store.timeout

/-! ## The whole -/

def build (c : Config) (now : Instant) : List Log.Event × Except Failure Setup :=
  match Authority.endpoint c.authUrl with
  | .error f => ([], .error f)
  | .ok endpoint =>
    let configured := endpointEvent endpoint c.cacheTtl
    match Cache.make c.cacheTtl c.authTimeout, storeOf c with
    | .error f, _ => ([configured], .error f)
    | _, .error f => ([configured], .error f.failure)
    | .ok cache, .ok store =>
      let gate := Gate.start now cache (limiterOf c store) (pingerOf c store)
      (configured :: (if store.isSome then [] else [aloneEvent]) ++ c.policy.rules.map ruleEvent,
        .ok ⟨gate, endpoint, store⟩)

end Setup

end Gateway
