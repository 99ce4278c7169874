/-
  Gateway.Gate — an instance with its calls in progress.

  Calls interleave where they wait: for a flight or the authority, for the shared store,
  for the instance's own counters, or for a ping. Between two waits a call runs alone. An
  event is one such run: a call arrives, or what it waits for comes, or it is cancelled.
  The clock moves and sweeps happen at any time between. An event that does not apply
  changes nothing. A call whose wait overflows breaks off, and nobody is answered.
-/

import Gateway.Authenticator
import Gateway.Counters
import Gateway.Filter
import Gateway.Limiter
import Gateway.Sweeper

namespace Gateway

inductive Request where
  | authenticate (k : Credential)
  /-- Spends budget of a principal. -/
  | spend (p : AccountId) (o : Operation)
  /-- Reads the shared count of a principal. -/
  | inspect (p : AccountId) (o : Operation)
  /-- Asks to be let in with a header value. -/
  | enter (header : Option String) (o : Operation)
  | http (r : Http.Request)
  deriving DecidableEq, Repr

inductive Answer where
  | authorization (r : Except Failure Authorization)
  | decision (r : Except Failure Decision)
  | count (r : Except Failure (Option Nat))
  | admission (r : Except Failure Admission)
  | response (r : Http.Response)
  /-- No answer; the call broke off. -/
  | broken

/-- What a call waits for, and what it carries. -/
inductive Stage where
  | authenticating
  | counting (a : Attempt) (who : Option Authorization)
  | countingLocally (a : Attempt) (who : Option Authorization)
  | reading (k : WindowKey)
  | pinging
  deriving DecidableEq, Repr

structure Call where
  request : Request
  stage : Stage
  deriving DecidableEq, Repr

structure Gate where
  clock : Clock
  authenticator : Authenticator
  limiter : Limiter
  locals : Counters
  /-- How long the health report waits for the shared store; none if it asks none. -/
  pinger : Option Span
  calls : Table CallId Call
  /-- The number of the next call. -/
  next : CallId
  answers : List (CallId × Answer)
  log : List Log.Event

namespace Gate

def start (t : Instant) (cache : Cache) (limiter : Limiter) (pinger : Option Span) : Gate :=
  ⟨Clock.start t, Authenticator.start cache, limiter, Counters.empty, pinger, Table.empty, 0, [], []⟩

def now (g : Gate) : Instant := g.clock.now

def say (g : Gate) (events : List Log.Event) : Gate := { g with log := g.log ++ events }

/-- The call waits. -/
def stay (g : Gate) (c : CallId) (r : Request) (s : Stage) : Gate :=
  { g with calls := g.calls.insert c ⟨r, s⟩ }

/-- The call ends. -/
def finish (g : Gate) (c : CallId) (a : Answer) : Gate :=
  { g with calls := g.calls.erase c, answers := g.answers ++ [(c, a)] }

/-! ## Counting -/

/-- The end of a call that asked to be let in. -/
def closeEntry (g : Gate) (c : CallId) (r : Request) (x : Except Failure Admission) : Gate :=
  match r with
  | .http h =>
    let (response, events) := Filter.respond h x
    (g.say events).finish c (.response response)
  | _ => g.finish c (.admission x)

/-- The attempt of a call is counted, or cannot be. -/
def decided (g : Gate) (c : CallId) (r : Request) (who : Option Authorization)
    (x : Except Failure Decision) : Gate :=
  match who, x with
  | none, x => g.finish c (.decision x)
  | some _, .error e => g.closeEntry c r (.error e)
  | some a, .ok d =>
    match Admission.ofDecision a d g.now with
    | .ok admission => (g.say admission.events).closeEntry c r (.ok admission)
    | .error .overflow => g.finish c .broken

def counted (g : Gate) (c : CallId) (r : Request) (who : Option Authorization) (d : Decision) : Gate :=
  (g.say [Limiter.decisionEvent d]).decided c r who (.ok d)

def spend (g : Gate) (c : CallId) (r : Request) (who : Option Authorization) (p : AccountId)
    (o : Operation) : Gate :=
  match g.limiter.begin p o g.now with
  | .error e => g.decided c r who (.error e)
  | .ok (a, .shared, limiter) => { g with limiter }.stay c r (.counting a who)
  | .ok (a, .fallback, limiter) => { g with limiter }.stay c r (.countingLocally a who)

/-- The shared store's reply to an attempt. -/
def hearShared (g : Gate) (c : CallId) (r : Request) (a : Attempt) (who : Option Authorization)
    (reply : Limiter.Reply) : Gate :=
  let (decision, limiter, events) := g.limiter.hear a reply
  let g := { g with limiter }.say events
  match decision with
  | some d => g.counted c r who d
  | none => g.stay c r (.countingLocally a who)

/-- Counts an attempt in the instance's own counters. -/
def countLocally (g : Gate) (c : CallId) (r : Request) (a : Attempt) (who : Option Authorization) : Gate :=
  let (n, locals) := g.locals.record a.key
  { g with locals }.counted c r who (Limiter.Attempt.decide a n .fallback)

def inspect (g : Gate) (c : CallId) (r : Request) (p : AccountId) (o : Operation) : Gate :=
  match g.limiter.readKey p o g.now with
  | .error e => g.finish c (.count (.error e))
  | .ok none => g.finish c (.count (.ok none))
  | .ok (some k) => g.stay c r (.reading k)

/-! ## Authenticating -/

/-- The class whose budget a request spends once it is authorized; none if it only asks
for the authorization. -/
def operation? : Request → Option Operation
  | .enter _ o => some o
  | .http h => some h.operation
  | _ => none

def authorized (g : Gate) (c : CallId) (r : Request) (x : Except Failure Authorization) : Gate :=
  match operation? r, x with
  | none, x => g.finish c (.authorization x)
  | some _, .error e => g.closeEntry c r (.error e)
  | some o, .ok a => g.spend c r (some a) a.account o

def follow (g : Gate) (c : CallId) (r : Request) (s : Authenticator.Step) : Gate :=
  let g := { g with authenticator := s.next }.say s.events
  match s.result with
  | none => g.stay c r .authenticating
  | some x => g.authorized c r x

def authenticate (g : Gate) (c : CallId) (r : Request) (k : Credential) : Gate :=
  g.follow c r (g.authenticator.ask c k g.now)

def enter (g : Gate) (c : CallId) (r : Request) : Except Credential.Fault Credential → Gate
  | .error f => g.closeEntry c r (.error f.failure)
  | .ok k => g.authenticate c r k

/-! ## The health report -/

def report (g : Gate) (c : CallId) (method : String) (store : String) : Gate :=
  g.finish c (.response (Filter.health store g.limiter.mode g.authenticator.cache.size method))

def health (g : Gate) (c : CallId) (r : Request) (method : String) : Gate :=
  match g.pinger with
  | none => g.report c method (Filter.storeReport Span.zero none)
  | some _ => g.stay c r .pinging

/-! ## Events -/

inductive Event where
  | arrived (r : Request)
  /-- A call that waits for a flight goes on if it can. -/
  | resumed (c : CallId)
  | lookedUp (c : CallId) (f : Cache.Finding)
  /-- The shared store's reply to an attempt or a reading. -/
  | replied (c : CallId) (r : Limiter.Reply)
  | countedLocally (c : CallId)
  | failedLocally (c : CallId) (f : Failure)
  | pinged (c : CallId) (p : Filter.Ping)
  | cancelled (c : CallId)
  | advanced (ms : Int)
  | set (t : Instant)
  | swept (s : Sweeper)

/-- Drops what has expired. -/
def sweep (g : Gate) : Sweeper → Gate
  | .credentials => { g with authenticator := g.authenticator.sweep g.now }
  | .windows => { g with locals := g.locals.sweep g.now }

def arrive (g : Gate) (r : Request) : Gate :=
  let c := g.next
  let g := { g with next := c + 1 }
  match r with
  | .authenticate k => g.authenticate c r k
  | .spend p o => g.spend c r none p o
  | .inspect p o => g.inspect c r p o
  | .enter header _ => g.enter c r (Credential.ofHeader? header)
  | .http h =>
    match Filter.way h with
    | .direct x => g.finish c (.response x)
    | .health => g.health c r h.method
    | .gate => g.enter c r h.credential

def hear (g : Gate) (c : CallId) (call : Call) (reply : Limiter.Reply) : Gate :=
  match call.stage with
  | .counting a who => g.hearShared c call.request a who reply
  | .reading _ => g.finish c (.count ((Limiter.countOf reply).map some))
  | _ => g

/-- Runs a call that is at some stage. -/
def withCall (g : Gate) (c : CallId) (run : Call → Gate) : Gate :=
  match g.calls.get? c with
  | some call => run call
  | none => g

def step (g : Gate) : Event → Gate
  | .arrived r => g.arrive r
  | .resumed c => g.withCall c fun call =>
    match call.stage with
    | .authenticating => g.follow c call.request (g.authenticator.resume c g.now)
    | _ => g
  | .lookedUp c f => g.withCall c fun call =>
    match call.stage with
    | .authenticating => g.follow c call.request (g.authenticator.hear c f g.now)
    | _ => g
  | .replied c reply => g.withCall c fun call => g.hear c call reply
  | .countedLocally c => g.withCall c fun call =>
    match call.stage with
    | .countingLocally a who => g.countLocally c call.request a who
    | _ => g
  | .failedLocally c f => g.withCall c fun call =>
    match call.stage with
    | .countingLocally _ who => g.decided c call.request who (.error f)
    | _ => g
  | .pinged c p => g.withCall c fun call =>
    match call.stage, call.request with
    | .pinging, .http h => g.report c h.method (Filter.storeReport (g.pinger.getD Span.zero) (some p))
    | _, _ => g
  | .cancelled c => g.withCall c fun _ =>
    { g with calls := g.calls.erase c, authenticator := g.authenticator.cancel c }
  | .advanced ms => { g with clock := g.clock.advance ms }
  | .set t => { g with clock := g.clock.set t }
  | .swept s => g.sweep s

def run (g : Gate) (events : List Event) : Gate := events.foldl step g

/-! ## Reading the state -/

/-- What a call waits for outside the gate. -/
inductive Need where
  | lookup (k : Credential)
  /-- The shared store counts an attempt. -/
  | attempt (k : WindowKey)
  /-- The shared store tells a count. -/
  | reading (k : WindowKey)
  /-- The instance's own counters count an attempt. -/
  | fallback
  | ping
  deriving DecidableEq, Repr

/-- None if the call has ended or waits for another caller of its flight. -/
def need? (g : Gate) (c : CallId) : Option Need :=
  (g.calls.get? c).bind fun call =>
    match call.stage with
    | .authenticating =>
      (g.authenticator.passengers.get? c).bind fun p =>
        if p.asking then some (.lookup p.credential) else none
    | .counting a _ => some (.attempt a.key)
    | .reading k => some (.reading k)
    | .countingLocally _ _ => some .fallback
    | .pinging => some .ping

/-- How much a sweeper has before it. -/
def held (g : Gate) : Sweeper → Nat
  | .credentials => g.authenticator.cache.size
  | .windows => g.locals.tracked

def cached (g : Gate) : Nat := g.held .credentials

/-- A call that waits for a flight could go on. -/
def ready (g : Gate) (c : CallId) : Bool := g.authenticator.ready c

def answer? (g : Gate) (c : CallId) : Option Answer := g.answers.lookup c

/-- The state with nothing answered and nothing logged. -/
def cleared (g : Gate) : Gate := { g with answers := [], log := [] }

end Gate

end Gateway
