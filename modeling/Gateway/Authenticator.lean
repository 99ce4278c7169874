/-
  Gateway.Authenticator — from credentials to authorizations.

  A caller takes a fresh entry of the cache; otherwise it joins the flight of its
  credential. Whoever has the turn looks into the cache once more, since another flight
  may have ended meanwhile, and then asks the authority. What the authority answers
  becomes the outcome of the flight for all its callers.
-/

import Gateway.Flights

namespace Gateway

/-- A caller on a flight. -/
structure Passenger where
  credential : Credential
  flight : FlightId
  /-- It has asked the authority. -/
  asking : Bool
  deriving DecidableEq, Repr

structure Authenticator where
  cache : Cache
  flights : Flights
  passengers : Table CallId Passenger

namespace Authenticator

def start (c : Cache) : Authenticator := ⟨c, Flights.empty, Table.empty⟩

/-- The result of a caller, if it has one now; the state after, and what is logged. -/
structure Step where
  result : Option (Except Failure Authorization)
  next : Authenticator
  events : List Log.Event

def still (a : Authenticator) : Step := ⟨none, a, []⟩

/-- Takes the outcome and leaves the flight. -/
def land (a : Authenticator) (c : CallId) (p : Passenger) (o : Outcome) : Step :=
  ⟨some o.result,
   { a with flights := a.flights.leave p.credential p.flight c, passengers := a.passengers.erase c }, []⟩

/-- Uses the turn. -/
def resolve (a : Authenticator) (c : CallId) (p : Passenger) (now : Instant) : Step :=
  match a.cache.look p.credential now with
  | (some e, cache) =>
    let o := Outcome.ofResult (.ok e.authorization)
    { a with cache, flights := a.flights.settle p.flight o }.land c p o
  | (none, cache) => still { a with cache, passengers := a.passengers.insert c { p with asking := true } }

/-- Goes on as far as the flight allows. -/
def resume (a : Authenticator) (c : CallId) (now : Instant) : Step :=
  match a.passengers.get? c with
  | none => still a
  | some p =>
    if p.asking then still a
    else match (a.flights.flight p.flight).outcome with
      | some o => a.land c p o
      | none =>
        let a := { a with flights := a.flights.claim p.flight c }
        if a.flights.hasTurn p.flight c then a.resolve c p now else still a

/-- A caller begins. -/
def ask (a : Authenticator) (c : CallId) (k : Credential) (now : Instant) : Step :=
  match a.cache.look k now with
  | (some e, cache) => ⟨some (.ok e.authorization), { a with cache }, [Cache.hitEvent k e now]⟩
  | (none, cache) =>
    let (f, flights) := a.flights.join k c
    { a with cache, flights, passengers := a.passengers.insert c ⟨k, f, false⟩ }.resume c now

/-- The authority's answer to a caller that asked it. -/
def hear (a : Authenticator) (c : CallId) (f : Cache.Finding) (now : Instant) : Step :=
  match a.passengers.get? c with
  | none => still a
  | some p =>
    if p.asking then
      let (r, cache, events) := a.cache.conclude p.credential f now
      let o := Outcome.ofResult r
      let step := { a with cache, flights := a.flights.settle p.flight o }.land c p o
      { step with events }
    else still a

/-- A caller gives up. -/
def cancel (a : Authenticator) (c : CallId) : Authenticator :=
  match a.passengers.get? c with
  | none => a
  | some p =>
    { a with flights := (a.flights.withdraw p.flight c).leave p.credential p.flight c
             passengers := a.passengers.erase c }

/-- A caller that waits could go on. -/
def ready (a : Authenticator) (c : CallId) : Bool :=
  match a.passengers.get? c with
  | none => false
  | some p =>
    !p.asking && ((a.flights.flight p.flight).outcome.isSome || a.flights.hasTurn p.flight c)

def sweep (a : Authenticator) (now : Instant) : Authenticator := { a with cache := a.cache.sweep now }

end Authenticator

end Gateway
