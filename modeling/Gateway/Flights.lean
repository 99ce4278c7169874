/-
  Gateway.Flights — lookups that several callers share.

  A flight is one shared lookup. The first caller for a credential starts one, and whoever
  comes while it stands in the map joins it. One of the callers has the turn to look up;
  the others queue. A caller that gives up passes the turn on. Once there is an outcome
  every caller takes it and leaves, and the last one to leave takes the flight out of the
  map. A caller leaves in two steps: it tests whether it is the last, and then lets go.
-/

import Gateway.Cache

namespace Gateway

/-- Calls and flights are numbered in the order in which they begin. -/
abbrev CallId := Nat
abbrev FlightId := Nat

structure Flight where
  outcome : Option Outcome
  /-- Whose turn it is to look up. -/
  turn : Option CallId
  /-- Who waits for the turn or the outcome, in order. -/
  queue : List CallId
  /-- Who holds on to the flight. -/
  holders : List CallId
  deriving DecidableEq, Repr

def Flight.start : Flight := ⟨none, none, [], []⟩

structure Flights where
  flights : Table FlightId Flight
  /-- The flight that a new caller joins. -/
  current : Table Credential FlightId
  next : FlightId

namespace Flights

def empty : Flights := ⟨Table.empty, Table.empty, 0⟩

def flight (s : Flights) (f : FlightId) : Flight := (s.flights.get? f).getD Flight.start

def change (s : Flights) (f : FlightId) (g : Flight → Flight) : Flights :=
  { s with flights := s.flights.insert f (g (s.flight f)) }

/-! ## Joining -/

/-- The flight of a credential; a new one if there is none. -/
def take (s : Flights) (k : Credential) : FlightId × Flights :=
  match s.current.get? k with
  | some f => (f, s)
  | none => (s.next, ⟨s.flights.insert s.next Flight.start, s.current.insert k s.next, s.next + 1⟩)

def join (s : Flights) (k : Credential) (c : CallId) : FlightId × Flights :=
  let (f, s) := s.take k
  (f, s.change f fun x => { x with holders := x.holders ++ [c] })

/-! ## Taking turns -/

/-- Takes the turn if it is free, and queues for it if not. -/
def claim (s : Flights) (f : FlightId) (c : CallId) : Flights :=
  s.change f fun x =>
    match x.turn with
    | none => { x with turn := some c }
    | some t => if t = c ∨ c ∈ x.queue then x else { x with queue := x.queue ++ [c] }

def hasTurn (s : Flights) (f : FlightId) (c : CallId) : Bool := (s.flight f).turn = some c

/-- Gives the flight its outcome. Nobody looks up any more. -/
def settle (s : Flights) (f : FlightId) (o : Outcome) : Flights :=
  s.change f fun x => { x with outcome := some o, turn := none }

/-- Gives up waiting. The turn goes to the first in the queue. -/
def withdraw (s : Flights) (f : FlightId) (c : CallId) : Flights :=
  s.change f fun x =>
    if x.turn = some c then { x with turn := x.queue.head?, queue := x.queue.drop 1 }
    else { x with queue := x.queue.erase c }

/-! ## Leaving -/

/-- Takes the flight out of the map if it stands there and has no other holder. -/
def test (s : Flights) (k : Credential) (f : FlightId) : Flights :=
  if s.current.get? k = some f ∧ (s.flight f).holders.length ≤ 1 then
    { s with current := s.current.erase k }
  else s

def release (s : Flights) (f : FlightId) (c : CallId) : Flights :=
  s.change f fun x => { x with holders := x.holders.erase c }

def leave (s : Flights) (k : Credential) (f : FlightId) (c : CallId) : Flights :=
  (s.test k f).release f c

end Flights

end Gateway
