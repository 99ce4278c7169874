/-
  Gateway.Rehearsal — a gate with scripted dependencies and a time of its own.

  The authority and both stores answer as their scripts say, after the delays that their
  scripts say. Time passes only while something waits; the gate's clock stands still
  meanwhile. What is due is done in order of time, and in order of scheduling at one
  instant. A dependency without delay answers at once. When a call comes to its end, the
  calls that waited for its flight go on after it, the oldest first.

  A delay is taken from the script when a dependency is asked, the answer when it is
  given. A dependency that needs exactly as long as it may take still answers.
-/

import Gateway.Gate

namespace Gateway

namespace Rehearsal

/-! ## Scripts -/

structure AuthorityScript where
  answer : Except Failure Lookup
  delay : Nat

structure StoreScript where
  delay : Nat
  fault : Option Failure

def AuthorityScript.unknown : AuthorityScript := ⟨.ok .invalid, 0⟩

def StoreScript.standard : StoreScript := ⟨0, none⟩

/-- What a step or a task does. -/
inductive Action where
  | script (token : String) (s : AuthorityScript)
  | store (which : Source) (s : StoreScript)
  | advance (ms : Int)
  | set (t : Instant)
  | sleep (ms : Nat)
  | evict
  /-- A request, unless its parts are refused. -/
  | request (r : Except Failure Request)

inductive Result where
  | nothing
  | evicted (credentials windows : Nat)
  | refused (f : Failure)
  | answered (a : Answer)

structure Task where
  action : Action
  /-- Milliseconds after the beginning of the step. -/
  start : Nat
  abort : Option Nat

inductive Progress where
  | waiting
  | running (c : CallId)
  | done (r : Result) (after : Nat)
  | aborted

/-- What is due at some time. -/
inductive Due where
  | begin (task : Nat)
  | abort (task : Nat)
  | wake (task : Nat)
  /-- A dependency answers a call, or has taken too long. -/
  | answer (c : CallId)
  | timeout (c : CallId)

end Rehearsal

open Rehearsal in
structure Rehearsal where
  gate : Gate
  /-- The counters of the shared store. -/
  shared : Counters
  scripts : Table String AuthorityScript
  sharedScript : StoreScript
  fallbackScript : StoreScript
  authorityCalls : Nat
  sharedCalls : Nat
  fallbackCalls : Nat
  /-- Milliseconds. -/
  time : Nat
  /-- Times and what is due then, in order of scheduling. -/
  agenda : List (Nat × Due)
  sweepers : List (Sweeper × Span)
  /-- When the current step began, and its tasks. -/
  began : Nat
  tasks : List (Task × Progress)

namespace Rehearsal

def start (g : Gate) : Rehearsal :=
  ⟨g, Counters.empty, Table.empty, .standard, .standard, 0, 0, 0, 0, [], [], 0, []⟩

/-- Starts the sweepers, and lets a millisecond pass. -/
def withSweepers (s : Rehearsal) (sweepers : List (Sweeper × Span)) : Rehearsal :=
  { s with gate := s.gate.say (sweepers.map fun x => x.1.startEvent x.2), sweepers, time := s.time + 1 }

def feed (s : Rehearsal) (e : Gate.Event) : Rehearsal := { s with gate := s.gate.step e }

def schedule (s : Rehearsal) (after : Nat) (d : Due) : Rehearsal :=
  { s with agenda := s.agenda ++ [(s.time + after, d)] }

/-! ## Dependencies -/

def scriptOf (s : Rehearsal) (k : Credential) : AuthorityScript :=
  (s.scripts.get? k.token).getD .unknown

/-- The shared store answers, unless its script says that it fails. -/
def giveShared (s : Rehearsal) (c : CallId) (answer : Nat × Counters) : Rehearsal :=
  match s.sharedScript.fault with
  | some f => s.feed (.replied c (.failed f))
  | none => { s with shared := answer.2 }.feed (.replied c (.counted answer.1))

/-- The dependency answers. -/
def give (s : Rehearsal) (c : CallId) : Rehearsal :=
  match s.gate.need? c with
  | some (.lookup k) => s.feed (.lookedUp c (.answered (s.scriptOf k).answer))
  | some (.attempt k) => s.giveShared c (s.shared.record k)
  | some (.reading k) => s.giveShared c (s.shared.count k, s.shared)
  | some .fallback =>
    match s.fallbackScript.fault with
    | some f => s.feed (.failedLocally c f)
    | none => s.feed (.countedLocally c)
  | some .ping => s.feed (.pinged c .well)
  | none => s

/-- The dependency has taken too long. -/
def giveUp (s : Rehearsal) (c : CallId) : Rehearsal :=
  match s.gate.need? c with
  | some (.lookup _) => s.feed (.lookedUp c .silent)
  | some (.attempt _) => s.feed (.replied c .silent)
  | some (.reading _) => s.feed (.replied c .silent)
  | _ => s

/-- A dependency with this delay is asked; it may take so long. -/
def await (s : Rehearsal) (c : CallId) (delay : Nat) (patience : Option Span) : Rehearsal :=
  if patience.any fun p => p.millisUp < delay then
    s.schedule ((patience.map Span.millisUp).getD 0) (.timeout c)
  else if delay = 0 then s.give c
  else s.schedule delay (.answer c)

def askAuthority (s : Rehearsal) (c : CallId) : Rehearsal :=
  match s.gate.need? c with
  | some (.lookup k) =>
    { s with authorityCalls := s.authorityCalls + 1 }.await c (s.scriptOf k).delay
      (some s.gate.authenticator.cache.patience)
  | _ => s

def awaitShared (s : Rehearsal) (c : CallId) : Rehearsal :=
  { s with sharedCalls := s.sharedCalls + 1 }.await c s.sharedScript.delay (some s.gate.limiter.patience)

def askShared (s : Rehearsal) (c : CallId) : Rehearsal :=
  match s.gate.need? c with
  | some (.attempt _) => s.awaitShared c
  | some (.reading _) => s.awaitShared c
  | some .ping => s.give c
  | _ => s

def askFallback (s : Rehearsal) (c : CallId) : Rehearsal :=
  match s.gate.need? c with
  | some .fallback =>
    { s with fallbackCalls := s.fallbackCalls + 1 }.await c s.fallbackScript.delay none
  | _ => s

/-- Asks what the call needs now. It needs the authority, the shared store and the
instance's counters in this order, so three looks are enough. -/
def drive (s : Rehearsal) (c : CallId) : Rehearsal := ((s.askAuthority c).askShared c).askFallback c

/-- Calls that wait for a flight and could go on, the oldest first. -/
def ready (s : Rehearsal) : List CallId := (List.range s.gate.next).filter s.gate.ready

def resumeAll (s : Rehearsal) : Rehearsal :=
  s.ready.foldl (fun s c => if s.gate.ready c then (s.feed (.resumed c)).drive c else s) s

/-! ## Tasks -/

def progress (s : Rehearsal) (i : Nat) (p : Progress) : Rehearsal :=
  { s with tasks := s.tasks.modify i fun x => (x.1, p) }

def complete (s : Rehearsal) (i : Nat) (r : Result) : Rehearsal := s.progress i (.done r (s.time - s.began))

/-- Does what needs no waiting. -/
def act (s : Rehearsal) : Action → Rehearsal × Result
  | .script token x => ({ s with scripts := s.scripts.insert token x }, .nothing)
  | .store .shared x => ({ s with sharedScript := x }, .nothing)
  | .store .fallback x => ({ s with fallbackScript := x }, .nothing)
  | .advance ms => (s.feed (.advanced ms), .nothing)
  | .set t => (s.feed (.set t), .nothing)
  | .evict =>
    let swept := (s.feed (.swept .credentials)).feed (.swept .windows)
    (swept, .evicted (s.gate.held .credentials - swept.gate.held .credentials)
      (s.gate.held .windows - swept.gate.held .windows))
  | .request (.error f) => (s, .refused f)
  | _ => (s, .nothing)

def beginTask (s : Rehearsal) (i : Nat) : Action → Rehearsal
  | .sleep ms => s.schedule ms (.wake i)
  | .request (.ok r) =>
    let c := s.gate.next
    ((s.progress i (.running c)).feed (.arrived r)).drive c
  | a =>
    let (s, r) := s.act a
    s.complete i r

def abortTask (s : Rehearsal) (i : Nat) : Rehearsal :=
  match s.tasks[i]? with
  | some (_, .running c) => (s.progress i .aborted).feed (.cancelled c)
  | some (_, .waiting) => s.progress i .aborted
  | _ => s

/-- Marks the tasks whose calls have been answered. -/
def collect (s : Rehearsal) : Rehearsal :=
  { s with tasks := s.tasks.map fun x =>
      match x.2 with
      | .running c =>
        match s.gate.answer? c with
        | some a => (x.1, .done (.answered a) (s.time - s.began))
        | none => x
      | _ => x }

def perform (s : Rehearsal) : Due → Rehearsal
  | .begin i =>
    match s.tasks[i]? with
    | some (t, .waiting) => s.beginTask i t.action
    | _ => s
  | .abort i => s.abortTask i
  | .wake i =>
    match s.tasks[i]? with
    | some (_, .waiting) => s.complete i .nothing
    | _ => s
  | .answer c => (s.give c).drive c
  | .timeout c => (s.giveUp c).drive c

/-! ## Time -/

/-- The first time after now that is a multiple of the period. -/
def nextTick (s : Rehearsal) (period : Span) : Nat := (s.time / period.millis + 1) * period.millis

def sweep (s : Rehearsal) (x : Sweeper) : Rehearsal :=
  let swept := s.feed (.swept x)
  { swept with gate := swept.gate.say (x.sweepEvents (s.gate.held x - swept.gate.held x)) }

/-- Lets time pass up to `t`. While nothing else happens only the first tick of each
sweeper can find anything. -/
def pass (s : Rehearsal) (t : Nat) : Rehearsal :=
  let ticks := (s.sweepers.map fun x => (s.nextTick x.2, x.1)).filter fun x => x.1 ≤ t
  let swept := (ticks.mergeSort fun x y => x.1 ≤ y.1).foldl (fun s x => s.sweep x.2) s
  { swept with time := max s.time t }

/-- The earliest entry of the agenda and the others. -/
def earliest : List (Nat × Due) → Option ((Nat × Due) × List (Nat × Due))
  | [] => none
  | x :: r =>
    match earliest r with
    | some (y, rest) => if x.1 ≤ y.1 then some (x, r) else some (y, x :: rest)
    | none => some (x, [])

def finished (s : Rehearsal) : Bool :=
  s.tasks.all fun x => match x.2 with | .done _ _ => true | .aborted => true | _ => false

/-- Does what is due, one entry after the other, until every task has ended. -/
def settle : Nat → Rehearsal → Rehearsal
  | 0, s => s
  | n + 1, s =>
    if s.finished then s
    else match earliest s.agenda with
      | none => s
      | some ((t, due), rest) =>
        settle n (({ s.pass t with agenda := rest }.perform due).resumeAll.collect)

/-- The beginnings and the cancellations of the tasks. -/
def plan (s : Rehearsal) (tasks : List Task) : List (Nat × Due) :=
  (tasks.zipIdx.map fun x => (s.time + x.1.start, Due.begin x.2)) ++
    tasks.zipIdx.filterMap fun x => x.1.abort.map fun t => (s.time + t, Due.abort x.2)

/-- Runs tasks side by side until all have ended. A task is begun, aborted and woken at
most once and waits for three dependencies at most. -/
def run (s : Rehearsal) (tasks : List Task) : Rehearsal :=
  settle (6 * tasks.length)
    { s with agenda := s.plan tasks, began := s.time, tasks := tasks.map fun t => (t, .waiting) }

/-- Runs one action. -/
def runAlone (s : Rehearsal) (a : Action) : Rehearsal := s.run [⟨a, 0, none⟩]

/-- The state with the answers and the log of the last step put away. -/
def cleared (s : Rehearsal) : Rehearsal := { s with gate := s.gate.cleared }

def outcomes (s : Rehearsal) : List Progress := s.tasks.map Prod.snd

end Rehearsal

end Gateway
