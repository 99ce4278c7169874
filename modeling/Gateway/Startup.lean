/-
  Gateway.Startup — the program from its variables to its end.

  The settings are read, the address is formed, the gate is put together, the sweepers
  start, and then the program listens. The first of these that fails ends it with status
  1 and a complaint; what was logged before stays. A program that listens ends with
  status 0 when it is told to.
-/

import Gateway.Log.Verbosity
import Gateway.Setup
import Gateway.Text.Escaped

namespace Gateway.Startup

/-- A program that can serve. -/
structure Serving where
  config : Config
  setup : Setup
  address : String

/-! ## Beginning -/

/-- Everything before the listener. -/
def prepare (vars : Variables) (now : Instant) : List Log.Event × Except Failure Serving :=
  match Config.read vars with
  | .error f => ([], .error f.failure)
  | .ok config =>
    match config.socketAddress with
    | .error f => ([], .error f.failure)
    | .ok address =>
      let (events, setup) := Setup.build config now
      (events, setup.map fun s => ⟨config, s, address⟩)

def sweeperEvents (c : Config) : List Log.Event := c.sweepers.map fun x => x.1.startEvent x.2

def listeningEvent (s : Serving) : Log.Event :=
  ⟨.info, "paygate-api listening",
   [("address", .plain s.address), ("shared_store", .flag s.config.redisUrl.isSome)]⟩

/-- The program up to its listener; `blocked` says why the address cannot be had. -/
def start (vars : Variables) (now : Instant) (blocked : Option String) :
    List Log.Event × Except Failure Serving :=
  match prepare vars now with
  | (events, .error f) => (events, .error f)
  | (events, .ok s) =>
    let events := events ++ sweeperEvents s.config
    match blocked with
    | some why => (events, .error ⟨.internal, "failed to bind listener: " ++ why⟩)
    | none => (events ++ [listeningEvent s], .ok s)

/-! ## Ending -/

/-- What is logged when the program is told to end. -/
def stopEvents : List Log.Event :=
  [⟨.info, "shutdown signal received; draining connections", []⟩, ⟨.info, "paygate-api stopped", []⟩]

def complaint (f : Failure) : String :=
  "Error: " ++ f.kind.name ++ "(" ++ Text.Escaped.quote f.message ++ ")"

/-- The variable that says which events are written. -/
def verbosityName : String := "RUST_LOG"

/-- All variables that are read. -/
def names : List String := verbosityName :: Config.names

/-- The lines that are written. -/
def lines (vars : Variables) (events : List Log.Event) : List String :=
  Log.written (vars verbosityName) events

/-- The end of the program. -/
structure Exit where
  status : UInt32
  complaint : String
  lines : List String

/-- The whole program, told to end as soon as it listens. -/
def run (vars : Variables) (now : Instant) (blocked : Option String) : Exit :=
  match start vars now blocked with
  | (events, .error f) => ⟨1, complaint f, lines vars events⟩
  | (events, .ok _) => ⟨0, "", lines vars (events ++ stopEvents)⟩

end Gateway.Startup
