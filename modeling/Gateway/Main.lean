/-
  Gateway.Main — the program.

  It reads its variables from the environment, starts, and ends when its input ends. What
  it writes and how it ends is decided by the startup, which no reading of the clock
  changes: the gate's clock is set when the first request comes.
-/

import Gateway.Startup

namespace Gateway

def readVariables : List String → IO (List (String × String))
  | [] => return []
  | name :: r => do
    let value ← IO.getEnv name
    return (value.map fun v => (name, v)).toList ++ (← readVariables r)

end Gateway

open Gateway in
def main : IO UInt32 := do
  let found ← readVariables Startup.names
  let vars : Variables := fun name => found.lookup name
  match Startup.start vars 0 none with
  | (events, .error f) =>
    (Startup.lines vars events).forM IO.println
    IO.eprintln (Startup.complaint f)
    return 1
  | (events, .ok _) =>
    (Startup.lines vars events).forM IO.println
    discard (← IO.getStdin).readToEnd
    (Startup.lines vars Startup.stopEvents).forM IO.println
    return 0
