/-
  Gateway.Log — what the gateway tells of itself.
-/

namespace Gateway.Log

inductive Level where
  | debug
  | info
  | warn
  | error
  deriving DecidableEq, Repr

def Level.name : Level → String
  | .debug => "DEBUG"
  | .info => "INFO"
  | .warn => "WARN"
  | .error => "ERROR"

/-- How grave: the higher the graver. -/
def Level.rank : Level → Nat
  | .debug => 1
  | .info => 2
  | .warn => 3
  | .error => 4

inductive Value where
  /-- A text that is quoted where values stand in a line. -/
  | quoted (s : String)
  | plain (s : String)
  | number (n : Int)
  | flag (b : Bool)
  deriving DecidableEq, Repr

structure Event where
  level : Level
  message : String
  fields : List (String × Value)
  deriving DecidableEq, Repr

def Value.text : Value → String
  | .quoted s => "\"" ++ s ++ "\""
  | .plain s => s
  | .number n => toString n
  | .flag b => if b then "true" else "false"

/-- The event in one line. -/
def Event.line (e : Event) : String :=
  e.level.name ++ " " ++ e.message ++
    String.join (e.fields.map fun f => " " ++ f.1 ++ "=" ++ f.2.text)

end Gateway.Log
