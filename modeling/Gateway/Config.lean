/-
  Gateway.Config — the settings of an instance, read from named variables.

  A blank value is as good as none. Numbers are read after trimming. A value that is
  malformed or out of range is an error and never replaced by a default; the first one in
  the order of reading is reported.
-/

import Gateway.Address
import Gateway.Policy
import Gateway.Sweeper
import Gateway.Url.Parser
import Gateway.Word

namespace Gateway

/-- The value of each variable that is set. -/
abbrev Variables := String → Option String

structure Config where
  host : String
  port : Nat
  authUrl : Url
  authTimeout : Span
  cacheTtl : Span
  cacheSweep : Span
  redisUrl : Option String
  /-- Put before the name of every shared counter. -/
  counterStem : String
  store : StoreSettings
  policy : Policy
  localSweep : Span

namespace Config

/-- Why settings are refused. -/
inductive Fault where
  | missing (name : String)
  | malformed (name : String) (f : Numeral.Fault)
  | zero (name : String)
  | url (name : String) (f : Url.Fault)
  | tooLong (name : String) (seconds : Nat)
  | rule (f : Rule.Fault)
  | host (text : String)
  deriving DecidableEq, Repr

def Fault.failure : Fault → Failure
  | .missing name => ⟨.validation, name ++ " is required"⟩
  | .malformed name f => ⟨.validation, "invalid " ++ name ++ ": " ++ f.text⟩
  | .zero name => ⟨.validation, name ++ " must be greater than zero"⟩
  | .url name f => ⟨.validation, "invalid " ++ name ++ ": " ++ f.message⟩
  | .tooLong name seconds => ⟨.validation, name ++ " must not exceed " ++ toString seconds⟩
  | .rule f => f.failure
  | .host text => ⟨.validation, "invalid API_HOST '" ++ text ++ "': invalid IP address syntax"⟩

/-! ## Single values -/

def value? (vars : Variables) (name : String) : Option String :=
  (vars name).filter fun s => !Text.allBlank s

/-- A number of at most `limit`. -/
def number (vars : Variables) (name : String) (limit standard : Nat) : Except Fault Nat :=
  match value? vars name with
  | none => .ok standard
  | some s => (Numeral.unsigned limit (Text.trim s)).mapError (.malformed name)

/-- A number of milliseconds, at least one. -/
def interval (vars : Variables) (name : String) (standard : Nat) : Except Fault Span := do
  let n ← number vars name Word.top standard
  if n = 0 then .error (.zero name) else .ok (Span.ofMillis n)

def limitName (o : Operation) : String := "RATE_LIMIT_" ++ Text.upper o.name ++ "_REQUESTS"

def windowName (o : Operation) : String := "RATE_LIMIT_" ++ Text.upper o.name ++ "_WINDOW_MS"

/-- The rule of a class, from its two variables; what neither says is as in the policy so far. -/
def rule (vars : Variables) (p : Policy) (o : Operation) : Except Fault Rule := do
  let standard := p.rule o
  let limit ← number vars (limitName o) Word.halfTop standard.limit
  let window ← number vars (windowName o) Word.top standard.window.millisWord
  (Rule.make o limit (Span.ofMillis window)).mapError .rule

/-- Freshness beyond this is refused. -/
def longestTtl : Nat := 2592000

def ttl (vars : Variables) : Except Fault Span := do
  let name := "CREDENTIAL_CACHE_TTL_SECONDS"
  let seconds ← number vars name Word.top 300
  if longestTtl < seconds then .error (.tooLong name longestTtl) else .ok (Span.ofSeconds seconds)

def url (vars : Variables) (name : String) : Except Fault Url :=
  match value? vars name with
  | none => .error (.missing name)
  | some s => (Url.parse s).mapError (.url name)

/-! ## All of them -/

def read (vars : Variables) : Except Fault Config := do
  let host := (value? vars "API_HOST").getD "127.0.0.1"
  let port ← number vars "API_PORT" 65535 9100
  let authUrl ← url vars "AUTH_SERVICE_URL"
  let authTimeout ← interval vars "AUTH_SERVICE_TIMEOUT_MS" 2000
  let cacheTtl ← ttl vars
  let cacheSweep ← interval vars "CREDENTIAL_CACHE_SWEEP_INTERVAL_MS" 60000
  let redisUrl := value? vars "REDIS_URL"
  let counterStem := (value? vars "RATE_LIMIT_KEY_PREFIX").getD "paygate:rate_limit"
  let timeout ← interval vars "REDIS_TIMEOUT_MS" StoreSettings.standard.timeout.millis
  let cooldown ← interval vars "RATE_LIMIT_FALLBACK_COOLDOWN_MS" StoreSettings.standard.cooldown.millis
  let policy ← Operation.all.foldlM (fun p o => (rule vars p o).map p.set) Policy.standard
  let localSweep ← interval vars "RATE_LIMIT_LOCAL_SWEEP_INTERVAL_MS" 60000
  return ⟨host, port, authUrl, authTimeout, cacheTtl, cacheSweep, redisUrl, counterStem,
    ⟨timeout, cooldown⟩, policy, localSweep⟩

/-- The variables that are read. -/
def names : List String :=
  ["API_HOST", "API_PORT", "AUTH_SERVICE_URL", "AUTH_SERVICE_TIMEOUT_MS", "CREDENTIAL_CACHE_TTL_SECONDS",
   "CREDENTIAL_CACHE_SWEEP_INTERVAL_MS", "REDIS_URL", "RATE_LIMIT_KEY_PREFIX", "REDIS_TIMEOUT_MS",
   "RATE_LIMIT_FALLBACK_COOLDOWN_MS", "RATE_LIMIT_LOCAL_SWEEP_INTERVAL_MS"] ++
    Operation.all.flatMap fun o => [limitName o, windowName o]

/-- The address to listen on. -/
def socketAddress (c : Config) : Except Fault String :=
  match IpAddress.parse? c.host with
  | some a => .ok (a.withPort c.port)
  | none => .error (.host c.host)

/-- What is swept, and how often. -/
def sweepers (c : Config) : List (Sweeper × Span) := [(.credentials, c.cacheSweep), (.windows, c.localSweep)]

end Config

end Gateway
