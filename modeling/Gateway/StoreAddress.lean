/-
  Gateway.StoreAddress — URLs that name a shared store.

  Such a URL has the scheme redis and a host. Its path, without slashes at either end, is
  the number of a database. The query may choose a version of the protocol; of several
  choices the last counts.
-/

import Gateway.Failure
import Gateway.Numeral
import Gateway.Url.Parser
import Gateway.Word

namespace Gateway

structure StoreAddress where
  host : String
  port : Nat
  database : Int
  /-- Empty if there is none. -/
  username : String
  password : String
  deriving DecidableEq, Repr

namespace StoreAddress

inductive Fault where
  | notAUrl
  | noHost
  | badDatabase
  | badUser
  | badPassword
  | badProtocol
  deriving DecidableEq, Repr

def Fault.text : Fault → String
  | .notAUrl => "Redis URL did not parse"
  | .noHost => "Missing hostname"
  | .badDatabase => "Invalid database number"
  | .badUser => "Username is not valid UTF-8 string"
  | .badPassword => "Password is not valid UTF-8 string"
  | .badProtocol => "Invalid protocol version"

def Fault.failure (f : Fault) : Failure := ⟨.validation, "invalid REDIS_URL: " ++ f.text⟩

def standardPort : Nat := 6379

/-! ## Parts -/

def hostOf (u : Url) : Except Fault String :=
  match u.host with
  | some h => if h.text.isEmpty then .error .noHost else .ok h.text
  | none => .error .noHost

/-- The text without the slashes at its ends. -/
def withoutSlashes (s : String) : String :=
  let slash (c : Char) : Bool := c = '/'
  String.ofList ((s.toList.dropWhile slash).reverse.dropWhile slash).reverse

def databaseOf (u : Url) : Except Fault Int :=
  let digits := withoutSlashes u.path.text
  if digits.isEmpty then .ok 0
  else (Numeral.signed Word.greatest.toNat digits).mapError fun _ => .badDatabase

/-- The text of a name or password whose escapes are undone. -/
def unescaped (s : String) (f : Fault) : Except Fault String :=
  match String.fromUTF8? ⟨(Url.Percent.decode s.toList).toArray⟩ with
  | some t => .ok t
  | none => .error f

/-- The bytes of a name or value in a query, where a plus sign is a space. -/
def queryBytes (l : List Char) : List UInt8 := Url.Percent.decode (l.map fun c => if c = '+' then ' ' else c)

/-- Names and values of a query. -/
def queryPairs (query : String) : List (List UInt8 × List UInt8) :=
  (Text.splitAt '&' query.toList).map fun part =>
    match Text.cutAt '=' part with
    | some (name, value) => (queryBytes name, queryBytes value)
    | none => (queryBytes part, [])

def protocols : List String := ["2", "resp2", "3", "resp3"]

def checkProtocol (u : Url) : Except Fault Unit :=
  match (queryPairs (u.query.getD "")).reverse.lookup "protocol".toUTF8.toList with
  | none => .ok ()
  | some version =>
    if protocols.any fun p => p.toUTF8.toList = version then .ok () else .error .badProtocol

/-! ## The whole -/

def parse (s : String) : Except Fault StoreAddress := do
  let u ← (Url.parse s).mapError fun _ => .notAUrl
  if u.scheme ≠ "redis" then throw .notAUrl
  let host ← hostOf u
  let database ← databaseOf u
  let username ← unescaped u.username .badUser
  let password ← unescaped u.password .badPassword
  checkProtocol u
  return ⟨host, u.port.getD standardPort, database, username, password⟩

end StoreAddress

end Gateway
