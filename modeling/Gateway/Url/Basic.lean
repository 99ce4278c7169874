/-
  Gateway.Url.Basic — URLs and their text.

  A path is a list of segments, or a plain text that nothing can be joined to. The parts
  are kept as they are written, encoded where they have to be.
-/

import Gateway.Url.Host

namespace Gateway

inductive Url.Path where
  | plain (text : String)
  | segments (l : List String)
  deriving DecidableEq, Repr

structure Url where
  scheme : String
  /-- Empty if there is none, as is the password. -/
  username : String
  password : String
  host : Option Url.Host
  /-- None for the scheme's own port. -/
  port : Option Nat
  path : Url.Path
  query : Option String
  fragment : Option String
  deriving DecidableEq, Repr

namespace Url

def Path.text : Path → String
  | .plain s => s
  | .segments l => String.join (l.map fun s => "/" ++ s)

def userInfo (u : Url) : String :=
  if u.username.isEmpty && u.password.isEmpty then ""
  else u.username ++ (if u.password.isEmpty then "" else ":" ++ u.password) ++ "@"

def portText (u : Url) : String := (u.port.map fun p => ":" ++ toString p).getD ""

/-- What stands between the scheme and the path. Without a host, a path that starts with
an empty segment is kept apart from a host by a dot. -/
def authority (u : Url) : String :=
  match u.host, u.path with
  | some h, _ => "//" ++ u.userInfo ++ h.text ++ u.portText
  | none, .segments ("" :: _ :: _) => "/."
  | none, _ => ""

def text (u : Url) : String :=
  u.scheme ++ ":" ++ u.authority ++ u.path.text ++ (u.query.map ("?" ++ ·)).getD "" ++
    (u.fragment.map ("#" ++ ·)).getD ""

end Url

end Gateway
