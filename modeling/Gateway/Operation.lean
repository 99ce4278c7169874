/-
  Gateway.Operation — the classes of requests that have a budget each.
-/

import Gateway.Failure
import Gateway.Text

namespace Gateway

/-- What a request does. -/
inductive Operation where
  | create
  | read
  | search
  | cancel
  | capture
  | refund
  deriving DecidableEq, Repr

namespace Operation

/-- Every class, in the order in which they are listed. -/
def all : List Operation := [.create, .read, .search, .cancel, .capture, .refund]

def name : Operation → String
  | .create => "create"
  | .read => "read"
  | .search => "search"
  | .cancel => "cancel"
  | .capture => "capture"
  | .refund => "refund"

/-- The place in the list of all classes. -/
def index (o : Operation) : Nat := all.idxOf o

/-- Names are read in any letter case. -/
def parse (s : String) : Except Failure Operation :=
  match all.find? fun o => Text.sameLetters o.name s with
  | some o => .ok o
  | none => .error ⟨.validation, "unknown operation class '" ++ s ++ "'"⟩

end Operation

end Gateway
