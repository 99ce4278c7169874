/-
  Gateway.Json.Value — from tokens to values.

  Containers that are not closed yet stand on a stack, so nesting has no bound. Numbers
  keep their value only if they are natural.
-/

import Gateway.Json.Lexer

namespace Gateway

inductive Json where
  | null
  | bool (b : Bool)
  | natural (n : Nat)
  | number
  /-- A string; none if it has no text. -/
  | string (s : Option String)
  | array (l : List Json)
  | object (l : List (Option String × Json))

namespace Json

/-- A container with what it holds so far, the last first. -/
inductive Frame where
  | array (items : List Json)
  | object (fields : List (Option String × Json)) (name : Option String)

/-- What may come next. -/
inductive Expects where
  | value
  | valueOrClose
  | nameOrClose
  | name
  | colon
  | commaOrClose

structure Reader where
  stack : List Frame
  expects : Expects
  /-- The value at the top, once it is complete. -/
  result : Option Json

namespace Reader

def start : Reader := ⟨[], .value, none⟩

/-- Puts a complete value where it belongs. -/
def put (stack : List Frame) (v : Json) : Reader :=
  match stack with
  | [] => ⟨[], .commaOrClose, some v⟩
  | .array items :: r => ⟨.array (v :: items) :: r, .commaOrClose, none⟩
  | .object fields name :: r => ⟨.object ((name, v) :: fields) none :: r, .commaOrClose, none⟩

/-- Closes the container on top. -/
def close (stack : List Frame) (t : Token) : Option Reader :=
  match t, stack with
  | .closeArray, .array items :: r => some (put r (.array items.reverse))
  | .closeObject, .object fields _ :: r => some (put r (.object fields.reverse))
  | _, _ => none

def value (stack : List Frame) : Token → Option Reader
  | .openArray => some ⟨.array [] :: stack, .valueOrClose, none⟩
  | .openObject => some ⟨.object [] none :: stack, .nameOrClose, none⟩
  | .null => some (put stack .null)
  | .bool b => some (put stack (.bool b))
  | .natural n => some (put stack (.natural n))
  | .number => some (put stack .number)
  | .string s => some (put stack (.string s))
  | _ => none

/-- Reads the name of a field. -/
def name (stack : List Frame) (t : Token) : Option Reader :=
  match t, stack with
  | .string s, .object fields _ :: r => some ⟨.object fields s :: r, .colon, none⟩
  | _, _ => none

/-- What follows a comma. -/
def comma : List Frame → Option Reader
  | [] => none
  | .array items :: r => some ⟨.array items :: r, .value, none⟩
  | .object fields n :: r => some ⟨.object fields n :: r, .name, none⟩

def step (r : Reader) (t : Token) : Option Reader :=
  match r.expects with
  | .value => value r.stack t
  | .valueOrClose => (close r.stack t).or (value r.stack t)
  | .nameOrClose => (close r.stack t).or (name r.stack t)
  | .name => name r.stack t
  | .colon => if t = .colon then some { r with expects := .value } else none
  | .commaOrClose => if t = .comma then comma r.stack else close r.stack t

end Reader

/-- The value of a whole document. -/
def read (l : List Symbol) : Option Json :=
  (tokens l).bind fun ts => (ts.foldlM Reader.step Reader.start).bind Reader.result

def ofText (s : String) : Option Json := read (Symbol.ofText s)

def ofBytes (l : List UInt8) : Option Json := read (Symbol.ofBytes l)

/-! ## Parts -/

/-- The value of a field that may be missing; none if the field is repeated. -/
def field? (name : String) (fields : List (Option String × Json)) : Option (Option Json) :=
  match fields.filter fun f => f.1 = some name with
  | [] => some none
  | [f] => some (some f.2)
  | _ => none

/-- Every name has a text. -/
def namesSound (fields : List (Option String × Json)) : Bool := fields.all fun f => f.1.isSome

def text? : Json → Option String
  | .string s => s
  | _ => none

/-- A string, or nothing for null. -/
def optionalText? : Json → Option (Option String)
  | .null => some none
  | .string (some s) => some (some s)
  | _ => none

end Json

end Gateway
