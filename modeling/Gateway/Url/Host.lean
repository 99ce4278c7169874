/-
  Gateway.Url.Host — the hosts of URLs.

  In a URL whose scheme is special a host is a domain or an IP address, and an IPv4
  address may be written in parts of any base with the last part filling the rest. In
  other URLs a host is any text without delimiters, or an IPv6 address.
-/

import Gateway.Address
import Gateway.Url.Domain
import Gateway.Url.Percent

namespace Gateway

/-- Why a text is no URL. -/
inductive Url.Fault where
  | noBase
  | baseWithoutPath
  | emptyHost
  | port
  | domain
  | domainCharacter
  | v4
  | v6
  deriving DecidableEq, Repr

def Url.Fault.message : Fault → String
  | .noBase => "relative URL without a base"
  | .baseWithoutPath => "relative URL with a cannot-be-a-base base"
  | .emptyHost => "empty host"
  | .port => "invalid port number"
  | .domain => "invalid international domain name"
  | .domainCharacter => "invalid domain character"
  | .v4 => "invalid IPv4 address"
  | .v6 => "invalid IPv6 address"

inductive Url.Host where
  | name (text : String)
  | v4 (value : Nat)
  | v6 (groups : List Nat)
  deriving DecidableEq, Repr

namespace Url.Host

/-- What a byte with so many bytes after it counts. -/
def weight : Nat → Nat
  | 0 => 1
  | n + 1 => 256 * weight n

def text : Host → String
  | .name s => s
  | .v4 n => IpAddress.v4Text [n / weight 3, n / weight 2 % 256, n / weight 1 % 256, n % 256]
  | .v6 groups => "[" ++ IpAddress.compressed groups ++ "]"

/-! ## IPv4 addresses -/

/-- A number in base 8, 10 or 16, as its first digits tell. -/
def number? (l : List Char) : Option Nat := do
  let (base, digits) := match l with
    | '0' :: 'x' :: r => (16, r)
    | '0' :: 'X' :: r => (16, r)
    | '0' :: c :: r => (8, c :: r)
    | _ => (10, l)
  guard (!l.isEmpty)
  let values ← digits.mapM Text.hexValue?
  guard (values.all (· < base))
  return values.foldl (fun n d => base * n + d) 0

/-- The labels without an empty last one. -/
def labels (l : List Char) : List (List Char) :=
  let parts := Text.splitAt '.' l
  if parts.getLast? = some [] then parts.dropLast else parts

/-- The last label is a number, so the domain has to be an address. -/
def endsInNumber (l : List Char) : Bool :=
  match (labels l).getLast? with
  | some last => (!last.isEmpty && last.all Char.isDigit) || (number? last).isSome
  | none => false

def v4? (l : List Char) : Option Nat := do
  let parts := labels l
  guard (parts.length ≤ 4)
  let numbers ← parts.mapM number?
  let last ← numbers.getLast?
  let front := numbers.dropLast
  guard (front.all (· ≤ 255) && last < weight (4 - front.length))
  return front.zipIdx.foldl (fun n p => n + p.1 * weight (3 - p.2)) last

/-! ## Hosts -/

/-- The address between brackets. -/
def bracketed (l : List Char) : Except Fault Host :=
  match (if l.getLast? = some ']' then IpAddress.v6? (l.drop 1).dropLast else none) with
  | some groups => .ok (.v6 groups)
  | none => .error .v6

/-- The host of a special URL. -/
def special (l : List Char) : Except Fault Host :=
  if l.head? = some '[' then bracketed l
  else
    match (String.fromUTF8? ⟨(Percent.decode l).toArray⟩).bind fun s => Domain.toAscii s.toList with
    | none => .error .domain
    | some domain =>
      if domain.isEmpty then .error .emptyHost
      else if endsInNumber domain then (v4? domain).elim (.error .v4) fun n => .ok (.v4 n)
      else .ok (.name (String.ofList domain))

/-- Characters that delimit a host. -/
def isDelimiter (c : Char) : Bool :=
  ['\x00', '\t', '\n', '\r', ' ', '#', '/', ':', '<', '>', '?', '@', '[', '\\', ']', '^', '|'].contains c

/-- The host of any other URL. -/
def plain (l : List Char) : Except Fault Host :=
  if l.head? = some '[' then bracketed l
  else if l.any isDelimiter then .error .domainCharacter
  else .ok (.name (String.ofList (Percent.encode Percent.inControls l)))

end Url.Host

end Gateway
