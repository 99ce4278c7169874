/-
  Gateway.Url.Parser — reading absolute URLs.

  A few schemes are special: they have a host, slashes and backslashes are the same, and
  their own port is not written. After any other scheme two slashes start a host, one
  slash a path, and anything else is a plain path.
-/

import Gateway.Url.Basic

namespace Gateway.Url

/-- Special schemes with their ports; files have none. -/
def specialPorts : List (String × Option Nat) :=
  [("http", some 80), ("https", some 443), ("ws", some 80), ("wss", some 443), ("ftp", some 21),
   ("file", none)]

def isSpecial (scheme : String) : Bool := (specialPorts.lookup scheme).isSome

def defaultPort? (scheme : String) : Option Nat := (specialPorts.lookup scheme).join

/-! ## Scheme -/

def isSchemeChar (c : Char) : Bool := c.isAlphanum || c = '+' || c = '-' || c = '.'

/-- The scheme in lower case and what follows the colon. -/
def scheme? (l : List Char) : Option (String × List Char) :=
  match l.takeWhile isSchemeChar, l.dropWhile isSchemeChar with
  | c :: r, ':' :: rest => if c.isAlpha then some (Text.lower (String.ofList (c :: r)), rest) else none
  | _, _ => none

/-! ## Host -/

def isSlash (special : Bool) (c : Char) : Bool := c = '/' || (special && c = '\\')

def endsAuthority (special : Bool) (c : Char) : Bool := isSlash special c || c = '?' || c = '#'

/-- The part before the last at sign and the length of both. -/
def userPart (l : List Char) : Option (List Char) :=
  if l.contains '@' then some ((l.reverse.dropWhile (· ≠ '@')).drop 1).reverse else none

/-- User name, password and what follows the at sign. -/
def userInfo? (special : Bool) (l : List Char) : Except Fault (String × String × List Char) :=
  match userPart (l.takeWhile fun c => !endsAuthority special c) with
  | none => .ok ("", "", l)
  | some info =>
    let rest := l.drop (info.length + 1)
    if info.isEmpty && rest.head?.any (endsAuthority special) then .error .emptyHost
    else
      let (user, password) := (Text.cutAt ':' info).getD (info, [])
      let encoded := fun part => String.ofList (Percent.encode Percent.inUserInfo part)
      .ok (encoded user, encoded password, rest)

/-- The text of the host and what follows it. A colon between brackets belongs to it. -/
def hostText (special : Bool) : Bool → List Char → List Char × List Char
  | _, [] => ([], [])
  | inside, c :: r =>
    if endsAuthority special c || (c = ':' && !inside) then ([], c :: r)
    else
      let (text, rest) := hostText special (c = '[' || (inside && c ≠ ']')) r
      (c :: text, rest)

/-- The port after the colon; none if it is missing or the scheme's own. -/
def port? (scheme : String) (l : List Char) : Except Fault (Option Nat × List Char) :=
  let digits := l.takeWhile Char.isDigit
  let rest := l.dropWhile Char.isDigit
  match Numeral.digits 65535 .tooLarge 0 digits with
  | .error _ => .error .port
  | .ok n =>
    if rest.head?.any fun c => !endsAuthority true c then .error .port
    else if digits.isEmpty || defaultPort? scheme = some n then .ok (none, rest)
    else .ok (some n, rest)

/-! ## Path -/

def isDot (s : List Char) : Bool := [".", "%2e"].contains (Text.lower (String.ofList s))

def isDoubleDot (s : List Char) : Bool :=
  ["..", ".%2e", "%2e.", "%2e%2e"].contains (Text.lower (String.ofList s))

/-- A letter and a colon or bar. -/
def isDrive (s : List Char) : Bool :=
  match s with
  | [c, d] => c.isAlpha && (d = ':' || d = '|')
  | _ => false

/-- The path without its last segment; the drive of a file stays. -/
def shorten (file : Bool) (l : List (List Char)) : List (List Char) :=
  match l with
  | [s] => if file && isDrive s then [s] else []
  | _ => l.dropLast

/-- The segments in front and then the given ones. Dots stand for no segment, two dots
take one away; at the end they leave an empty one. -/
def normalize (file : Bool) : List (List Char) → List (List Char) → List (List Char)
  | front, [] => front
  | front, s :: rest =>
    let last := if rest.isEmpty then [[]] else []
    if isDoubleDot s then normalize file (shorten file front ++ last) rest
    else if isDot s then normalize file (front ++ last) rest
    else
      let s := if file && front.isEmpty && isDrive s then s.take 1 ++ [':'] else s
      normalize file (front ++ [s]) rest

/-- The texts between slashes. -/
def splitPath (special : Bool) (l : List Char) : List (List Char) :=
  Text.splitAt '/' (if special then l.map fun c => if c = '\\' then '/' else c else l)

def endsPath (c : Char) : Bool := c = '?' || c = '#'

/-- The segments of a path whose first slash has been read. -/
def readSegments (scheme : String) (l : List Char) : Path :=
  let parts := splitPath (isSpecial scheme) l
  .segments ((normalize (scheme = "file") [] (parts.map (Percent.encode Percent.inPath))).map String.ofList)

/-- A whole path. Its first slash may be missing, and a special URL has at least an empty segment. -/
def readPath (scheme : String) (l : List Char) : Path :=
  match l with
  | [] => if isSpecial scheme then .segments [""] else .segments []
  | c :: r => if isSlash (isSpecial scheme) c then readSegments scheme r else readSegments scheme (c :: r)

/-- Segments up to the query or the fragment. -/
def segments (scheme : String) (l : List Char) : Path := readSegments scheme (l.takeWhile fun c => !endsPath c)

/-- The path after a host. -/
def pathAfterHost (scheme : String) (l : List Char) : Path := readPath scheme (l.takeWhile fun c => !endsPath c)

/-! ## Query and fragment -/

def query? (scheme : String) (l : List Char) : Option String :=
  match (l.dropWhile fun c => !endsPath c) with
  | '?' :: r =>
    let set := if isSpecial scheme then Percent.inSpecialQuery else Percent.inQuery
    some (String.ofList (Percent.encode set (r.takeWhile (· ≠ '#'))))
  | _ => none

def fragment? (l : List Char) : Option String :=
  (Text.cutAt '#' l).map fun p => String.ofList (Percent.encode Percent.inFragment p.2)

/-! ## The whole URL -/

def assemble (scheme : String) (host : Option Host) (path : Path) (rest : List Char) : Url :=
  ⟨scheme, "", "", host, none, path, query? scheme rest, fragment? rest⟩

/-- What follows two slashes. -/
def withAuthority (scheme : String) (l : List Char) : Except Fault Url := do
  let special := isSpecial scheme
  let (username, password, l) ← userInfo? special l
  let (name, l) := hostText special false l
  let host ← if special then (if name.isEmpty then .error .emptyHost else Host.special name) else Host.plain name
  let named := !name.isEmpty
  if !named && (l.head? = some ':' || !username.isEmpty || !password.isEmpty) then .error .emptyHost
  let (port, l) ← match l with
    | ':' :: r => port? scheme r
    | _ => pure (none, l)
  return { assemble scheme (some host) (pathAfterHost scheme l) l with username, password, port }

/-- A file is on this host unless another is named. -/
def file (l : List Char) : Except Fault Url :=
  let here := some (Host.name "")
  match l with
  | a :: b :: r =>
    if isSlash true a && isSlash true b then
      let name := r.takeWhile fun c => !endsAuthority true c
      if isDrive name then .ok (assemble "file" here (segments "file" r) r)
      else do
        let rest := r.drop name.length
        let host ← if name.isEmpty then pure (Host.name "") else Host.special name
        let host := if host = .name "localhost" then .name "" else host
        return assemble "file" (some host) (pathAfterHost "file" rest) rest
    else if isSlash true a then .ok (assemble "file" here (segments "file" (b :: r)) l)
    else .ok (assemble "file" here (segments "file" l) l)
  | [a] => .ok (assemble "file" here (if isSlash true a then .segments [""] else segments "file" [a]) [a])
  | [] => .ok (assemble "file" here (.segments [""]) [])

def afterScheme (scheme : String) (l : List Char) : Except Fault Url :=
  if scheme = "file" then file l
  else if isSpecial scheme then withAuthority scheme (l.dropWhile (isSlash true))
  else match l with
    | '/' :: '/' :: r => withAuthority scheme r
    | '/' :: r => .ok (assemble scheme none (segments scheme r) r)
    | _ =>
      let text := Percent.encode Percent.inControls (l.takeWhile fun c => !endsPath c)
      .ok (assemble scheme none (.plain (String.ofList text)) l)

/-- The text without controls and spaces at its ends, and without tabs and line ends. -/
def cleaned (s : String) : List Char :=
  let edge := fun (c : Char) => decide (c.toNat ≤ 0x20)
  let inner := ((s.toList.dropWhile edge).reverse.dropWhile edge).reverse
  inner.filter fun c => !(['\t', '\n', '\r'].contains c)

def parse (s : String) : Except Fault Url :=
  match scheme? (cleaned s) with
  | some (scheme, rest) => afterScheme scheme rest
  | none => .error .noBase

end Gateway.Url
