/-
  Gateway.Url.Reference — URLs made from a URL.

  A new path is read as the parser reads one, but that nothing ends it before its text does: a
  question mark or a number sign is encoded. A relative reference is read where the last
  segment of the path begins.
-/

import Gateway.Url.Parser

namespace Gateway.Url

/-- The text of a plain path. A slash at its start is encoded, for a path that starts with one has segments. -/
def plainText (l : List Char) : String :=
  let encoded := fun l => String.ofList (Percent.encode Percent.inControls l)
  match l with
  | '/' :: r => "%2F" ++ encoded r
  | _ => encoded l

/-- The URL with this path. A plain path stays plain. -/
def withPath (u : Url) (text : String) : Url :=
  match u.path with
  | .segments _ => { u with path := readPath u.scheme text.toList }
  | .plain _ => { u with path := .plain (plainText text.toList) }

/-- What a reference stands for that starts with a segment, which is no drive: the path has it in
place of its last segment, and the query and the fragment are the reference's own. -/
def join (u : Url) (reference : String) : Except Fault Url :=
  match u.path with
  | .plain _ => .error .baseWithoutPath
  | .segments l =>
    let file := decide (u.scheme = "file")
    let rest := reference.toList
    let parts := splitPath (isSpecial u.scheme) (rest.takeWhile fun c => !endsPath c)
    let segments := normalize file (shorten file (l.map String.toList)) (parts.map (Percent.encode Percent.inPath))
    .ok { u with path := .segments (segments.map String.ofList), query := query? u.scheme rest, fragment := fragment? rest }

end Gateway.Url
