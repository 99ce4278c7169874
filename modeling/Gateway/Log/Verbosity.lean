/-
  Gateway.Log.Verbosity — which events are written.

  A wish is a list of directives with commas between. A directive is a level for
  everything, or the beginning of an origin with a level after an equals sign. Without
  that level it wants every event. Of the directives whose beginning fits the origin of
  the events the longest decides, and of equal ones the last; if none fits, nothing is
  written. An empty list wants errors. No wish, or one with a directive that cannot be
  read, is the wish for the level of information.
-/

import Gateway.Log
import Gateway.Numeral
import Gateway.Text
import Gateway.Word

namespace Gateway.Log

/-- Where the gateway's events come from. -/
def origin : String := "paygate_api"

structure Directive where
  /-- The beginning of the origins that it is about. -/
  stem : String
  /-- The rank of the least grave events that are written. -/
  least : Nat
  deriving DecidableEq, Repr

namespace Directive

/-- Names of levels and their ranks; the last lets nothing through. -/
def levels : List (String × Nat) :=
  [("trace", 0), ("debug", Level.debug.rank), ("info", Level.info.rank), ("warn", Level.warn.rank),
   ("error", Level.error.rank), ("off", 5)]

/-- A level by name in any letter case, or by number from 0, which is off, to 5. -/
def level? (s : String) : Option Nat :=
  match Numeral.unsigned Word.top s with
  | .ok n => if n ≤ 5 then some (5 - n) else none
  | .error _ => (levels.find? fun l => Text.sameLetters l.1 s).map Prod.snd

/-- A directive may start with a letter, a digit or one of a few signs. -/
def mayStart (c : Char) : Bool := c.isAlphanum || 0x80 ≤ c.toNat || ['-', ':', '_', '['].contains c

def everything : Nat := 0

def parse? (s : String) : Option Directive :=
  match Text.trimLeft s.toList with
  | [] => none
  | c :: _ =>
    if !mayStart c then none
    else match Text.cutAt '=' s.toList with
      | some (stem, []) => some ⟨String.ofList stem, everything⟩
      | some (stem, word) => (level? (String.ofList word)).map fun l => ⟨String.ofList stem, l⟩
      | none =>
        match level? s with
        | some l => some ⟨"", l⟩
        | none => some ⟨s, everything⟩

end Directive

/-- The directives of a wish, none of them empty. -/
def directives? (wish : String) : Option (List Directive) :=
  ((Text.splitAt ',' wish.toList).filter fun l => !l.isEmpty).mapM fun l =>
    Directive.parse? (String.ofList l)

/-- The longest of the directives about an origin, and the last of these. -/
def decisive (source : String) (l : List Directive) : Option Directive :=
  (l.filter fun d => d.stem.isPrefixOf source).foldl
    (fun best d =>
      match best with
      | some b => if b.stem.length ≤ d.stem.length then some d else some b
      | none => some d)
    none

/-- The rank from which on events are written. -/
def least (wish : Option String) : Nat :=
  match wish.bind directives? with
  | none => Level.info.rank
  | some [] => Level.error.rank
  | some l => ((decisive origin l).map Directive.least).getD 5

/-- The events that are written, a line each. -/
def written (wish : Option String) (events : List Event) : List String :=
  (events.filter fun e => least wish ≤ e.level.rank).map Event.line

end Gateway.Log
