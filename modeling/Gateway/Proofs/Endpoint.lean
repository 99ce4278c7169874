/-
  Gateway.Proofs.Endpoint — where the authentication service is asked.

  A reference drops what stands behind the last slash of its base, so the path of the base is
  closed by a slash first. It is closed by reading it again with the slash at its end, which
  leaves every segment as it is (`withPath_text`); the empty segment that comes with the slash is
  the one that the reference replaces (`join_closed`).

  Proved of every URL that is read (`endpoint_below_base`):
  - If it has segments, also none, the endpoint is on the same server, below the whole path, and
    has no query and no fragment.
  - A slash at the end of a path that has none there changes nothing.
  - Bases have one endpoint exactly if they are on one server and their paths differ by a missing
    slash at the end at most; queries and fragments make no difference.
  - If it has a plain path it is refused.
-/

import Gateway.Authority
import Gateway.Proofs.UrlPaths

namespace Gateway

namespace Url

/-- Where a URL leads but for its path: scheme, user name, password, host and port. -/
def server (u : Url) : String × String × String × Option Host × Option Nat :=
  (u.scheme, u.username, u.password, u.host, u.port)

def Rooted (u : Url) : Prop := ∃ l, u.path = .segments l

def placed (u : Url) (l : List String) : Url := { u with path := .segments l, query := none, fragment := none }

theorem placed_eq_iff {u v : Url} {l m : List String} : u.placed l = v.placed m ↔ u.server = v.server ∧ l = m := by
  simp only [placed, server, Url.mk.injEq, Prod.mk.injEq, Path.segments.injEq, and_true, and_assoc]

end Url

namespace Authority

open Url

def closing (path : String) : String := if path.toList.getLast? = some '/' then path else path ++ "/"

variable {base : Url} {l : List String}

/-- A path ends in a slash exactly if its last segment is empty. -/
theorem ends_iff (h : IsPath base.scheme (l.map String.toList)) :
    (Path.segments l).text.toList.getLast? = some '/' ↔ l.getLast? = some "" := by
  rcases List.eq_nil_or_concat l with rfl | ⟨front, s, rfl⟩
  · exact iff_of_false (fun e => by cases e) fun e => by cases e
  · have last : (Path.segments (front ++ [s])).text.toList.getLast? = some (s.toList.getLast?.getD '/') := by
      rw [Path.toList_text, List.map_append, List.flatMap_append, List.map_singleton, List.flatMap_singleton,
        List.getLast?_append, List.getLast?_cons]
      rfl
    rw [List.concat_eq_append] at h ⊢
    rw [last, List.getLast?_concat, Option.some.injEq, Option.some.injEq]
    cases ends : s.toList.getLast? with
    | none =>
      have empty : s = "" := String.toList_inj.mp (List.getLast?_eq_none_iff.mp ends)
      exact iff_of_true rfl empty
    | some c =>
      have inside : c ∈ s.toList := List.mem_of_getLast? ends
      have plain := (h.segments s.toList (by simp)).plain c inside
      refine iff_of_false plain.ne_slash fun empty => ?_
      subst empty
      cases inside

theorem closed_eq (h : IsPath base.scheme (l.map String.toList)) (rooted : base.path = .segments l) :
    ∃ front, closing base.path.text = (Path.segments (front ++ [""])).text ∧
      IsPath base.scheme ((front ++ [""]).map String.toList) ∧
      closed base = { base with path := .segments (front ++ [""]) } := by
  unfold closing closed
  rw [rooted]
  by_cases ends : (Path.segments l).text.toList.getLast? = some '/'
  · obtain ⟨front, rfl⟩ := List.getLast?_eq_some_iff.mp ((ends_iff h).mp ends)
    refine ⟨front, if_pos ends, h, ?_⟩
    rw [if_pos ends, ← rooted]
  · have more : (Path.segments l).text ++ "/" = (Path.segments (l ++ [""])).text := by
      rw [Path.text_append]
      rfl
    have sound : IsPath base.scheme ((l ++ [""]).map String.toList) := by
      rw [List.map_append]
      exact h.close
    refine ⟨l, ?_, sound, ?_⟩
    · rw [if_neg ends, more]
    · rw [if_neg ends, more]
      exact withPath_text sound (by simp) rooted

/-! ## The endpoint -/

def serviceNames : List String := ["v1", "api", "auth"]

theorem isSegment_serviceNames {special : Bool} : ∀ s ∈ serviceNames.map String.toList, IsSegment special s := by
  intro s hs
  simp only [serviceNames, List.map_cons, List.map_nil, List.mem_cons, List.not_mem_nil, or_false] at hs
  have checked : (s.all fun c => decide (Plain special c)) = true ∧ isDot s = false ∧ isDoubleDot s = false := by
    rcases hs with rfl | rfl | rfl <;> cases special <;> decide
  exact ⟨plain_of_all checked.1, checked.2.1, checked.2.2⟩

theorem isPath_serviceNames (scheme : String) : IsPath scheme (serviceNames.map String.toList) := by
  refine ⟨isSegment_serviceNames, fun _ s first drive => ?_⟩
  obtain rfl := Option.some.inj first
  cases drive

theorem endpoint_eq (h : IsPath base.scheme (l.map String.toList)) (rooted : base.path = .segments l) :
    ∃ front, closing base.path.text = (Path.segments (front ++ [""])).text ∧
      IsPath base.scheme ((front ++ [""]).map String.toList) ∧
      endpoint base = .ok (base.placed (front ++ serviceNames)) := by
  obtain ⟨front, text, sound, same⟩ := closed_eq h rooted
  refine ⟨front, text, sound, ?_⟩
  have inside : IsPath base.scheme (front.map String.toList) := sound.of_prefix (by simp)
  have below : IsPath (closed base).scheme ((front ++ serviceNames).map String.toList) := by
    rw [same, List.map_append]
    exact inside.append (isPath_serviceNames _)
  have joined := join_closed below (List.cons_ne_nil _ _) (congrArg Url.path same)
  have path : "/".intercalate serviceNames = servicePath := by decide
  rw [path] at joined
  unfold endpoint
  simp only [joined]
  rw [same]
  rfl

theorem endpoint_plain {p : String} (plain : base.path = .plain p) :
    ∃ message, endpoint base = .error ⟨.validation, message⟩ := by
  have still : ∃ q, (closed base).path = .plain q := by
    unfold closed
    simp only
    split
    · exact ⟨p, plain⟩
    · exact ⟨plainText (p ++ "/").toList, by simp only [withPath, plain]; rfl⟩
  obtain ⟨q, still⟩ := still
  have refused : (closed base).join servicePath = .error .baseWithoutPath := by
    unfold join
    rw [still]
  unfold endpoint
  simp only [refused]
  exact ⟨_, rfl⟩

/-- A path that is closed already stays as it is. -/
theorem endpoint_closing (h : IsPath base.scheme (l.map String.toList)) (rooted : base.path = .segments l) :
    endpoint (base.withPath (closing base.path.text)) = endpoint base := by
  obtain ⟨front, text, sound, same⟩ := closed_eq h rooted
  have placed : base.withPath (closing base.path.text) = closed base := by
    rw [text, same]
    exact withPath_text sound (by simp) rooted
  have ends : (closed base).path.text.toList.getLast? = some '/' := by
    rw [same]
    exact (ends_iff sound).mpr (List.getLast?_concat ..)
  have still : closed (closed base) = closed base := if_pos ends
  unfold endpoint
  rw [placed, still]

/-- The endpoint is on the server of its base, below its whole path. -/
theorem endpoint_below_base {text : String} (read : parse text = .ok base) :
    (base.Rooted → ∃ e, endpoint base = .ok e ∧ e.server = base.server ∧
      e.path.text = closing base.path.text ++ "v1/api/auth" ∧ e.query = none ∧ e.fragment = none) ∧
    (base.Rooted → endpoint (base.withPath (closing base.path.text)) = endpoint base) ∧
    (base.Rooted → ∀ text' base', parse text' = .ok base' → base'.Rooted →
      (endpoint base' = endpoint base ↔
        base'.server = base.server ∧ closing base'.path.text = closing base.path.text)) ∧
    (¬ base.Rooted → ∃ message, endpoint base = .error ⟨.validation, message⟩) := by
  have sound := parse_sound read
  refine ⟨?below, ?closing, ?same, ?plain⟩
  case below =>
    intro ⟨l, rooted⟩
    rw [rooted] at sound
    obtain ⟨front, closes, -, e⟩ := endpoint_eq sound rooted
    refine ⟨_, e, rfl, ?_, rfl, rfl⟩
    have below : (Path.segments serviceNames).text = (Path.segments [""]).text ++ "v1/api/auth" := by decide
    calc (Path.segments (front ++ serviceNames)).text
      _ = (Path.segments front).text ++ (Path.segments serviceNames).text := Path.text_append
      _ = (Path.segments (front ++ [""])).text ++ "v1/api/auth" := by rw [below, Path.text_append, String.append_assoc]
      _ = closing base.path.text ++ "v1/api/auth" := by rw [closes]
  case closing =>
    intro ⟨l, rooted⟩
    rw [rooted] at sound
    exact endpoint_closing sound rooted
  case same =>
    intro ⟨l, rooted⟩ text' base' read' ⟨l', rooted'⟩
    have sound' := parse_sound read'
    rw [rooted] at sound
    rw [rooted'] at sound'
    obtain ⟨front, closes, path, e⟩ := endpoint_eq sound rooted
    obtain ⟨front', closes', path', e'⟩ := endpoint_eq sound' rooted'
    rw [e, e', Except.ok.injEq, placed_eq_iff, List.append_left_inj, closes, closes']
    refine and_congr_right fun same => ⟨fun e => by rw [e], fun e => ?_⟩
    -- a path is told by its text, for reading the text again gives the path
    have scheme : base'.scheme = base.scheme := congrArg Prod.fst same
    have back := readPath_text path (by simp)
    have back' := readPath_text path' (by simp)
    rw [scheme, e, back, Path.segments.injEq, List.append_left_inj] at back'
    exact back'.symm
  case plain =>
    intro plain
    cases rooted : base.path with
    | segments l => exact absurd ⟨l, rooted⟩ plain
    | plain p => exact endpoint_plain rooted

theorem endpoint_below_nested :
    ∃ base base', parse "https://u:p@auth.internal:9000/a//b/../c d?x#y" = .ok base ∧
      parse "https://u:p@auth.internal:9000/a//c%20d/" = .ok base' ∧ endpoint base' = endpoint base ∧
      ∃ e, endpoint base = .ok e ∧ e.server = base.server ∧ e.path.text = "/a//c%20d/v1/api/auth" := by
  have read : parse "https://u:p@auth.internal:9000/a//b/../c d?x#y" = .ok
      ⟨"https", "u", "p", some (.name "auth.internal"), some 9000, .segments ["a", "", "c%20d"], some "x", some "y"⟩ := by
    rfl
  have read' : parse "https://u:p@auth.internal:9000/a//c%20d/" = .ok
      ⟨"https", "u", "p", some (.name "auth.internal"), some 9000, .segments ["a", "", "c%20d", ""], none, none⟩ := by
    rfl
  obtain ⟨below, -, same, -⟩ := endpoint_below_base read
  obtain ⟨e, made, server, path, -, -⟩ := below ⟨_, rfl⟩
  exact ⟨_, _, read, read', (same ⟨_, rfl⟩ _ _ read' ⟨_, rfl⟩).mpr ⟨rfl, by decide⟩, e, made, server, by rw [path]; decide⟩

end Authority

end Gateway
