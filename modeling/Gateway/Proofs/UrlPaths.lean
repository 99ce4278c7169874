/-
  Gateway.Proofs.UrlPaths — the paths that URLs are read with.

  No segment of a URL that was read is a dot or two, and none has a character that a path
  encodes or takes for a slash; the first segment of a file's path is no drive with a bar
  (`IsPath`). Every segment that the parser adds, takes away or leaves empty keeps this
  (`isPath_normalize`), so the path of every URL that is read is such a list (`parse_sound`).

  Such a list is what its text is read as (`readPath_text`): the text is cut at the slashes
  between the segments and nothing in it is encoded, dropped or rewritten a second time.
-/

import Gateway.Failure
import Gateway.Proofs.Texts
import Gateway.Url.Reference

namespace Gateway.Url

/-! ## Encoded texts -/

namespace Percent

variable {set : Char → Bool} {l : List Char} {c : Char}

def signs : List Char := "%0123456789ABCDEF".toList

theorem mem_encodeByte {b : UInt8} (h : c ∈ encodeByte b) : c ∈ signs := by
  have digits : ∀ n < 16, (Text.hexDigit n).toUpper ∈ signs := by decide
  have small : b.toNat < 256 := b.toNat_lt
  have high := digits (b.toNat / 16) (by omega)
  have low := digits (b.toNat % 16) (by omega)
  unfold encodeByte at h
  rcases List.mem_cons.mp h with rfl | h
  · exact List.mem_cons_self
  · rcases List.mem_cons.mp h with rfl | h
    · exact high
    · obtain rfl := List.mem_singleton.mp h
      exact low

theorem mem_encode (h : c ∈ encode set l) : (c ∈ l ∧ set c = false) ∨ c ∈ signs := by
  obtain ⟨d, hd, h⟩ := List.mem_flatMap.mp h
  unfold encodeChar at h
  split at h
  · obtain ⟨b, -, h⟩ := List.mem_flatMap.mp h
    exact Or.inr (mem_encodeByte h)
  · rename_i free
    obtain rfl := List.mem_singleton.mp h
    exact Or.inl ⟨hd, Bool.eq_false_iff.mpr free⟩

theorem encode_eq_self (h : ∀ c ∈ l, set c = false) : encode set l = l := by
  induction l with
  | nil => rfl
  | cons c l ih =>
    have free : encodeChar set c = [c] := if_neg (Bool.eq_false_iff.mp (h c List.mem_cons_self))
    have rest : encode set l = l := ih fun d hd => h d (List.mem_cons_of_mem _ hd)
    unfold encode at rest ⊢
    rw [List.flatMap_cons, free, rest]
    rfl

end Percent

/-! ## Segments -/

variable {scheme : String} {special : Bool} {c : Char} {s : List Char} {l front : List (List Char)}

/-- A character that stands in a path for itself and ends no segment. -/
def Plain (special : Bool) (c : Char) : Prop := Percent.inPath c = false ∧ isSlash special c = false

instance : DecidablePred (Plain special) := fun _ => inferInstanceAs (Decidable (_ ∧ _))

structure IsSegment (special : Bool) (s : List Char) : Prop where
  plain : ∀ c ∈ s, Plain special c
  noDot : isDot s = false
  noDots : isDoubleDot s = false

theorem IsSegment.nil : IsSegment special [] := ⟨fun c h => absurd h List.not_mem_nil, by decide, by decide⟩

theorem Plain.ne_slash (h : Plain special c) : c ≠ '/' := by
  intro e
  have bare := h.2
  rw [e] at bare
  cases bare

theorem plain_of_all (h : (s.all fun c => decide (Plain special c)) = true) : ∀ c ∈ s, Plain special c :=
  fun c hc => of_decide_eq_true (List.all_eq_true.mp h c hc)

theorem plain_signs : ∀ c ∈ Percent.signs, Plain special c := by
  refine plain_of_all ?_
  cases special <;> decide

theorem plain_encode (h : ∀ c ∈ s, isSlash special c = false) : ∀ c ∈ Percent.encode Percent.inPath s, Plain special c := by
  intro c hc
  rcases Percent.mem_encode hc with ⟨hc, free⟩ | sign
  · exact ⟨free, h c hc⟩
  · exact plain_signs c sign

theorem splitPath_bare {m : List Char} (h : m ∈ splitPath special s) : ∀ c ∈ m, isSlash special c = false := by
  intro c hc
  have noSlash : c ≠ '/' := fun e => Text.not_mem_of_mem_splitAt h (e ▸ hc)
  have inside := Text.mem_of_mem_splitAt h hc
  cases special with
  | false => simp [isSlash, noSlash]
  | true =>
    -- A backslash was made a slash before the text was cut.
    rw [if_pos rfl] at inside
    obtain ⟨d, -, rfl⟩ := List.mem_map.mp inside
    by_cases back : d = '\\'
    · exact absurd (if_pos back) noSlash
    · rw [if_neg back] at noSlash ⊢
      simp [isSlash, noSlash, back]

theorem splitPath_of_bare (h : ∀ c ∈ s, c ≠ '/' → isSlash special c = false) : splitPath special s = Text.splitAt '/' s := by
  unfold splitPath
  cases special with
  | false => rfl
  | true =>
    have kept : ∀ c ∈ s, (if c = '\\' then '/' else c) = id c := by
      intro c hc
      refine if_neg fun back => ?_
      subst back
      have bare := h '\\' hc (by decide)
      cases bare
    rw [if_pos rfl, List.map_congr_left kept, List.map_id]

/-! ## Paths -/

structure IsPath (scheme : String) (l : List (List Char)) : Prop where
  segments : ∀ s ∈ l, IsSegment (isSpecial scheme) s
  drive : scheme = "file" → ∀ s, l.head? = some s → isDrive s = true → s.getLast? = some ':'

namespace IsPath

theorem nil : IsPath scheme [] := ⟨fun s h => absurd h List.not_mem_nil, fun _ s h => by cases h⟩

theorem of_prefix (h : IsPath scheme l) (hp : front <+: l) : IsPath scheme front := by
  refine ⟨fun s hs => h.segments s (hp.subset hs), fun file s hs => h.drive file s ?_⟩
  obtain ⟨rest, rfl⟩ := hp
  rw [List.head?_append, hs, Option.some_or]

theorem append (h : IsPath scheme front) (hl : IsPath scheme l) : IsPath scheme (front ++ l) := by
  refine ⟨fun s hs => ?_, fun file s hs => ?_⟩
  · rcases List.mem_append.mp hs with hs | hs
    · exact h.segments s hs
    · exact hl.segments s hs
  · rw [List.head?_append, Option.or_eq_some_iff] at hs
    rcases hs with hs | ⟨-, hs⟩
    · exact h.drive file s hs
    · exact hl.drive file s hs

theorem snoc (h : IsPath scheme l) (hs : IsSegment (isSpecial scheme) s)
    (hd : scheme = "file" → l = [] → isDrive s = true → s.getLast? = some ':') : IsPath scheme (l ++ [s]) := by
  refine ⟨fun t ht => ?_, fun file t ht drive => ?_⟩
  · rcases List.mem_append.mp ht with ht | ht
    · exact h.segments t ht
    · obtain rfl := List.mem_singleton.mp ht
      exact hs
  · cases l with
    | nil =>
      obtain rfl : s = t := Option.some.inj ht
      exact hd file rfl drive
    | cons a l => exact h.drive file t ht drive

theorem close (h : IsPath scheme l) : IsPath scheme (l ++ [[]]) :=
  h.snoc .nil fun _ _ drive => by cases drive

theorem shorten (h : IsPath scheme l) (file : Bool) : IsPath scheme (shorten file l) := by
  refine h.of_prefix ?_
  unfold Url.shorten
  split
  · split
    · exact List.prefix_refl _
    · exact List.nil_prefix
  · exact List.dropLast_prefix _

end IsPath

theorem plain_colon : ∀ special, Plain special ':' := by
  unfold Plain
  decide

/-- The bar of a drive becomes a colon, which is no dot. -/
theorem isSegment_drive (h : ∀ c ∈ s, Plain special c) (drive : isDrive s = true) :
    IsSegment special (s.take 1 ++ [':']) ∧ (s.take 1 ++ [':']).getLast? = some ':' := by
  have dots : ∀ t ∈ [".", "%2e"] ++ ["..", ".%2e", "%2e.", "%2e%2e"], t.toList.getLast? ≠ some ':' := by decide
  unfold isDrive at drive
  split at drive
  · rename_i c d
    have last : (Text.lower (String.ofList [c, ':'])).toList.getLast? = some ':' := by simp [Text.lower]
    refine ⟨⟨fun x hx => ?_, ?_, ?_⟩, rfl⟩
    · rcases List.mem_cons.mp hx with rfl | hx
      · exact h _ List.mem_cons_self
      · obtain rfl := List.mem_singleton.mp hx
        exact plain_colon special
    · exact Bool.eq_false_iff.mpr fun dot => dots _ (List.mem_append_left _ (List.contains_iff_mem.mp dot)) last
    · exact Bool.eq_false_iff.mpr fun dot => dots _ (List.mem_append_right _ (List.contains_iff_mem.mp dot)) last
  · cases drive

/-- Nothing is left to do to a path. -/
theorem normalize_append (h : IsPath scheme (front ++ l)) : normalize (scheme = "file") front l = front ++ l := by
  induction l generalizing front with
  | nil => rw [normalize, List.append_nil]
  | cons s l ih =>
    have seg := h.segments s (by simp)
    have kept : (if (scheme = "file" && front.isEmpty && isDrive s) = true then s.take 1 ++ [':'] else s) = s := by
      split
      · rename_i bar
        simp only [Bool.and_eq_true, decide_eq_true_eq, List.isEmpty_iff] at bar
        obtain ⟨⟨file, rfl⟩, drive⟩ := bar
        have colon := h.drive file s rfl drive
        unfold isDrive at drive
        split at drive
        · obtain rfl := Option.some.inj colon
          rfl
        · cases drive
      · rfl
    have split : front ++ s :: l = (front ++ [s]) ++ l := by rw [List.append_assoc]; rfl
    rw [normalize, if_neg (by rw [seg.noDots]; decide), if_neg (by rw [seg.noDot]; decide), kept, split]
    rw [split] at h
    exact ih h

theorem isPath_normalize (h : IsPath scheme front) (hl : ∀ s ∈ l, ∀ c ∈ s, Plain (isSpecial scheme) c) :
    IsPath scheme (normalize (scheme = "file") front l) := by
  induction l generalizing front with
  | nil =>
    rw [normalize]
    exact h
  | cons s l ih =>
    have rest : ∀ t ∈ l, ∀ c ∈ t, Plain (isSpecial scheme) c := fun t ht => hl t (List.mem_cons_of_mem _ ht)
    have closes : ∀ {a}, IsPath scheme a → IsPath scheme (a ++ if l.isEmpty then [[]] else []) := by
      intro a ha
      split
      · exact ha.close
      · rw [List.append_nil]
        exact ha
    rw [normalize]
    split
    · exact ih (closes (h.shorten _)) rest
    · rename_i dots
      split
      · exact ih (closes h) rest
      · rename_i dot
        have plain := hl s List.mem_cons_self
        refine ih ?_ rest
        split
        · rename_i bar
          simp only [Bool.and_eq_true] at bar
          obtain ⟨seg, colon⟩ := isSegment_drive plain bar.2
          exact h.snoc seg fun _ _ _ => colon
        · rename_i bar
          refine h.snoc ⟨plain, Bool.eq_false_iff.mpr dot, Bool.eq_false_iff.mpr dots⟩ fun file first drive => ?_
          exact absurd (by simp [file, first, drive]) bar

/-! ## What is read -/

def Path.Sound (scheme : String) : Path → Prop
  | .plain _ => True
  | .segments l => IsPath scheme (l.map String.toList)

variable {u : Url}

theorem readSegments_sound (scheme : String) (text : List Char) : (readSegments scheme text).Sound scheme := by
  unfold readSegments Path.Sound
  simp only
  rw [Text.map_toList_ofList]
  refine isPath_normalize .nil fun s hs => ?_
  obtain ⟨m, hm, rfl⟩ := List.mem_map.mp hs
  exact plain_encode (splitPath_bare hm)

theorem readPath_sound (scheme : String) (text : List Char) : (readPath scheme text).Sound scheme := by
  unfold readPath
  split
  · split
    · exact IsPath.nil.close
    · exact IsPath.nil
  · split <;> exact readSegments_sound scheme _

theorem segments_sound (scheme : String) (text : List Char) : (segments scheme text).Sound scheme :=
  readSegments_sound _ _

theorem pathAfterHost_sound (scheme : String) (text : List Char) : (pathAfterHost scheme text).Sound scheme :=
  readPath_sound _ _

def Reads (x : Except Fault Url) : Prop := ∀ u, x = .ok u → u.path.Sound u.scheme

namespace Reads

theorem of_ok (h : u.path.Sound u.scheme) : Reads (.ok u) := by
  intro v hv
  obtain rfl := Except.ok.inj hv
  exact h

theorem of_error (f : Fault) : Reads (.error f) := fun u h => by cases h

theorem bind {α : Type} {x : Except Fault α} {f : α → Except Fault Url} (h : ∀ a, Reads (f a)) : Reads (x >>= f) := by
  intro u hu
  obtain ⟨a, -, hu⟩ := bind_eq_ok.mp hu
  exact h a u hu

end Reads

theorem withAuthority_reads (scheme : String) (text : List Char) : Reads (withAuthority scheme text) := by
  unfold withAuthority
  refine .bind fun user => ?_
  dsimp only
  split
  all_goals
    refine .bind fun host => ?_
    split
    · exact .of_error _
    · split
      all_goals exact .bind fun port => .of_ok (pathAfterHost_sound _ _)

theorem file_reads (text : List Char) : Reads (file text) := by
  unfold file
  split
  · dsimp only
    split
    · split
      · exact .of_ok (segments_sound _ _)
      · split
        all_goals exact .bind fun host => .of_ok (pathAfterHost_sound _ _)
    · split
      all_goals exact .of_ok (segments_sound _ _)
  · refine .of_ok ?_
    unfold assemble
    split
    · exact IsPath.nil.close
    · exact segments_sound _ _
  · exact .of_ok IsPath.nil.close

theorem afterScheme_reads (scheme : String) (text : List Char) : Reads (afterScheme scheme text) := by
  unfold afterScheme
  split
  · exact file_reads text
  · split
    · exact withAuthority_reads _ _
    · split
      · exact withAuthority_reads _ _
      · exact .of_ok (segments_sound _ _)
      · exact .of_ok trivial

theorem parse_sound {s : String} (h : parse s = .ok u) : u.path.Sound u.scheme := by
  unfold parse at h
  split at h
  · exact afterScheme_reads _ _ u h
  · cases h

/-! ## The text of a path -/

namespace Path

variable {a b : List String}

theorem text_append : (segments (a ++ b)).text = (segments a).text ++ (segments b).text := by
  simp only [text, List.map_append, String.join_append]

theorem toList_text : (segments a).text.toList = (a.map String.toList).flatMap fun s => '/' :: s := by
  simp only [text, String.toList_join, List.flatMap_map, String.toList_append]
  rfl

end Path

/-- The slashes that start the segments stand between them, but for the first one. -/
theorem slashed_eq (ne : l ≠ []) : l.flatMap (fun s => '/' :: s) = '/' :: ['/'].intercalate l := by
  induction l with
  | nil => exact absurd rfl ne
  | cons s l ih =>
    cases l with
    | nil => rw [List.flatMap_singleton, List.intercalate_singleton]
    | cons t l =>
      rw [List.flatMap_cons, ih (List.cons_ne_nil _ _), List.intercalate_cons_cons]
      simp

section

variable (h : ∀ s ∈ l, IsSegment special s)
include h

theorem intercalate_plain : ∀ c ∈ ['/'].intercalate l, c = '/' ∨ Plain special c := by
  intro c hc
  cases l with
  | nil => cases hc
  | cons a l =>
    have inside : c ∈ (a :: l).flatMap fun s => '/' :: s := slashed_eq (List.cons_ne_nil a l) ▸ List.mem_cons_of_mem _ hc
    obtain ⟨s, hs, hc⟩ := List.mem_flatMap.mp inside
    rcases List.mem_cons.mp hc with rfl | hc
    · exact Or.inl rfl
    · exact Or.inr ((h s hs).plain c hc)

theorem splitPath_intercalate (ne : l ≠ []) : splitPath special (['/'].intercalate l) = l := by
  have bare : ∀ s ∈ l, '/' ∉ s := fun s hs hc => ((h s hs).plain _ hc).ne_slash rfl
  rw [splitPath_of_bare, Text.splitAt_intercalate bare ne]
  intro c hc slash
  rcases intercalate_plain h c hc with rfl | plain
  · exact absurd rfl slash
  · exact plain.2

theorem map_encode_eq_self : l.map (Percent.encode Percent.inPath) = l := by
  have same : ∀ s ∈ l, Percent.encode Percent.inPath s = id s := fun s hs =>
    Percent.encode_eq_self fun c hc => ((h s hs).plain c hc).1
  rw [List.map_congr_left same, List.map_id]

end

/-- A path is read back from its text. -/
theorem readPath_text {l : List String} (h : IsPath scheme (l.map String.toList)) (ne : l ≠ []) :
    readPath scheme (Path.segments l).text.toList = .segments l := by
  have ne : l.map String.toList ≠ [] := mt List.map_eq_nil_iff.mp ne
  have left : normalize (scheme = "file") [] (l.map String.toList) = l.map String.toList := normalize_append h
  rw [Path.toList_text, slashed_eq ne, readPath, if_pos (by simp [isSlash])]
  simp only [readSegments, splitPath_intercalate h.segments ne, map_encode_eq_self h.segments, left,
    Text.map_ofList_toList]

/-! ## URLs made from a URL -/

theorem withPath_text {l m : List String} (h : IsPath u.scheme (l.map String.toList)) (ne : l ≠ [])
    (rooted : u.path = .segments m) : u.withPath (Path.segments l).text = { u with path := .segments l } := by
  simp only [withPath, rooted, readPath_text h ne]

theorem shorten_closed (file : Bool) : shorten file (l ++ [[]]) = l := by
  match l with
  | [] => cases file <;> rfl
  | [s] => rfl
  | s :: t :: l => exact List.dropLast_concat

/-- No character of a path ends it. -/
theorem endsPath_of_plain (h : c = '/' ∨ Plain special c) : endsPath c = false := by
  rcases h with slash | plain
  · rw [slash]
    decide
  · refine Bool.eq_false_iff.mpr fun e => ?_
    simp only [endsPath, Bool.or_eq_true, decide_eq_true_eq] at e
    have free := plain.1
    rcases e with e | e
    all_goals
      rw [e] at free
      cases free

/-- Segments take the place of an empty last one, as they are. -/
theorem join_closed {front names : List String} (h : IsPath u.scheme ((front ++ names).map String.toList))
    (ne : names ≠ []) (closed : u.path = .segments (front ++ [""])) :
    u.join ("/".intercalate names) = .ok { u with path := .segments (front ++ names), query := none, fragment := none } := by
  rw [List.map_append] at h
  have steps : ∀ s ∈ names.map String.toList, IsSegment (isSpecial u.scheme) s := fun s hs =>
    h.segments s (List.mem_append_right _ hs)
  have text : ("/".intercalate names).toList = ['/'].intercalate (names.map String.toList) := String.toList_intercalate
  have whole : ∀ c ∈ ['/'].intercalate (names.map String.toList), endsPath c = false := fun c hc =>
    endsPath_of_plain (intercalate_plain steps c hc)
  have path : (['/'].intercalate (names.map String.toList)).takeWhile (fun c => !endsPath c) =
      ['/'].intercalate (names.map String.toList) :=
    List.takeWhile_eq_self_iff.mpr fun c hc => by rw [whole c hc]; rfl
  have query : query? u.scheme (['/'].intercalate (names.map String.toList)) = none := by
    rw [query?, List.dropWhile_eq_nil_iff.mpr fun c hc => by rw [whole c hc]; rfl]
  have fragment : fragment? (['/'].intercalate (names.map String.toList)) = none := by
    refine Option.map_eq_none_iff.mpr (Option.eq_none_iff_forall_ne_some.mpr fun p cut => ?_)
    have sign := whole '#' (by rw [(Text.cutAt_eq_some_iff.mp cut).1]; simp)
    cases sign
  have front' : shorten (u.scheme = "file") ((front ++ [""]).map String.toList) = front.map String.toList := by
    rw [List.map_append]
    exact shorten_closed _
  simp only [join, closed, text, path, query, fragment, front', map_encode_eq_self steps, normalize_append h,
    splitPath_intercalate steps (mt List.map_eq_nil_iff.mp ne), ← List.map_append, Text.map_ofList_toList]

end Gateway.Url
