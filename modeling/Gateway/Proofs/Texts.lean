/-
  Gateway.Proofs.Texts — what trims, cuts and comparisons of letters leave.

  A trim takes blanks away up to the first character that is none, so what it leaves is the
  one part of the text that starts (`trimLeft_eq_iff`), ends (`trimRight_eq_iff`) or starts and
  ends (`trim_eq_iff`) with no blank and has blanks only beside it. A cut is at the one place
  where nothing before is the separator (`cutAt_eq_some_iff`). A split is the library's, so no part has
  the separator and the parts with it between them are the text. Visible characters are no
  blanks, and lowering letters makes none visible.
-/

import Mathlib.Data.List.TakeWhile
import Gateway.Text

namespace Gateway.Text

variable {l m a b : List Char} {c sep : Char}

theorem map_ofList_toList (texts : List String) : (texts.map String.toList).map String.ofList = texts := by
  have same : String.ofList ∘ String.toList = id := funext fun _ => String.ofList_toList
  rw [List.map_map, same, List.map_id]

theorem map_toList_ofList (texts : List (List Char)) : (texts.map String.ofList).map String.toList = texts := by
  have same : String.toList ∘ String.ofList = id := funext fun _ => String.toList_ofList
  rw [List.map_map, same, List.map_id]

/-! ## Characters -/

theorem isVisible_iff : isVisible c = true ↔ 0x21 ≤ c.toNat ∧ c.toNat ≤ 0x7E := by
  simp only [isVisible, Bool.and_eq_true, decide_eq_true_eq]

/-- All blanks lie below or above visible ASCII. -/
theorem isBlank_of_isVisible (h : isVisible c = true) : isBlank c = false := by
  obtain ⟨lower, upper⟩ := isVisible_iff.mp h
  have apart : ∀ r ∈ blankRanges, r.2 < 0x21 ∨ 0x7E < r.1 := by decide
  unfold isBlank
  rw [List.any_eq_false]
  intro r hr
  have := apart r hr
  simp only [Bool.and_eq_true, decide_eq_true_eq]
  omega

theorem isVisible_of_toLower (h : isVisible c.toLower = true) : isVisible c = true := by
  unfold Char.toLower at h
  split at h
  · rename_i upper
    obtain ⟨lower, upper⟩ : 'A'.val ≤ c.val ∧ c.val ≤ 'Z'.val := upper
    rw [UInt32.le_iff_toNat_le] at lower upper
    have lower : 65 ≤ c.toNat := lower
    have upper : c.toNat ≤ 90 := upper
    exact isVisible_iff.mpr ⟨by omega, by omega⟩
  · exact h

theorem sameLetters_comm (s t : String) : sameLetters s t = sameLetters t s := Bool.beq_comm

theorem sameLetters_iff {s t : String} (small : lower t = t) : sameLetters s t = true ↔ lower s = t := by
  have small : t.toList.map Char.toLower = t.toList := by
    rw [← String.toList_ofList (l := t.toList.map Char.toLower)]
    exact congrArg String.toList small
  unfold sameLetters lower
  rw [small, beq_iff_eq]
  constructor
  · intro h
    rw [h, String.ofList_toList]
  · intro h
    rw [← h, String.toList_ofList]

/-! ## Trims -/

theorem trimLeft_eq_iff :
    trimLeft l = m ↔ ∃ w, l = w ++ m ∧ w.all isBlank = true ∧ ∀ c, m.head? = some c → isBlank c = false := by
  constructor
  · rintro rfl
    refine ⟨l.takeWhile isBlank, List.takeWhile_append_dropWhile.symm, List.all_takeWhile, fun c first => ?_⟩
    have bare := List.head?_dropWhile_not isBlank l
    unfold trimLeft at first
    rw [first] at bare
    exact bare
  · rintro ⟨w, rfl, blank, bare⟩
    unfold trimLeft
    rw [List.dropWhile_append_of_pos (List.all_eq_true.mp blank)]
    cases m with
    | nil => rfl
    | cons c m => exact List.dropWhile_cons_of_neg (Bool.eq_false_iff.mp (bare c rfl))

theorem trimRight_eq_iff :
    trimRight l = m ↔ ∃ w, l = m ++ w ∧ w.all isBlank = true ∧ ∀ c, m.getLast? = some c → isBlank c = false := by
  have mirrored : trimRight l = m ↔ trimLeft l.reverse = m.reverse := by
    unfold trimRight trimLeft
    exact List.reverse_eq_iff
  rw [mirrored, trimLeft_eq_iff, List.head?_reverse]
  constructor
  · rintro ⟨w, parts, blank, bare⟩
    refine ⟨w.reverse, ?_, by rw [List.all_reverse]; exact blank, bare⟩
    rw [← List.reverse_reverse m, ← List.reverse_append, ← parts, List.reverse_reverse]
  · rintro ⟨w, rfl, blank, bare⟩
    exact ⟨w.reverse, List.reverse_append, by rw [List.all_reverse]; exact blank, bare⟩

/-- A part that is not empty is what both trims leave if it starts and ends with no blank. -/
theorem trim_eq_iff (ne : m ≠ []) :
    trimRight (trimLeft l) = m ↔ ∃ w₁ w₂, l = w₁ ++ m ++ w₂ ∧ w₁.all isBlank = true ∧ w₂.all isBlank = true ∧
      (∀ c, m.head? = some c → isBlank c = false) ∧ ∀ c, m.getLast? = some c → isBlank c = false := by
  have first : ∀ w, (m ++ w).head? = m.head? := fun w => by
    cases m with
    | nil => exact absurd rfl ne
    | cons c m => rfl
  constructor
  · intro h
    obtain ⟨w₂, rest, blank₂, ends⟩ := trimRight_eq_iff.mp h
    obtain ⟨w₁, whole, blank₁, starts⟩ := trimLeft_eq_iff.mp rest
    rw [first] at starts
    exact ⟨w₁, w₂, by rw [whole, List.append_assoc], blank₁, blank₂, starts, ends⟩
  · rintro ⟨w₁, w₂, rfl, blank₁, blank₂, starts, ends⟩
    have rest : trimLeft (w₁ ++ m ++ w₂) = m ++ w₂ :=
      trimLeft_eq_iff.mpr ⟨w₁, List.append_assoc _ _ _, blank₁, by rw [first]; exact starts⟩
    rw [rest]
    exact trimRight_eq_iff.mpr ⟨w₂, rfl, blank₂, ends⟩

theorem starts_of_visible (ne : a ≠ []) (visible : ∀ c ∈ a, isVisible c = true) :
    ∀ c, (a ++ b).head? = some c → isBlank c = false := by
  intro c hc
  cases a with
  | nil => exact absurd rfl ne
  | cons d a =>
    have same : d = c := Option.some.inj hc
    exact isBlank_of_isVisible (visible c (same ▸ List.mem_cons_self))

theorem ends_of_visible (ne : b ≠ []) (visible : ∀ c ∈ b, isVisible c = true) :
    ∀ c, (a ++ b).getLast? = some c → isBlank c = false := by
  intro c hc
  rw [List.getLast?_append, List.getLast?_eq_some_getLast ne, Option.some_or, Option.some.injEq] at hc
  exact isBlank_of_isVisible (visible c (hc ▸ List.getLast_mem ne))

/-! ## Cuts -/

theorem cutAt_eq_some_iff : cutAt sep l = some (a, b) ↔ l = a ++ sep :: b ∧ sep ∉ a := by
  induction l generalizing a with
  | nil => simp [cutAt]
  | cons c l ih =>
    unfold cutAt
    by_cases here : c = sep
    · subst here
      rw [if_pos rfl, Option.some.injEq, Prod.mk.injEq]
      constructor
      · rintro ⟨rfl, rfl⟩
        exact ⟨rfl, List.not_mem_nil⟩
      · rintro ⟨parts, free⟩
        cases a with
        | nil => exact ⟨rfl, (List.cons.inj parts).2⟩
        | cons d a => exact absurd (List.mem_cons.mpr (Or.inl (List.cons.inj parts).1)) free
    · rw [if_neg here, Option.map_eq_some_iff]
      constructor
      · rintro ⟨⟨a', b'⟩, cut, same⟩
        obtain ⟨rfl, rfl⟩ := Prod.mk.inj same
        obtain ⟨rfl, free⟩ := ih.mp cut
        exact ⟨rfl, List.not_mem_cons_of_ne_of_not_mem (Ne.symm here) free⟩
      · rintro ⟨parts, free⟩
        cases a with
        | nil => exact absurd (List.cons.inj parts).1 here
        | cons d a =>
          obtain ⟨rfl, rest⟩ := List.cons.inj parts
          exact ⟨(a, b), ih.mpr ⟨rest, fun inside => free (List.mem_cons_of_mem _ inside)⟩, rfl⟩

/-! ## Splits -/

theorem splitAt_eq_splitOn : splitAt sep l = l.splitOn sep := by
  induction l with
  | nil => rfl
  | cons c l ih =>
    have parts : (c :: l).splitOn sep =
        if (c == sep) = true then [] :: l.splitOn sep else (l.splitOn sep).modifyHead (List.cons c) := by
      rw [List.splitOn_eq_splitOnP, List.splitOn_eq_splitOnP, List.splitOnP_cons_eq_if_modifyHead]
    rw [splitAt, ih, parts]
    by_cases here : c = sep
    · rw [if_pos here, if_pos (beq_iff_eq.mpr here)]
    · rw [if_neg here, if_neg (mt beq_iff_eq.mp here)]
      cases rest : l.splitOn sep with
      | nil => exact absurd rest (List.splitOn_ne_nil _ _)
      | cons p ps => rfl

theorem splitAt_append : splitAt sep (a ++ sep :: b) = splitAt sep a ++ splitAt sep b := by
  simp only [splitAt_eq_splitOn, List.splitOn_append_cons_self]

theorem not_mem_of_mem_splitAt (h : m ∈ splitAt sep l) : sep ∉ m := by
  induction l generalizing m with
  | nil =>
    obtain rfl := List.mem_singleton.mp h
    exact List.not_mem_nil
  | cons c l ih =>
    rw [splitAt] at h
    by_cases here : c = sep
    · rw [if_pos here, List.mem_cons] at h
      obtain rfl | later := h
      · exact List.not_mem_nil
      · exact ih later
    · rw [if_neg here] at h
      cases parts : splitAt sep l with
      | nil =>
        rw [parts, List.mem_singleton] at h
        subst h
        exact List.not_mem_cons_of_ne_of_not_mem (Ne.symm here) List.not_mem_nil
      | cons p ps =>
        rw [parts] at ih h
        obtain rfl | later := List.mem_cons.mp h
        · exact List.not_mem_cons_of_ne_of_not_mem (Ne.symm here) (ih List.mem_cons_self)
        · exact ih (List.mem_cons_of_mem _ later)

theorem intercalate_splitAt : [sep].intercalate (splitAt sep l) = l := by
  rw [splitAt_eq_splitOn, List.intercalate_splitOn]

theorem mem_intercalate {ls : List (List Char)} (h : m ∈ ls) (hc : c ∈ m) : c ∈ [sep].intercalate ls := by
  induction ls with
  | nil => cases h
  | cons p ls ih =>
    cases ls with
    | nil =>
      obtain rfl := List.mem_singleton.mp h
      rw [List.intercalate_singleton]
      exact hc
    | cons q ls =>
      rw [List.intercalate_cons_cons]
      rcases List.mem_cons.mp h with rfl | later
      · exact List.mem_append_left _ (List.mem_append_left _ hc)
      · exact List.mem_append_right _ (ih later)

theorem mem_of_mem_splitAt (h : m ∈ splitAt sep l) (hc : c ∈ m) : c ∈ l := by
  have inside : c ∈ [sep].intercalate (splitAt sep l) := mem_intercalate h hc
  rwa [intercalate_splitAt] at inside

theorem splitAt_intercalate {ls : List (List Char)} (free : ∀ l ∈ ls, sep ∉ l) (ne : ls ≠ []) :
    splitAt sep ([sep].intercalate ls) = ls := by
  rw [splitAt_eq_splitOn, List.splitOn_intercalate sep free ne]

end Gateway.Text
