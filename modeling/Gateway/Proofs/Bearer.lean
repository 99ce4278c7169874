/-
  Gateway.Proofs.Bearer — the header values that bear a token.

  A header value bears a token if it is made of the scheme in any case of its letters, a
  space and the token, with blanks before the scheme, after the space and at the end
  (`Bears`). Scheme and token are visible, so no blank is part of them: trimming the value
  leaves what stands between the first letter of the scheme and the last character of the
  token, the first space in it is the one after the scheme, and trimming the rest leaves
  the token (`Bears.parts`).

  Proved, for any text (`ofHeader_ok_iff_bears`):
  (1) A credential is made of a header value exactly if the value bears its token.
  (2) No value bears two tokens.
  (3) All values that bear none are refused as unauthorized.
-/

import Gateway.Credential
import Gateway.Proofs.Texts

namespace Gateway.Credential

/-! ## Tokens and headers -/

structure IsToken (t : String) : Prop where
  nonempty : 1 ≤ t.utf8ByteSize
  short : t.utf8ByteSize ≤ 512
  visible : ∀ c ∈ t.toList, 0x21 ≤ c.toNat ∧ c.toNat ≤ 0x7E

def Bears (v t : String) : Prop :=
  ∃ w₁ s w₂ w₃ : String, v = w₁ ++ s ++ " " ++ w₂ ++ t ++ w₃ ∧
    Text.allBlank w₁ = true ∧ Text.allBlank w₂ = true ∧ Text.allBlank w₃ = true ∧
    Text.lower s = "bearer" ∧ IsToken t

variable {v t s : String} {c : Credential}

theorem parse_ok_iff : parse t = .ok c ↔ IsToken t ∧ c.token = t := by
  have visible : t.toList.all Text.isVisible = true ↔ ∀ c ∈ t.toList, 0x21 ≤ c.toNat ∧ c.toNat ≤ 0x7E := by
    rw [List.all_eq_true]
    simp only [Text.isVisible_iff]
  have empty : t.isEmpty = true ↔ t.utf8ByteSize = 0 := by
    rw [String.isEmpty_iff, String.utf8ByteSize_eq_zero_iff]
  unfold parse
  by_cases nothing : t.isEmpty = true
  · rw [if_pos nothing]
    exact iff_of_false (fun h => by cases h) fun h => Nat.not_succ_le_zero _ (empty.mp nothing ▸ h.1.nonempty)
  · rw [if_neg nothing]
    by_cases long : maxLength < t.utf8ByteSize
    · rw [if_pos long]
      exact iff_of_false (fun h => by cases h) fun h => Nat.not_le.mpr long h.1.short
    · rw [if_neg long]
      by_cases shown : t.toList.all Text.isVisible = true
      · have token : IsToken t :=
          ⟨Nat.pos_of_ne_zero fun zero => nothing (empty.mpr zero), Nat.not_lt.mp long, visible.mp shown⟩
        rw [if_pos shown, and_iff_right token, Except.ok.injEq]
        exact ⟨fun same => same ▸ rfl, fun same => same ▸ rfl⟩
      · rw [if_neg shown]
        exact iff_of_false (fun h => by cases h) fun h => shown (visible.mpr h.1.visible)

theorem ofHeader_ok_iff : ofHeader v = .ok c ↔
    ∃ word rest, Text.cutAt ' ' (Text.trimRight (Text.trimLeft v.toList)) = some (word, rest) ∧
      Text.lower (String.ofList word) = "bearer" ∧ parse (String.ofList (Text.trimLeft rest)) = .ok c := by
  have letters : ∀ w, Text.sameLetters w scheme = true ↔ Text.lower w = "bearer" := fun w =>
    Text.sameLetters_iff (by decide)
  unfold ofHeader
  cases Text.cutAt ' ' (Text.trimRight (Text.trimLeft v.toList)) with
  | none => exact iff_of_false (fun h => by cases h) fun ⟨_, _, h, _⟩ => by cases h
  | some parts =>
    obtain ⟨word, rest⟩ := parts
    by_cases named : Text.sameLetters (String.ofList word) scheme = true
    · simp only [named, if_true]
      constructor
      · intro parsed
        exact ⟨word, rest, rfl, (letters _).mp named, parsed⟩
      · rintro ⟨_, _, ⟨⟩, -, parsed⟩
        exact parsed
    · simp only [named, Bool.false_eq_true, if_false]
      refine iff_of_false (fun h => by cases h) ?_
      rintro ⟨_, _, ⟨⟩, word, -⟩
      exact named ((letters _).mpr word)

/-! ## Scheme and token are visible -/

theorem IsToken.isVisible (h : IsToken t) : ∀ c ∈ t.toList, Text.isVisible c = true := by
  intro c hc
  exact Text.isVisible_iff.mpr (h.visible c hc)

theorem IsToken.ne_nil (h : IsToken t) : t.toList ≠ [] := by
  intro empty
  have := h.nonempty
  rw [String.toList_eq_nil_iff.mp empty] at this
  cases this

theorem scheme_letters (h : Text.lower s = "bearer") : s.toList.map Char.toLower = "bearer".toList := by
  rw [← h, Text.lower, String.toList_ofList]

theorem scheme_isVisible (h : Text.lower s = "bearer") : ∀ c ∈ s.toList, Text.isVisible c = true := by
  intro c hc
  have letter : c.toLower ∈ "bearer".toList := scheme_letters h ▸ List.mem_map_of_mem hc
  have letters : "bearer".toList.all Text.isVisible = true := by decide
  exact Text.isVisible_of_toLower (List.all_eq_true.mp letters _ letter)

theorem scheme_ne_nil (h : Text.lower s = "bearer") : s.toList ≠ [] := by
  intro empty
  have letters := scheme_letters h
  rw [empty] at letters
  cases letters

/-! ## Reading a header -/

/-- What the trims and the cut make of a value that bears a token, and of no other. -/
theorem bears_iff_parts : Bears v t ↔
    ∃ word rest, Text.cutAt ' ' (Text.trimRight (Text.trimLeft v.toList)) = some (word, rest) ∧
      Text.lower (String.ofList word) = "bearer" ∧ String.ofList (Text.trimLeft rest) = t ∧ IsToken t := by
  constructor
  · intro h
    obtain ⟨w₁, s, w₂, w₃, rfl, blank₁, blank₂, blank₃, named, token⟩ := h
    have trimmed : Text.trimRight (Text.trimLeft (w₁ ++ s ++ " " ++ w₂ ++ t ++ w₃).toList) =
        s.toList ++ ' ' :: (w₂.toList ++ t.toList) := by
      refine (Text.trim_eq_iff (by simp)).mpr ⟨w₁.toList, w₃.toList, ?_, blank₁, blank₃, ?_, ?_⟩
      · simp [String.toList_append]
      · exact Text.starts_of_visible (scheme_ne_nil named) (scheme_isVisible named)
      · have ends := Text.ends_of_visible (a := s.toList ++ ' ' :: w₂.toList) token.ne_nil token.isVisible
        simpa using ends
    have solid : ' ' ∉ s.toList := fun inside => absurd (scheme_isVisible named ' ' inside) (by decide)
    have left : Text.trimLeft (w₂.toList ++ t.toList) = t.toList := by
      refine Text.trimLeft_eq_iff.mpr ⟨w₂.toList, rfl, blank₂, ?_⟩
      have starts := Text.starts_of_visible (b := []) token.ne_nil token.isVisible
      rwa [List.append_nil] at starts
    refine ⟨s.toList, w₂.toList ++ t.toList, Text.cutAt_eq_some_iff.mpr ⟨trimmed, solid⟩, ?_, ?_, token⟩
    · rw [String.ofList_toList]
      exact named
    · rw [left, String.ofList_toList]
  · intro h
    obtain ⟨word, rest, cut, named, rfl, token⟩ := h
    obtain ⟨trimmed, -⟩ := Text.cutAt_eq_some_iff.mp cut
    obtain ⟨w₁, w₃, whole, blank₁, blank₃, -⟩ := (Text.trim_eq_iff (by simp)).mp trimmed
    obtain ⟨w₂, gap, blank₂, -⟩ := Text.trimLeft_eq_iff.mp (rfl : Text.trimLeft rest = _)
    refine ⟨String.ofList w₁, String.ofList word, String.ofList w₂, String.ofList w₃, ?_, ?_, ?_, ?_, named, token⟩
    · rw [← String.toList_inj, whole]
      conv => lhs; rw [gap]
      simp [String.toList_append]
    all_goals
      unfold Text.allBlank
      rw [String.toList_ofList]
      assumption

theorem bears_iff : Bears v t ↔ ofHeader v = .ok ⟨t⟩ := by
  rw [bears_iff_parts, ofHeader_ok_iff]
  constructor
  · intro h
    obtain ⟨word, rest, cut, named, rfl, token⟩ := h
    exact ⟨word, rest, cut, named, parse_ok_iff.mpr ⟨token, rfl⟩⟩
  · intro h
    obtain ⟨word, rest, cut, named, parsed⟩ := h
    obtain ⟨token, rfl⟩ := parse_ok_iff.mp parsed
    exact ⟨word, rest, cut, named, rfl, token⟩

/-- Any text, read as a header value: it gives a credential exactly if it bears the token that
the credential shows, it bears one token at most, and it is refused as unauthorized exactly
if it bears none. -/
theorem ofHeader_ok_iff_bears (v : String) :
    (∀ c, ofHeader v = .ok c ↔ Bears v c.token) ∧ (∀ t t', Bears v t → Bears v t' → t = t') ∧
      ((∃ f, ofHeader v = .error f ∧ f.failure.kind = .unauthorized) ↔ ∀ t, ¬ Bears v t) := by
  refine ⟨fun c => bears_iff.symm, fun t t' h h' => ?_, ?_⟩
  · have same := (bears_iff.mp h).symm.trans (bears_iff.mp h')
    cases same
    rfl
  · constructor
    · intro refused t bears
      obtain ⟨f, error, -⟩ := refused
      rw [bears_iff.mp bears] at error
      cases error
    · intro bare
      cases read : ofHeader v with
      | error f => exact ⟨f, rfl, rfl⟩
      | ok c => exact absurd (bears_iff.mpr read) (bare c.token)

/-- Blanks of any kind stand before the scheme, after the space and at the end, but right after
the scheme stands a space and no other. -/
theorem blank_header_bears :
    Bears "\u2003bEaReR \t\u00a0t.1~\u3000\n" "t.1~" ∧
      ofHeader "\u2003bEaReR \t\u00a0t.1~\u3000\n" = .ok ⟨"t.1~"⟩ ∧ ∀ t, ¬ Bears "Bearer\tt.1~" t := by
  have token : IsToken "t.1~" := (parse_ok_iff.mp (by decide : parse "t.1~" = .ok ⟨"t.1~"⟩)).1
  have bears : Bears "\u2003bEaReR \t\u00a0t.1~\u3000\n" "t.1~" :=
    ⟨"\u2003", "bEaReR", "\t\u00a0", "\u3000\n", rfl, by decide, by decide, by decide, by decide, token⟩
  exact ⟨bears, ((ofHeader_ok_iff_bears _).1 ⟨"t.1~"⟩).mpr bears,
    (ofHeader_ok_iff_bears _).2.2.mp ⟨.wrongScheme, by decide, rfl⟩⟩

end Gateway.Credential
