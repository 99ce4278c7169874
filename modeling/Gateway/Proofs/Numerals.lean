/-
  Gateway.Proofs.Numerals — what numerals are read as.

  Digits are written from a number's last digit off its end, and read from the left with
  the number so far carried along. So the number read of all digits but the last is the
  tenth of the number, and every number met on the way is within the bound that the
  number itself is within: a bound that is passed on the way is passed at the end.

  Proved: a written number reads back as itself (`signed_toString`), and an unsigned numeral
  is read exactly as the number that its digits make, if that is within the bound
  (`unsigned_eq_ok`).
-/

import Gateway.Numeral

namespace Gateway.Numeral

variable {limit n d : Nat} {beyond : Fault}

theorem digit?_digitChar (h : d < 10) : digit? d.digitChar = some d := by
  have all : ∀ e : Fin 10, digit? (e : Nat).digitChar = some e := by decide
  exact all ⟨d, h⟩

theorem digits_append (l r : List Char) :
    digits limit beyond n (l ++ r) = (digits limit beyond n l).bind fun m => digits limit beyond m r := by
  induction l generalizing n with
  | nil => rfl
  | cons c l ih =>
    rw [List.cons_append, digits, digits]
    split
    · rfl
    · split
      · rfl
      · exact ih

/-- By the digits: the last one comes off, and what is left is smaller. -/
theorem digits_toDigits (h : n ≤ limit) : digits limit beyond 0 (Nat.toDigits 10 n) = .ok n := by
  induction n using Nat.strongRecOn with
  | ind n ih =>
    by_cases one : n < 10
    · rw [Nat.toDigits_of_lt_base one, digits, digit?_digitChar one]
      simp only [Nat.mul_zero, Nat.zero_add, if_neg (Nat.not_lt.mpr h), digits]
    · have parts : Nat.toDigits 10 n = Nat.toDigits 10 (n / 10) ++ [(n % 10).digitChar] :=
        Nat.toDigits_of_base_le (by decide) (Nat.not_lt.mp one)
      have back : 10 * (n / 10) + n % 10 = n := Nat.div_add_mod n 10
      rw [parts, digits_append, ih (n / 10) (by omega) (by omega)]
      show digits limit beyond (n / 10) [(n % 10).digitChar] = .ok n
      rw [digits, digit?_digitChar (Nat.mod_lt n (by decide))]
      simp only [back, if_neg (Nat.not_lt.mpr h), digits]

/-- The first character of a written number is a digit. -/
theorem toString_eq_cons (n : Nat) : ∃ c r, (toString n).toList = c :: r ∧ c.isDigit = true := by
  rw [Nat.toString_eq_repr, Nat.toList_repr]
  cases h : Nat.toDigits 10 n with
  | nil => exact absurd h Nat.toDigits_ne_nil
  | cons c r => exact ⟨c, r, rfl, Nat.isDigit_of_mem_toDigits (by decide) (by decide) (h ▸ List.mem_cons_self)⟩

theorem unsignedChars_of_digit {c : Char} (digit : c.isDigit = true) (r : List Char) :
    unsignedChars limit (c :: r) = digits limit .tooLarge 0 (c :: r) := by
  have plus : c ≠ '+' := by rintro rfl; exact absurd digit (by decide)
  unfold unsignedChars
  split
  · rename_i e
    cases e
  · rename_i e
    exact absurd (List.cons.inj e).1 plus
  · rename_i e
    exact absurd (List.cons.inj e).1 plus
  · rfl

theorem signed_toString (h : n ≤ limit) : signed limit (toString n) = .ok (n : Int) := by
  obtain ⟨c, r, chars, digit⟩ := toString_eq_cons n
  have minus : c ≠ '-' := by rintro rfl; exact absurd digit (by decide)
  have read : digits limit .tooLarge 0 (c :: r) = .ok n := by
    rw [← chars, Nat.toString_eq_repr, Nat.toList_repr]
    exact digits_toDigits h
  unfold signed
  rw [chars]
  split
  · rename_i e
    exact absurd (List.cons.inj e).1 minus
  · rename_i e
    exact absurd (List.cons.inj e).1 minus
  · rw [unsignedChars_of_digit digit, read]
    rfl

/-! ## Unsigned numerals -/

/-- One or more digits, after a plus sign or none, that make the number. -/
inductive Denotes : List Char → Nat → Prop where
  | bare {l : List Char} : l ≠ [] → (∀ c ∈ l, c.isDigit = true) → Denotes l (Nat.ofDigitChars 10 l 0)
  | plus {l : List Char} : l ≠ [] → (∀ c ∈ l, c.isDigit = true) → Denotes ('+' :: l) (Nat.ofDigitChars 10 l 0)

variable {c : Char} {l : List Char} {m : Nat} {s : String}

theorem digit?_of_isDigit (h : c.isDigit = true) : digit? c = some (c.toNat - '0'.toNat) :=
  if_pos (Char.isDigit_iff_toNat.mp h)

theorem digit?_eq_none (h : ¬ c.isDigit = true) : digit? c = none :=
  if_neg fun bounds => h (Char.isDigit_iff_toNat.mpr bounds)

theorem le_ofDigitChars (n : Nat) (l : List Char) : n ≤ Nat.ofDigitChars 10 l n := by
  induction l generalizing n with
  | nil => exact Nat.le_refl n
  | cons c l ih =>
    rw [Nat.ofDigitChars_cons]
    have := ih (10 * n + (c.toNat - '0'.toNat))
    omega

theorem digits_eq_ok (small : n ≤ limit) : digits limit beyond n l = .ok m ↔
    (∀ c ∈ l, c.isDigit = true) ∧ m = Nat.ofDigitChars 10 l n ∧ m ≤ limit := by
  induction l generalizing n with
  | nil =>
    rw [digits, Except.ok.injEq, Nat.ofDigitChars_nil]
    constructor
    · rintro rfl
      exact ⟨fun _ h => (nomatch h), rfl, small⟩
    · rintro ⟨-, rfl, -⟩
      rfl
  | cons c l ih =>
    rw [digits, Nat.ofDigitChars_cons, List.forall_mem_cons]
    by_cases digit : c.isDigit = true
    · have grows := le_ofDigitChars (10 * n + (c.toNat - '0'.toNat)) l
      simp only [digit?_of_isDigit digit, digit, true_and]
      by_cases passed : limit < 10 * n + (c.toNat - '0'.toNat)
      · rw [if_pos passed]
        exact iff_of_false (fun h => by cases h) fun h => by omega
      · rw [if_neg passed, ih (Nat.not_lt.mp passed)]
    · simp only [digit?_eq_none digit]
      exact iff_of_false (fun h => by cases h) fun h => digit h.1.1

theorem unsignedChars_eq_ok : unsignedChars limit l = .ok n ↔ Denotes l n ∧ n ≤ limit := by
  have read : ∀ {l}, digits limit .tooLarge 0 l = .ok n ↔ (∀ c ∈ l, c.isDigit = true) ∧
      n = Nat.ofDigitChars 10 l 0 ∧ n ≤ limit := fun {l} => digits_eq_ok (Nat.zero_le limit)
  unfold unsignedChars
  split
  · refine iff_of_false (fun h => by cases h) ?_
    rintro ⟨denotes, -⟩
    cases denotes with
    | bare some _ => exact some rfl
  · refine iff_of_false (fun h => by cases h) ?_
    rintro ⟨denotes, -⟩
    cases denotes with
    | bare _ digits => exact absurd (digits '+' List.mem_cons_self) (by decide)
    | plus some _ => exact some rfl
  · rename_i r more
    rw [read]
    constructor
    · rintro ⟨digits, rfl, small⟩
      exact ⟨.plus more digits, small⟩
    · rintro ⟨denotes, small⟩
      cases denotes with
      | bare _ digits => exact absurd (digits '+' List.mem_cons_self) (by decide)
      | plus _ digits => exact ⟨digits, rfl, small⟩
  · rename_i some _ signless
    rw [read]
    constructor
    · rintro ⟨digits, rfl, small⟩
      exact ⟨.bare some digits, small⟩
    · rintro ⟨denotes, small⟩
      cases denotes with
      | bare _ digits => exact ⟨digits, rfl, small⟩
      | plus _ _ => exact absurd rfl (signless _)

theorem unsigned_eq_ok : unsigned limit s = .ok n ↔ Denotes s.toList n ∧ n ≤ limit := unsignedChars_eq_ok

end Gateway.Numeral
