/-
  Gateway.Proofs.Marks — what a mark of the shared store's health says.

  Within the calendar neither the mark nor the sum that it stands for reaches the bounds
  of a word, however long the cool-down is. So a mark set at an instant of the calendar
  is never mistaken for that of a store that is well, and is passed exactly from that
  instant plus the cool-down on. Nor do the bounds cut off a window around an instant of
  the calendar, however wide it is.
-/

import Gateway.Health

namespace Gateway

/-! ## Sums of words -/

/-- So far from the bounds of a word, cutting off does not matter. -/
theorem Word.clamp_le_iff {b n : Int} (d : Nat) (hb : -8334601228800000 ≤ b ∧ b ≤ 8210266876799999)
    (hn : -8334601228800000 ≤ n ∧ n ≤ 8210266876799999) : Word.clamp (b + Word.clamp d) ≤ n ↔ b + d ≤ n := by
  unfold Word.clamp Word.least Word.greatest
  omega

theorem Word.least_lt_clamp {b : Int} (d : Nat) (hb : -8334601228800000 ≤ b) :
    Word.least < Word.clamp (b + Word.clamp d) := by
  unfold Word.clamp Word.least Word.greatest
  omega

theorem Word.lt_clamp_add {n c : Int} (positive : 0 < c) (hn : n ≤ 8210266876799999) : n < Word.clamp (n + c) := by
  unfold Word.clamp Word.least Word.greatest
  omega

theorem Word.clamp_le_clamp {x y : Int} (h : x ≤ y) : Word.clamp x ≤ Word.clamp y := by
  unfold Word.clamp
  omega

theorem Word.clamp_of_word {x : Int} (lower : least ≤ x) (upper : x ≤ greatest) : clamp x = x := by
  unfold clamp
  omega

/-- The multiple below `n` and the one above it are words. -/
theorem Word.multiples {n : Int} {w : Nat} (positive : 0 < w) (fits : (w : Int) ≤ Word.greatest)
    (hn : -8334601228800000 ≤ n ∧ n ≤ 8210266876799999) :
    Word.least ≤ n / w * w ∧ n / w * w ≤ Word.greatest ∧ Word.least ≤ n / w * w + w ∧ n / w * w + w ≤ Word.greatest := by
  have positive : (0 : Int) < w := Int.natCast_pos.mpr positive
  have below : n / w * w ≤ n := Int.ediv_mul_le n (Int.ne_of_gt positive)
  have above : n < (n / w + 1) * w := Int.lt_ediv_add_one_mul_self n positive
  rw [Int.add_mul, Int.one_mul] at above
  -- the window starts at the epoch or one width off it, or it is narrower than the calendar
  have near : n / w * w = 0 ∨ n / w * w = -(w : Int) ∨ (w : Int) ≤ 8334601228800000 := by
    rcases Int.lt_trichotomy (n / w) 0 with negative | zero | positive'
    · by_cases one : n / w = -1
      · exact Or.inr (Or.inl (by rw [one, Int.neg_mul, Int.one_mul]))
      · have := Int.mul_le_mul_of_nonneg_right (show n / w ≤ -2 by omega) (Int.le_of_lt positive)
        exact Or.inr (Or.inr (by omega))
    · exact Or.inl (by rw [zero, Int.zero_mul])
    · have := Int.mul_le_mul_of_nonneg_right (show (1 : Int) ≤ n / w by omega) (Int.le_of_lt positive)
      exact Or.inr (Or.inr (by omega))
  unfold Word.greatest at fits
  unfold Word.least Word.greatest
  generalize n / w * w = m at *
  omega

namespace Health

variable {h : Health} {d : Nat} {b n : Instant}

/-! ## Marks -/

theorem deadline_le_iff (hc : h.cooldown = Word.clamp d) (hb : b.InRange) (hn : n.InRange) :
    h.deadline b ≤ n ↔ b + d ≤ n := by
  unfold deadline
  rw [hc]
  exact Word.clamp_le_iff d hb hn

theorem deadline_ne_well (hc : h.cooldown = Word.clamp d) (hb : b.InRange) : h.deadline b ≠ well := by
  unfold deadline
  rw [hc]
  exact (Int.ne_of_lt (Word.least_lt_clamp d hb.1)).symm

/-- A mark lies after the instant at which it is set. -/
theorem lt_deadline (cools : 0 < h.cooldown) (hn : n.InRange) : n < h.deadline n :=
  Word.lt_clamp_add cools hn.2

theorem least_lt_of_inRange (hn : n.InRange) : Word.least < n :=
  Int.lt_of_lt_of_le (by decide) hn.1

/-! ## Single steps -/

theorem read_eq_free_iff : h.read n = .free ↔ h.mark = well := by
  unfold read
  by_cases hw : h.mark = well
  · rw [if_pos hw]
    exact iff_of_true rfl hw
  · rw [if_neg hw]
    refine iff_of_false (fun w => ?_) hw
    split at w <;> cases w

theorem read_eq_contend_iff {m : Int} : h.read n = .contend m ↔ h.mark = m ∧ m ≠ well ∧ m ≤ n := by
  unfold read
  by_cases hw : h.mark = well
  · rw [if_pos hw]
    exact iff_of_false (fun w => Reading.noConfusion w) fun w => w.2.1 (w.1.symm.trans hw)
  · rw [if_neg hw]
    by_cases early : n < h.mark
    · rw [if_pos early]
      exact iff_of_false (fun w => Reading.noConfusion w) fun w => Int.not_le.mpr early (w.1 ▸ w.2.2)
    · rw [if_neg early, Reading.contend.injEq]
      exact ⟨fun e => ⟨e, e ▸ hw, e ▸ Int.not_lt.mp early⟩, And.left⟩

@[simp] theorem exchange_failures (h : Health) (m : Int) (n : Instant) : (h.exchange m n).2.failures = h.failures := by
  unfold exchange
  split <;> rfl

@[simp] theorem exchange_cooldown (h : Health) (m : Int) (n : Instant) : (h.exchange m n).2.cooldown = h.cooldown := by
  unfold exchange
  split <;> rfl

/-- An exchange moves a mark and sets or clears none. -/
theorem exchange_well_iff {m : Int} (hc : h.cooldown = Word.clamp d) (hn : n.InRange) (hm : m ≠ well) :
    (h.exchange m n).2.mark = well ↔ h.mark = well := by
  unfold exchange
  split
  · rename_i e
    exact iff_of_false (deadline_ne_well hc hn) fun w => hm (e.symm.trans w)
  · exact Iff.rfl

/-! ## Probes -/

theorem probe_well (hm : h.mark = well) (n : Instant) : h.probe n = (true, h) := by
  simp only [probe, read, hm, if_true]

/-- While the mark stands, whoever comes before its time keeps away and leaves it as it is. -/
theorem probe_marked (hc : h.cooldown = Word.clamp d) (hm : h.mark = h.deadline b) (hb : b.InRange)
    (hn : n.InRange) : h.probe n = if b + d ≤ n then (true, { h with mark := h.deadline n }) else (false, h) := by
  have marked : h.mark ≠ well := by rw [hm]; exact deadline_ne_well hc hb
  have passed : h.mark ≤ n ↔ b + d ≤ n := by rw [hm]; exact deadline_le_iff hc hb hn
  unfold probe read
  rw [if_neg marked]
  by_cases hl : b + d ≤ n
  · rw [if_neg (Int.not_lt.mpr (passed.mpr hl)), if_pos hl]
    simp only [exchange, if_true]
  · rw [if_pos (Int.not_le.mp fun hm => hl (passed.mp hm)), if_neg hl]

/-- Whoever keeps away leaves the mark as it is. -/
theorem probe_skipped (hp : (h.probe n).1 = false) : (h.probe n).2 = h := by
  unfold probe at hp ⊢
  cases hr : h.read n with
  | free => rfl
  | skip => rfl
  | contend m =>
    rw [hr] at hp
    unfold exchange at hp ⊢
    by_cases hm : h.mark = m
    · simp [hm] at hp
    · simp [hm]

@[simp] theorem probe_cooldown (h : Health) (n : Instant) : (h.probe n).2.cooldown = h.cooldown := by
  unfold probe
  cases h.read n with
  | free => rfl
  | skip => rfl
  | contend m => exact exchange_cooldown h m n

@[simp] theorem probe_failures (h : Health) (n : Instant) : (h.probe n).2.failures = h.failures := by
  unfold probe
  cases h.read n with
  | free => rfl
  | skip => rfl
  | contend m => exact exchange_failures h m n

theorem probe_well_iff (hc : h.cooldown = Word.clamp d) (hn : n.InRange) :
    (h.probe n).2.mark = well ↔ h.mark = well := by
  unfold probe
  cases hr : h.read n with
  | free => exact Iff.rfl
  | skip => exact Iff.rfl
  | contend m => exact exchange_well_iff hc hn (read_eq_contend_iff.mp hr).2.1

/-- After a failure the store is kept away from until the cool-down has passed. -/
theorem probe_failed (hc : h.cooldown = Word.clamp d) (hb : b.InRange) (hn : n.InRange) :
    (((h.probe b).2.failed b).2.probe n).1 = true ↔ b + d ≤ n := by
  have cools : ((h.probe b).2.failed b).2.cooldown = Word.clamp d := (probe_cooldown h b).trans hc
  have mark : ((h.probe b).2.failed b).2.mark = ((h.probe b).2.failed b).2.deadline b := rfl
  rw [probe_marked cools mark hb hn]
  by_cases ht : b + d ≤ n
  · rw [if_pos ht]
    exact iff_of_true rfl ht
  · rw [if_neg ht]
    exact iff_of_false Bool.false_ne_true ht

end Health

end Gateway
