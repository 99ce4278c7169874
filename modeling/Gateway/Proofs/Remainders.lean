/-
  Gateway.Proofs.Remainders — what is left of a window, and how long the rejected wait.

  The bounds of a window are exact, and so is what is left of it wherever the difference
  is a word. It can only be too great for one: by a window that starts at the epoch, is
  nearly as wide as words go, and is looked at from before the epoch (`lt_left_iff`). Then
  the subtraction fails, and with it whoever wants to know the wait.

  Proved, for a window around any instant of the calendar, looked at from any other:
  (1) What is left is told exactly if the difference fits in a word, and not at all if it
      does not (`remaining_of_word`, `remaining_of_overflow`).
  (2) Which of the two, by the width and the two instants, and that the seconds to wait are
      exact in the one case and fail in the other (`wait_exact_iff`).
  Trace: a clock that is set back before the epoch makes a wait of millions of years one
  that is never told (`a_clock_set_back_overflows`).
-/

import Gateway.Decision
import Gateway.Proofs.Windows

namespace Gateway

/-! ## Differences of words -/

namespace Word

variable {x y : Int}

theorem sub_of_word (lower : least ≤ x - y) (upper : x - y ≤ greatest) : sub x y = .ok (x - y) :=
  if_pos ⟨lower, upper⟩

theorem sub_of_overflow (above : greatest < x - y) : sub x y = .error .overflow :=
  if_neg fun word => Int.not_le.mpr above word.2

end Word

namespace WindowKey

variable {k : WindowKey} {t now : Int}

/-! ## (1) What is left -/

theorem remaining_of_word (lower : Word.least ≤ k.stop - now) (upper : k.stop - now ≤ Word.greatest) :
    k.remaining now = .ok (Span.ofMillis (k.stop - now).toNat) := by
  unfold remaining
  rw [Word.sub_of_word lower upper]
  rfl

theorem remaining_of_overflow (above : Word.greatest < k.stop - now) : k.remaining now = .error .overflow := by
  unfold remaining
  rw [Word.sub_of_overflow above]
  rfl

/-- No window of the calendar ended longer ago than a word tells. -/
theorem least_le_left (h : k.Around t) (ht : Instant.InRange t) (hn : Instant.InRange now) :
    Word.least ≤ k.stop - now := by
  have after : t < k.stop := h.lt_stop ht
  have := Instant.bounds ht
  have := Instant.bounds hn
  unfold Word.least
  omega

/-- More is left than a word holds, exactly if the window was entered after the epoch and is
so much wider than that from where it is looked at. -/
theorem lt_left_iff (h : k.Around t) (ht : Instant.InRange t) (hn : Instant.InRange now) :
    Word.greatest < k.stop - now ↔ 0 ≤ t ∧ Word.greatest < k.width - now := by
  have positive : (0 : Int) < k.width := Int.natCast_pos.mpr h.narrow
  have ends : k.stop ≤ t + k.width := h.stop_le ht
  have := Instant.bounds ht
  have := Instant.bounds hn
  by_cases before : t < 0
  · -- the window ends at the epoch at the latest
    have negative : k.index < 0 := by rw [h.index]; exact Int.ediv_neg_of_neg_of_pos before positive
    have early : k.stop ≤ 0 := by
      rw [stop_eq_succ_mul h ht]
      exact Int.mul_nonpos_of_nonpos_of_nonneg negative (Int.le_of_lt positive)
    unfold Word.greatest
    omega
  · by_cases first : t < k.width
    · have zero : k.index = 0 := by rw [h.index]; exact Int.ediv_eq_zero_of_lt (Int.not_lt.mp before) first
      have whole : k.stop = k.width := by rw [stop_eq h ht, zero, Int.zero_mul, Int.zero_add]
      rw [whole]
      exact (and_iff_right (Int.not_lt.mp before)).symm
    · -- the window is no wider than the calendar
      unfold Word.greatest
      omega

/-! ## (2) How long to wait -/

/-- The seconds until the window ends, rounded up, and at least one. -/
def wait (k : WindowKey) (now : Int) : Int := max 1 ((k.stop - now + 999) / 1000)

end WindowKey

namespace Decision

variable {d : Decision} {now : Int}

theorem retryAfter_of_word (rejected : d.limit < d.count) (lower : Word.least ≤ d.key.stop - now)
    (upper : d.key.stop - now ≤ Word.greatest) :
    ∃ s, d.retryAfter now = .ok (some s) ∧ (s : Int) = d.key.wait now := by
  rw [retryAfter_rejected rejected, WindowKey.remaining_of_word lower upper]
  refine ⟨_, rfl, ?_⟩
  rw [Span.millis_ofMillis]
  unfold WindowKey.wait
  omega

theorem retryAfter_of_overflow (rejected : d.limit < d.count) (above : Word.greatest < d.key.stop - now) :
    d.retryAfter now = .error .overflow := by
  rw [retryAfter_rejected rejected, WindowKey.remaining_of_overflow above]
  rfl

/-- Only the rejected are told a wait. -/
theorem limit_lt_of_retryAfter {s : Nat} (h : d.retryAfter now = .ok (some s)) : d.limit < d.count := by
  refine Nat.not_le.mp fun within => ?_
  rw [retryAfter_admitted within] at h
  cases h

end Decision

namespace WindowKey

variable {k : WindowKey} {t now : Int} {p : AccountId} {o : Operation} {w : Span}

/-- For any width that is accepted, any instant of the calendar that a window is around, and any
other that it is looked at from, earlier or later: the bounds of the window are not cut
off, and the difference from its end is a word exactly unless the window was entered after
the epoch and is looked at from before it, by more than the width is below the greatest
word. Then what is left and the seconds to wait are exact, and else the subtraction
overflows, and neither is told. -/
theorem wait_exact_iff (hk : containing p o w t = .ok k) (ht : Instant.InRange t) (hn : Instant.InRange now) :
    let fits := t < 0 ∨ w.millis - now ≤ Word.greatest
    (k.start = k.index * k.width ∧ k.stop = k.index * k.width + k.width) ∧
      (Word.least ≤ k.stop - now ∧ k.stop - now ≤ Word.greatest ↔ fits) ∧
      (k.remaining now = .ok (Span.ofMillis (k.stop - now).toNat) ↔ fits) ∧
      (k.remaining now = .error .overflow ↔ ¬ fits) ∧
      ∀ d : Decision, d.key = k → d.limit < d.count →
        ((∃ s, d.retryAfter now = .ok (some s) ∧ (s : Int) = k.wait now) ↔ fits) ∧
          (d.retryAfter now = .error .overflow ↔ ¬ fits) := by
  intro fits
  have on := around_of_containing hk
  have lower := least_le_left on ht hn
  have overflows : Word.greatest < k.stop - now ↔ ¬ fits := by
    rw [lt_left_iff on ht hn, width_of_containing hk, not_or, Int.not_lt, Int.not_le]
  refine ⟨⟨start_eq on ht, stop_eq on ht⟩, ?_⟩
  by_cases hf : fits
  · have upper : k.stop - now ≤ Word.greatest := Int.not_lt.mp fun above => overflows.mp above hf
    have left := remaining_of_word lower upper
    refine ⟨iff_of_true ⟨lower, upper⟩ hf, iff_of_true left hf,
      iff_of_false (fun h => by rw [left] at h; cases h) (fun short => short hf), fun d hd rejected => ?_⟩
    subst hd
    obtain ⟨s, told, is⟩ := Decision.retryAfter_of_word rejected lower upper
    exact ⟨iff_of_true ⟨s, told, is⟩ hf,
      iff_of_false (fun h => by rw [told] at h; cases h) (fun short => short hf)⟩
  · have above := overflows.mpr hf
    have left := remaining_of_overflow above
    refine ⟨iff_of_false (fun word => Int.not_le.mpr above word.2) hf,
      iff_of_false (fun h => by rw [left] at h; cases h) hf, iff_of_true left hf, fun d hd rejected => ?_⟩
    subst hd
    have told := Decision.retryAfter_of_overflow rejected above
    exact ⟨iff_of_false (fun ⟨s, h, _⟩ => by rw [told] at h; cases h) hf, iff_of_true told hf⟩

/-- From the epoch on, the wait until the widest window ends is exact. -/
theorem widest_wait : containing ⟨"acct"⟩ .read (.ofMillis 9223372036854775807) 0 = .ok (widest 0) ∧
    Instant.InRange 0 ∧
      ∃ s, (⟨widest 0, 2, 1, .shared⟩ : Decision).retryAfter 0 = .ok (some s) ∧ (s : Int) = (widest 0).wait 0 := by
  have key : containing ⟨"acct"⟩ .read (.ofMillis 9223372036854775807) 0 = .ok (widest 0) := rfl
  have epoch : Instant.InRange 0 := by decide
  have waits := ((wait_exact_iff key epoch epoch).2.2.2.2 ⟨widest 0, 2, 1, .shared⟩ rfl (by decide)).1
  exact ⟨key, epoch, waits.mpr (Or.inr (by decide))⟩

/-- From a millisecond before the epoch 2^63 ms are left of it. That is no word, so neither what
is left nor the wait is told. -/
theorem a_clock_set_back_overflows :
    containing ⟨"acct"⟩ .read (.ofMillis 9223372036854775807) 0 = .ok (widest 0) ∧ Instant.InRange 0 ∧
      Instant.InRange (-1) ∧ (widest 0).stop - (-1) = 9223372036854775808 ∧ Word.greatest = 9223372036854775807 ∧
      (widest 0).remaining (-1) = .error .overflow ∧ (widest 0).wait (-1) = 9223372036854776 ∧
      (⟨widest 0, 2, 1, .shared⟩ : Decision).retryAfter (-1) = .error .overflow := by
  refine ⟨rfl, by decide, by decide, by decide, rfl, by rfl, by decide, by rfl⟩

end WindowKey

end Gateway
