/-
  Gateway.Proofs.Windows — fixed windows divide time.

  Words bound a window on both sides, and a wide one might be cut off there. It is not:
  around an instant of the calendar a window either starts within its own width of the
  epoch, or is no wider than the calendar. So the bounds are the exact multiples of the
  width (`start_eq`, `stop_eq`), and a key is that of another instant exactly if the
  instant lies between them (`around_iff`).

  A width that has a key at one instant has one at every instant (`containing_elsewhere`),
  and where a window ends the next one starts (`containing_stop`). So the windows of one
  budget divide the calendar, before the epoch as after it (`windows_partition`).
-/

import Gateway.Window
import Gateway.Proofs.Marks

namespace Gateway

namespace WindowKey

structure Around (k : WindowKey) (now : Instant) : Prop where
  narrow : 0 < k.width
  wide : (k.width : Int) ≤ Word.greatest
  index : k.index = now / k.width

variable {k : WindowKey} {t now : Instant} {p : AccountId} {o : Operation} {w : Span}

theorem around_of_containing (h : containing p o w now = .ok k) : k.Around now := by
  obtain ⟨narrow, wide, rfl⟩ := containing_ok.mp h
  exact ⟨narrow, wide, rfl⟩

theorem width_of_containing (h : containing p o w now = .ok k) : k.width = w.millis := by
  rw [(containing_ok.mp h).2.2]

/-! ## Bounds -/

theorem start_eq (h : k.Around t) (ht : t.InRange) : k.start = k.index * k.width := by
  obtain ⟨lower, upper, -⟩ := Word.multiples h.narrow h.wide ht
  unfold start
  rw [h.index]
  exact Word.clamp_of_word lower upper

theorem stop_eq (h : k.Around t) (ht : t.InRange) : k.stop = k.index * k.width + k.width := by
  obtain ⟨-, -, lower, upper⟩ := Word.multiples h.narrow h.wide ht
  unfold stop
  rw [start_eq h ht, h.index]
  exact Word.clamp_of_word lower upper

theorem stop_eq_succ_mul (h : k.Around t) (ht : t.InRange) : k.stop = (k.index + 1) * k.width := by
  rw [stop_eq h ht, Int.add_mul, Int.one_mul]

/-- A key of one instant is that of another exactly if this lies in its window. -/
theorem around_iff (h : k.Around t) (ht : t.InRange) : k.Around now ↔ k.start ≤ now ∧ now < k.stop := by
  have positive : (0 : Int) < k.width := Int.natCast_pos.mpr h.narrow
  rw [start_eq h ht, stop_eq_succ_mul h ht, ← Int.le_ediv_iff_mul_le positive, ← Int.ediv_lt_iff_lt_mul positive,
    Int.lt_add_one_iff, ← Int.le_antisymm_iff]
  exact ⟨Around.index, fun index => ⟨h.narrow, h.wide, index⟩⟩

theorem Around.start_le (h : k.Around t) (ht : t.InRange) : k.start ≤ t := ((around_iff h ht).mp h).1

theorem Around.lt_stop (h : k.Around t) (ht : t.InRange) : t < k.stop := ((around_iff h ht).mp h).2

theorem Around.stop_sub_start (h : k.Around t) (ht : t.InRange) : k.stop - k.start = k.width := by
  rw [stop_eq h ht, start_eq h ht]
  omega

/-- A window has ended a width after any of its instants. -/
theorem Around.stop_le (h : k.Around t) (ht : t.InRange) : k.stop ≤ t + k.width := by
  rw [stop_eq h ht, ← start_eq h ht]
  exact Int.add_le_add_right (h.start_le ht) _

/-! ## Other windows of the budget -/

/-- Whether a budget has keys depends on its width alone. -/
theorem containing_elsewhere (h : containing p o w t = .ok k) (now : Instant) :
    containing p o w now = .ok { k with index := now / k.width } := by
  obtain ⟨narrow, wide, rfl⟩ := containing_ok.mp h
  exact containing_ok.mpr ⟨narrow, wide, rfl⟩

theorem Around.eq_iff (h : k.Around t) : k = { k with index := now / k.width } ↔ k.Around now := by
  constructor
  · intro same
    exact ⟨h.narrow, h.wide, congrArg WindowKey.index same⟩
  · intro on
    rw [← on.index]

/-- Windows are numbered in the order of time. -/
theorem Around.index_le (h : k.Around t) (later : t ≤ now) : k.index ≤ now / k.width := by
  rw [h.index]
  exact Int.ediv_le_ediv (Int.natCast_pos.mpr h.narrow) later

/-- Once a window has ended, it is the turn of a later one. -/
theorem Around.lt_index (h : k.Around t) (ht : t.InRange) (ended : k.stop ≤ now) : k.index < now / k.width := by
  rw [stop_eq_succ_mul h ht] at ended
  exact (Int.le_ediv_iff_mul_le (Int.natCast_pos.mpr h.narrow)).mpr ended

/-- Where a window ends, the next one starts. -/
theorem containing_stop (h : containing p o w t = .ok k) (ht : t.InRange) :
    containing p o w k.stop = .ok { k with index := k.index + 1 } := by
  have on := around_of_containing h
  have next : k.stop / k.width = k.index + 1 := by
    rw [stop_eq_succ_mul on ht]
    exact Int.mul_ediv_cancel _ (Int.natCast_ne_zero.mpr (Nat.ne_of_gt on.narrow))
  rw [containing_elsewhere h, next]

/-- The windows of a budget divide the calendar. For any width that is accepted at one of its
instants: the window around this instant holds it, is as long as the width in whole
milliseconds, and starts at a multiple of it. At any other instant the budget has a key as
well; later instants have no earlier windows, and two instants have the same key exactly
if one lies in the window of the other. And the window has ended where the next begins. -/
theorem windows_partition {a b : Instant} (ha : a.InRange) (hk : containing p o w a = .ok k) :
    ((k.start ≤ a ∧ a < k.stop) ∧ k.stop - k.start = w.millis ∧ (w.millis : Int) ∣ k.start) ∧
      (∃ l, containing p o w b = .ok l ∧ (a ≤ b → k.index ≤ l.index) ∧ (b ≤ a → l.index ≤ k.index) ∧
        (k = l ↔ k.start ≤ b ∧ b < k.stop)) ∧
      (Instant.InRange k.stop → ∃ m, containing p o w k.stop = .ok m ∧ m.index = k.index + 1 ∧ m.start = k.stop) := by
  have on := around_of_containing hk
  have width := width_of_containing hk
  rw [← width]
  refine ⟨⟨⟨on.start_le ha, on.lt_stop ha⟩, on.stop_sub_start ha, ?_⟩, ?_, fun inRange => ?_⟩
  · rw [start_eq on ha]
    exact Int.dvd_mul_left _ _
  · have elsewhere := containing_elsewhere hk b
    refine ⟨_, elsewhere, on.index_le, fun earlier => ?_, ?_⟩
    · have back := (around_of_containing elsewhere).index_le earlier
      rwa [← on.index] at back
    · rw [on.eq_iff]
      exact around_iff on ha
  · have next := containing_stop hk ha
    refine ⟨_, next, rfl, ?_⟩
    rw [start_eq (around_of_containing next) inRange]
    exact (stop_eq_succ_mul on ha).symm

def widest (n : Int) : WindowKey := ⟨"acct", .read, 9223372036854775807, n⟩

/-- The widest window before the epoch starts at the least word but one, and ends where the
widest one after the epoch starts. -/
theorem widest_partition :
    containing ⟨"acct"⟩ .read (.ofMillis 9223372036854775807) (-1) = .ok (widest (-1)) ∧ (-1 : Instant).InRange ∧
      (widest (-1)).start = -9223372036854775807 ∧ (widest (-1)).stop = 0 ∧
      ∃ m, containing ⟨"acct"⟩ .read (.ofMillis 9223372036854775807) 0 = .ok m ∧ m.index = 0 ∧ m.start = 0 := by
  have key : containing ⟨"acct"⟩ .read (.ofMillis 9223372036854775807) (-1) = .ok (widest (-1)) := rfl
  have before : (-1 : Instant).InRange := by decide
  have epoch : Instant.InRange 0 := by decide
  exact ⟨key, before, by decide, by decide, (windows_partition (b := 0) before key).2.2 epoch⟩

end WindowKey

end Gateway
