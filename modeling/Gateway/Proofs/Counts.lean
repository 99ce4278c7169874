/-
  Gateway.Proofs.Counts — what recording and sweeping do to the count of a key.

  Keys that differ are counted apart, since their names differ. Recording counts one more,
  up to the greatest word; a sweep takes the counts of exactly the keys whose windows have
  ended, as long as every counter closes with its window (`Dated`).
-/

import Gateway.Counters
import Gateway.Proofs.CounterNames

namespace Gateway.Counters

def Dated (c : Counters) : Prop := ∀ k w, c.windows.get? (WindowKey.storageName k) = some w → w.closes = k.stop

theorem dated_empty : Dated empty := fun _ _ h => by cases h

/-! ## Recording -/

theorem record_fst (c : Counters) (k : WindowKey) : (c.record k).1 = min (c.count k + 1) Word.top := by
  unfold record count
  cases c.windows.get? k.storageName <;> rfl

theorem record_windows (c : Counters) (k j : WindowKey) :
    (c.record k).2.windows.get? j.storageName = if j = k
      then some ⟨(c.record k).1, ((c.windows.get? k.storageName).getD ⟨0, k.stop⟩).closes⟩
      else c.windows.get? j.storageName := by
  unfold record
  by_cases e : j = k
  · subst e
    rw [if_pos rfl, Table.get?_insert_self]
  · rw [if_neg e, Table.get?_insert_of_ne _ _ fun h => e (WindowKey.storageName_inj h)]

theorem record_count (c : Counters) (k j : WindowKey) :
    (c.record k).2.count j = if j = k then (c.record k).1 else c.count j := by
  unfold count
  rw [record_windows]
  split <;> rfl

theorem dated_record {c : Counters} (h : Dated c) (k : WindowKey) : Dated (c.record k).2 := by
  intro j w hw
  rw [record_windows] at hw
  split at hw
  · rename_i e
    subst e
    cases hw
    cases hk : c.windows.get? j.storageName with
    | none => rfl
    | some v => exact h j v hk
  · exact h j w hw

/-! ## Sweeping -/

theorem sweep_count {c : Counters} (h : Dated c) (now : Instant) (k : WindowKey) :
    (c.sweep now).count k = if k.stop ≤ now then 0 else c.count k := by
  unfold sweep count
  rw [Table.get?_filter]
  cases hk : c.windows.get? k.storageName with
  | none => simp
  | some w =>
    have hw := h k w hk
    by_cases hs : k.stop ≤ now
    · have : ¬ now < w.closes := by rw [hw]; exact Int.not_lt.mpr hs
      simp [Option.filter, this, hs]
    · have : now < w.closes := by rw [hw]; exact Int.not_le.mp hs
      simp [Option.filter, this, hs]

theorem dated_sweep {c : Counters} (h : Dated c) (now : Instant) : Dated (c.sweep now) := by
  intro k w hw
  unfold sweep at hw
  rw [Table.get?_filter, Option.filter_eq_some_iff] at hw
  exact h k w hw.1

end Gateway.Counters
