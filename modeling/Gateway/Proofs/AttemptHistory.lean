/-
  Gateway.Proofs.AttemptHistory — an instance's own counters against all that was counted.

  The counters keep a number for each name and forget it when a sweep finds the window
  ended. The reference, `History`, forgets nothing: it is the list of all attempts and
  the instant of the last sweep. Every attempt and every reading is on the key of the
  clock's instant, and the clock only goes forward. So a key that a sweep has taken is
  never used again, and what the counters hold is told by the reference: the keys that
  were attempted and whose windows had not ended at the last sweep, each with the number
  of its attempts (`Mirrors`). A number stays at the greatest word once it is there.

  Proved:
  (1) The counters tell what the reference tells (`told_eq`).
  (2) Sweeps do not change the counts that are told (`counts_unswept`).
  (3) Both, what a sweep drops, and what it leaves, for every run (`counters_refine`).
-/

import Mathlib.Data.List.Dedup
import Gateway.Proofs.Counts
import Gateway.Proofs.Windows

namespace Gateway

/-! ## Keys of a table -/

namespace Table

variable {α β : Type} [DecidableEq α]

theorem mem_keys {t : Table α β} {k : α} : k ∈ t.entries.map Prod.fst ↔ (t.get? k).isSome = true := by
  unfold get?
  generalize t.entries = l
  induction l with
  | nil => exact iff_of_false List.not_mem_nil Bool.false_ne_true
  | cons e r ih =>
    obtain ⟨k', v⟩ := e
    by_cases h : k' = k
    · simp [lookup, h]
    · simp [lookup, h, Ne.symm h, ih]

/-- A table is as large as any list of its keys. -/
theorem size_eq {γ : Type} {t : Table α β} {f : γ → α} (inj : Function.Injective f) {l : List γ} (nodup : l.Nodup)
    (keys : ∀ k, (t.get? k).isSome = true ↔ ∃ x ∈ l, f x = k) : t.size = l.length := by
  have perm : (t.entries.map Prod.fst).Perm (l.map f) := by
    refine (List.perm_ext_iff_of_nodup t.nodup (nodup.map inj)).mpr fun k => ?_
    rw [mem_keys, keys, List.mem_map]
  unfold size
  rw [← List.length_map (f := Prod.fst), perm.length_eq, List.length_map]

end Table

namespace Counters

/-! ## Runs and what is told of them -/

inductive Use where
  | records (p : AccountId) (o : Operation) (w : Span)
  | reads (p : AccountId) (o : Operation) (w : Span)
  | sweeps
  | passes (ms : Nat)
  deriving DecidableEq, Repr

inductive Told where
  | count (n : Nat)
  | dropped (n : Nat)
  deriving DecidableEq, Repr

def Told.count? : Told → Option Nat
  | .count n => some n
  | .dropped _ => none

def Told.capped : Told → Told
  | .count n => .count (min n Word.top)
  | .dropped n => .dropped n

def told {σ : Type} (step : σ → Use → Option Told × σ) (s : σ) : List Use → List Told
  | [] => []
  | u :: us => (step s u).1.toList ++ told step (step s u).2 us

def after {σ : Type} (step : σ → Use → Option Told × σ) (s : σ) (us : List Use) : σ :=
  us.foldl (fun s u => (step s u).2) s

structure Timed where
  clock : Clock
  counters : Counters

namespace Timed

def start (t : Instant) : Timed := ⟨Clock.start t, empty⟩

/-- A window that no key has is neither counted nor read. -/
def step (s : Timed) : Use → Option Told × Timed
  | .records p o w => match WindowKey.containing p o w s.clock.now with
    | .ok k => (some (.count (s.counters.record k).1), { s with counters := (s.counters.record k).2 })
    | .error _ => (none, s)
  | .reads p o w => match WindowKey.containing p o w s.clock.now with
    | .ok k => (some (.count (s.counters.count k)), s)
    | .error _ => (none, s)
  | .sweeps =>
    let swept := s.counters.sweep s.clock.now
    (some (.dropped (s.counters.tracked - swept.tracked)), { s with counters := swept })
  | .passes ms => (none, { s with clock := s.clock.advance ms })

end Timed

/-- The keys of all attempts so far, the last first, and the instant of the last sweep. -/
structure History where
  clock : Clock
  attempts : List WindowKey
  swept : Option Instant

namespace History

def start (t : Instant) : History := ⟨Clock.start t, [], none⟩

def kept (h : History) : List WindowKey := h.attempts.dedup.filter fun k => h.swept.all fun u => u < k.stop

def step (h : History) : Use → Option Told × History
  | .records p o w => match WindowKey.containing p o w h.clock.now with
    | .ok k => (some (.count (h.attempts.count k + 1)), { h with attempts := k :: h.attempts })
    | .error _ => (none, h)
  | .reads p o w => match WindowKey.containing p o w h.clock.now with
    | .ok k => (some (.count (h.attempts.count k)), h)
    | .error _ => (none, h)
  | .sweeps => (some (.dropped (h.kept.countP fun k => k.stop ≤ h.clock.now)), { h with swept := some h.clock.now })
  | .passes ms => (none, { h with clock := h.clock.advance ms })

end History

variable {c : Counters} {h : History} {s : Timed} {k j : WindowKey} {u : Use} {us : List Use} {t : Instant}

/-! ## What the counters hold -/

/-- What the counters hold is told by the history. -/
structure Mirrors (c : Counters) (h : History) : Prop where
  holds : ∀ k, c.windows.get? (WindowKey.storageName k) =
    if k ∈ h.kept then some ⟨min (h.attempts.count k) Word.top, k.stop⟩ else none
  named : ∀ name, (c.windows.get? name).isSome = true → ∃ k, name = WindowKey.storageName k

/-- Attempts were on keys of their instants, and no instant lies ahead. -/
structure Past (h : History) : Prop where
  now : h.clock.now.InRange
  made : ∀ k ∈ h.attempts, ∃ b, b.InRange ∧ b ≤ h.clock.now ∧ k.Around b
  swept : ∀ b, h.swept = some b → b ≤ h.clock.now

theorem mem_kept : k ∈ h.kept ↔ k ∈ h.attempts ∧ ∀ b, h.swept = some b → b < k.stop := by
  unfold History.kept
  rw [List.mem_filter, List.mem_dedup]
  cases h.swept <;> simp

theorem nodup_kept (h : History) : h.kept.Nodup := (List.nodup_dedup _).filter _

/-- A key of the clock's instant is not lost. -/
theorem Past.kept_iff (past : Past h) (on : k.Around h.clock.now) : k ∈ h.kept ↔ k ∈ h.attempts := by
  rw [mem_kept]
  exact and_iff_left fun b hb => Int.lt_of_le_of_lt (past.swept b hb) (on.lt_stop past.now)

theorem Mirrors.count (m : Mirrors c h) (past : Past h) (on : k.Around h.clock.now) :
    c.count k = min (h.attempts.count k) Word.top := by
  unfold Counters.count
  rw [m.holds]
  by_cases hk : k ∈ h.kept
  · rw [if_pos hk]
    rfl
  · rw [if_neg hk, List.count_eq_zero.mpr fun hm => hk ((past.kept_iff on).mpr hm)]
    rfl

theorem Mirrors.tracked (m : Mirrors c h) : c.tracked = h.kept.length := by
  refine Table.size_eq (fun a b => WindowKey.storageName_inj) (nodup_kept h) fun name => ?_
  constructor
  · intro hn
    obtain ⟨k, rfl⟩ := m.named name hn
    rw [m.holds] at hn
    split at hn
    · exact ⟨k, ‹_›, rfl⟩
    · cases hn
  · rintro ⟨k, hk, rfl⟩
    rw [m.holds, if_pos hk]
    rfl

theorem start_mirrors (t : Instant) : Mirrors empty (.start t) :=
  ⟨fun _ => rfl, fun _ h => by cases h⟩

theorem start_past (ht : t.InRange) : Past (.start t) :=
  ⟨ht, fun _ hk => absurd hk List.not_mem_nil, fun _ h => by cases h⟩

/-! ### Attempts -/

theorem Past.recorded (past : Past h) (on : k.Around h.clock.now) :
    Past { h with attempts := k :: h.attempts } := by
  refine ⟨past.now, fun j hj => ?_, past.swept⟩
  rcases List.mem_cons.mp hj with rfl | hj
  · exact ⟨_, past.now, Int.le_refl _, on⟩
  · exact past.made j hj

theorem Mirrors.recorded (m : Mirrors c h) (past : Past h) (on : k.Around h.clock.now) :
    Mirrors (c.record k).2 { h with attempts := k :: h.attempts } := by
  refine ⟨fun j => ?_, fun name hn => ?_⟩
  · rw [record_windows]
    by_cases e : j = k
    · subst e
      have here : j ∈ ({ h with attempts := j :: h.attempts } : History).kept :=
        ((past.recorded on).kept_iff on).mpr List.mem_cons_self
      have ends : ((c.windows.get? j.storageName).getD ⟨0, j.stop⟩).closes = j.stop := by
        rw [m.holds]
        split <;> rfl
      rw [if_pos rfl, if_pos here, record_fst, m.count past on, ends, List.count_cons_self]
      congr 2
      omega
    · rw [if_neg e, m.holds, List.count_cons_of_ne (Ne.symm e)]
      refine if_congr ?_ rfl rfl
      rw [mem_kept, mem_kept, List.mem_cons, or_iff_right e]
  · unfold record at hn
    by_cases e : name = k.storageName
    · exact ⟨k, e⟩
    · rw [Table.get?_insert_of_ne _ _ e] at hn
      exact m.named name hn

/-! ### Sweeps -/

theorem Past.sweeps (past : Past h) : Past { h with swept := some h.clock.now } :=
  ⟨past.now, past.made, fun _ hb => by cases hb; exact Int.le_refl _⟩

theorem Past.kept_sweeps (past : Past h) :
    ({ h with swept := some h.clock.now } : History).kept = h.kept.filter fun k => h.clock.now < k.stop := by
  unfold History.kept
  rw [List.filter_filter]
  refine List.filter_congr fun k _ => ?_
  cases hs : h.swept with
  | none => simp
  | some b =>
    have := past.swept b hs
    by_cases ends : h.clock.now < k.stop
    · simp [ends, Int.lt_of_le_of_lt this ends]
    · simp [ends]

theorem Mirrors.swept (m : Mirrors c h) (past : Past h) :
    Mirrors (c.sweep h.clock.now) { h with swept := some h.clock.now } := by
  refine ⟨fun k => ?_, fun name hn => ?_⟩
  · rw [past.kept_sweeps, Counters.sweep, Table.get?_filter, m.holds]
    by_cases hk : k ∈ h.kept
    · by_cases ends : h.clock.now < k.stop
      · rw [if_pos hk, if_pos (List.mem_filter.mpr ⟨hk, decide_eq_true ends⟩)]
        exact Option.filter_some_pos (decide_eq_true ends)
      · have gone : ¬ k ∈ h.kept.filter fun k => h.clock.now < k.stop := fun w =>
          ends (of_decide_eq_true (List.mem_filter.mp w).2)
        rw [if_pos hk, if_neg gone]
        exact Option.filter_some_neg (by simpa using ends)
    · rw [if_neg hk, if_neg fun w => hk (List.mem_filter.mp w).1]
      rfl
  · rw [Counters.sweep, Table.get?_filter] at hn
    obtain ⟨w, hw⟩ := Option.isSome_iff_exists.mp hn
    exact m.named name (by rw [(Option.filter_eq_some_iff.mp hw).1]; rfl)

/-- A sweep has dropped as many counters as had windows that had ended. -/
theorem Mirrors.dropped (m : Mirrors c h) (past : Past h) :
    c.tracked - (c.sweep h.clock.now).tracked = h.kept.countP fun k => k.stop ≤ h.clock.now := by
  rw [m.tracked, (m.swept past).tracked, past.kept_sweeps, ← List.countP_eq_length_filter,
    List.length_eq_countP_add_countP (fun k => decide (h.clock.now < WindowKey.stop k)), Nat.add_sub_cancel_left]
  refine List.countP_congr fun k _ => ?_
  simp

/-! ## (1) What is told -/

structure Follows (s : Timed) (h : History) : Prop where
  clock : s.clock = h.clock
  mirrors : Mirrors s.counters h
  past : Past h

theorem start_follows (ht : t.InRange) : Follows (.start t) (.start t) :=
  ⟨rfl, start_mirrors t, start_past ht⟩

theorem Past.passes (past : Past h) (ms : Nat) : Past { h with clock := h.clock.advance ms } := by
  have forward : h.clock.now ≤ (h.clock.advance ms).now := Clock.le_advance _ _
  refine ⟨Clock.advance_inRange past.now ms, fun k hk => ?_, fun b hb => Int.le_trans (past.swept b hb) forward⟩
  obtain ⟨b, inRange, before, on⟩ := past.made k hk
  exact ⟨b, inRange, Int.le_trans before forward, on⟩

/-- One case for each use; the counters tell the capped count and stay where the reference is. -/
theorem Follows.step (f : Follows s h) (u : Use) :
    (s.step u).1 = (h.step u).1.map Told.capped ∧ Follows (s.step u).2 (h.step u).2 := by
  obtain ⟨clock, c⟩ := s
  obtain ⟨same, mirrors, past⟩ := f
  cases same
  cases u with
  | records p o w =>
    cases hk : WindowKey.containing p o w h.clock.now with
    | error e =>
      simp only [Timed.step, History.step, hk]
      exact ⟨rfl, rfl, mirrors, past⟩
    | ok k =>
      have on := WindowKey.around_of_containing hk
      simp only [Timed.step, History.step, hk]
      refine ⟨?_, rfl, mirrors.recorded past on, past.recorded on⟩
      simp only [record_fst, mirrors.count past on, Option.map_some, Told.capped]
      congr 2
      omega
  | reads p o w =>
    cases hk : WindowKey.containing p o w h.clock.now with
    | error e =>
      simp only [Timed.step, History.step, hk]
      exact ⟨rfl, rfl, mirrors, past⟩
    | ok k =>
      simp only [Timed.step, History.step, hk]
      refine ⟨?_, rfl, mirrors, past⟩
      simp only [mirrors.count past (WindowKey.around_of_containing hk), Option.map_some, Told.capped]
  | sweeps =>
    simp only [Timed.step, History.step]
    refine ⟨?_, rfl, mirrors.swept past, past.sweeps⟩
    rw [mirrors.dropped past]
    rfl
  | passes ms => exact ⟨rfl, rfl, ⟨mirrors.holds, mirrors.named⟩, past.passes ms⟩

theorem told_eq (f : Follows s h) (us : List Use) :
    told Timed.step s us = (told History.step h us).map Told.capped ∧
      Follows (after Timed.step s us) (after History.step h us) := by
  induction us generalizing s h with
  | nil => exact ⟨rfl, f⟩
  | cons u us ih =>
    obtain ⟨same, next⟩ := f.step u
    obtain ⟨rest, last⟩ := ih next
    refine ⟨?_, last⟩
    rw [told, told, same, rest, List.map_append]
    cases (h.step u).1 <;> rfl

theorem step_attempts (h : History) (u : Use) : (h.step u).2.attempts.length ≤ h.attempts.length + 1 := by
  cases u with
  | records p o w =>
    simp only [History.step]
    split
    · exact Nat.le_refl _
    · exact Nat.le_succ _
  | reads p o w =>
    simp only [History.step]
    split <;> exact Nat.le_succ _
  | sweeps => exact Nat.le_succ _
  | passes ms => exact Nat.le_succ _

theorem step_uncapped (room : h.attempts.length < Word.top) (u : Use) :
    (h.step u).1.map Told.capped = (h.step u).1 := by
  have fits : ∀ k, h.attempts.count k + 1 ≤ Word.top := fun k => Nat.lt_of_le_of_lt List.count_le_length room
  cases u with
  | records p o w =>
    simp only [History.step]
    split
    · simp only [Option.map_some, Told.capped, Nat.min_eq_left (fits _)]
    · rfl
  | reads p o w =>
    simp only [History.step]
    split
    · simp only [Option.map_some, Told.capped, Nat.min_eq_left (Nat.le_of_succ_le (fits _))]
    · rfl
  | sweeps => rfl
  | passes ms => rfl

/-- A run that is not as long as there are words reaches no cap. -/
theorem told_uncapped (room : h.attempts.length + us.length ≤ Word.top) :
    (told History.step h us).map Told.capped = told History.step h us := by
  induction us generalizing h with
  | nil => rfl
  | cons u us ih =>
    rw [List.length_cons] at room
    have here := step_uncapped (h := h) (by omega) u
    have grown := step_attempts h u
    have rest := ih (h := (h.step u).2) (by omega)
    rw [told, List.map_append, rest]
    refine congrArg (· ++ _) ?_
    rw [← here]
    cases (h.step u).1 with
    | none => rfl
    | some x => cases x <;> simp [Told.capped]

/-! ## (2) Sweeps -/

def counts (l : List Told) : List Nat := l.filterMap Told.count?

def unswept (us : List Use) : List Use := us.filter (· ≠ .sweeps)

/-- When the last sweep was does not matter to the counts. -/
theorem counts_swept (h h' : History) (clock : h.clock = h'.clock) (attempts : h.attempts = h'.attempts) (us : List Use) :
    counts (told History.step h us) = counts (told History.step h' us) := by
  induction us generalizing h h' with
  | nil => rfl
  | cons u us ih =>
    rw [told, told, counts, counts, List.filterMap_append, List.filterMap_append]
    cases u with
    | records p o w =>
      simp only [History.step, clock, attempts]
      split
      · exact congrArg _ (ih _ _ rfl rfl)
      · exact congrArg _ (ih _ _ clock attempts)
    | reads p o w =>
      simp only [History.step, clock, attempts]
      split <;> exact congrArg _ (ih _ _ clock attempts)
    | sweeps => exact ih _ _ clock attempts
    | passes ms => exact ih _ _ (congrArg (·.advance ms) clock) attempts

theorem counts_unswept (h : History) (us : List Use) :
    counts (told History.step h (unswept us)) = counts (told History.step h us) := by
  induction us generalizing h with
  | nil => rfl
  | cons u us ih =>
    by_cases e : u = .sweeps
    · subst e
      exact (ih h).trans (counts_swept h { h with swept := some h.clock.now } rfl rfl us)
    · have kept : unswept (u :: us) = u :: unswept us := List.filter_cons_of_pos (by simpa using e)
      rw [kept, told, told, counts, counts, List.filterMap_append, List.filterMap_append]
      exact congrArg _ (ih _)

theorem counts_capped (l : List Told) : counts (l.map Told.capped) = (counts l).map (min · Word.top) := by
  unfold counts
  rw [List.filterMap_map, List.map_filterMap]
  refine List.filterMap_congr fun x _ => ?_
  cases x <;> rfl

/-! ## (3) Every run -/

theorem sweep_get? (c : Counters) (now : Instant) (name : String) (x : Counter) :
    (c.sweep now).windows.get? name = some x ↔ c.windows.get? name = some x ∧ ¬ x.closes ≤ now := by
  rw [Counters.sweep, Table.get?_filter, Option.filter_eq_some_iff]
  simp

theorem sweep_tracked (c : Counters) (now : Instant) :
    c.tracked - (c.sweep now).tracked = c.windows.entries.countP fun x => x.2.closes ≤ now := by
  show c.windows.entries.length - (c.windows.entries.filter fun x => decide (now < x.2.closes)).length = _
  rw [← List.countP_eq_length_filter, List.length_eq_countP_add_countP (fun x => decide (now < x.2.closes)),
    Nat.add_sub_cancel_left]
  refine List.countP_congr fun x _ => ?_
  simp

/-- Right after a sweep the windows that are still counted are those around the instant. -/
theorem Follows.current (f : Follows s h) {name : String} {x : Counter}
    (hx : (s.counters.sweep s.clock.now).windows.get? name = some x) :
    ∃ k, name = WindowKey.storageName k ∧ x = ⟨min (h.attempts.count k) Word.top, k.stop⟩ ∧ k.Around s.clock.now := by
  obtain ⟨hx, lasts⟩ := (sweep_get? _ _ _ _).mp hx
  obtain ⟨k, rfl⟩ := f.mirrors.named name (by rw [hx]; rfl)
  rw [f.mirrors.holds] at hx
  split at hx
  · rename_i hk
    cases hx
    obtain ⟨b, inRange, before, on⟩ := f.past.made k (mem_kept.mp hk).1
    rw [f.clock] at lasts ⊢
    have starts := ((WindowKey.around_iff on inRange).mp on).1
    exact ⟨k, rfl, rfl, (WindowKey.around_iff on inRange).mpr ⟨Int.le_trans starts before, Int.not_le.mp lasts⟩⟩
  · cases hx

/-- In any run of attempts, readings, sweeps and a clock that goes forward, every attempt and
reading being on a key of its instant: each attempt is told how many there have been on its
key, itself included, and each reading how many there have been, up to the greatest word;
each sweep is told how many of the keys that were attempted since had windows that have
ended. Other sweeps in between change none of these counts. At any moment the counters are
those of the history, a reading leaves them as they are, and a sweep takes exactly those
whose windows have ended, and tells how many; it leaves only counters of windows around its
instant. -/
theorem counters_refine (ht : t.InRange) (us : List Use) :
    let s := after Timed.step (.start t) us
    let h := after History.step (.start t) us
    let now := s.clock.now
    let swept := s.counters.sweep now
    told Timed.step (.start t) us = (told History.step (.start t) us).map Told.capped ∧
      (us.length ≤ Word.top → told Timed.step (.start t) us = told History.step (.start t) us) ∧
      (∀ us', unswept us' = unswept us →
        counts (told Timed.step (.start t) us') = counts (told Timed.step (.start t) us)) ∧
      Mirrors s.counters h ∧ (∀ p o w, (s.step (.reads p o w)).2 = s) ∧
      (∀ name x, swept.windows.get? name = some x ↔ s.counters.windows.get? name = some x ∧ ¬ x.closes ≤ now) ∧
      s.counters.tracked - swept.tracked = (s.counters.windows.entries.countP fun x => x.2.closes ≤ now) ∧
      ∀ name x, swept.windows.get? name = some x →
        ∃ k, name = WindowKey.storageName k ∧ x.closes = k.stop ∧ k.start ≤ now ∧ now < k.stop := by
  intro s h now swept
  have follows : Follows (.start t) (.start t) := start_follows ht
  obtain ⟨same, last⟩ := told_eq follows us
  have nowInRange : now.InRange := by
    show s.clock.now.InRange
    rw [last.clock]
    exact last.past.now
  refine ⟨same, fun short => ?_, fun us' alike => ?_, last.mirrors, fun p o w => ?_, sweep_get? _ _, sweep_tracked _ _,
    fun name x hx => ?_⟩
  · rw [same]
    exact told_uncapped (by simpa [History.start] using short)
  · rw [(told_eq follows us').1, same, counts_capped, counts_capped, ← counts_unswept _ us', alike, counts_unswept]
  · simp only [Timed.step]
    split <;> rfl
  · obtain ⟨k, named, rfl, on⟩ := last.current hx
    exact ⟨k, named, rfl, (WindowKey.around_iff on nowInRange).mp on⟩

/-- Two attempts and a reading in one window, and an attempt in the next. -/
def twoWindows : List Use :=
  let second := Span.ofSeconds 1
  [.records ⟨"acct"⟩ .create second, .sweeps, .records ⟨"acct"⟩ .create second, .reads ⟨"acct"⟩ .create second,
    .passes 1000, .records ⟨"acct"⟩ .create second, .sweeps]

/-- The first sweep drops nothing, and the second the window that has ended. -/
theorem twoWindows_refine :
    (1700000000000 : Instant).InRange ∧ twoWindows.length ≤ Word.top ∧
      told Timed.step (.start 1700000000000) twoWindows =
        [.count 1, .dropped 0, .count 2, .count 2, .count 1, .dropped 1] ∧
      counts (told Timed.step (.start 1700000000000) (unswept twoWindows)) = [1, 2, 2, 1] := by
  have ht : (1700000000000 : Instant).InRange := by decide
  have short : twoWindows.length ≤ Word.top := by decide
  obtain ⟨-, exact, sweepless, -⟩ := counters_refine ht twoWindows
  have told := exact short
  refine ⟨ht, short, told.trans (by decide +kernel), ?_⟩
  rw [sweepless (unswept twoWindows) (by decide), told]
  decide +kernel

end Counters

end Gateway
