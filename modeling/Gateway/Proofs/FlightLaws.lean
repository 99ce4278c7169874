/-
  Gateway.Proofs.FlightLaws — what each operation does to the flights.

  Joining and letting go change who holds a flight; taking turns, settling and giving up
  change whose turn it is and the outcome. Only joining and the test of a leaver touch the
  map of the flights that stand.
-/

import Mathlib.Data.List.Nodup
import Gateway.Flights

namespace Gateway.Flights

/-! ## Changing a flight -/

theorem flight_change (s : Flights) (f : FlightId) (g : Flight → Flight) (i : FlightId) :
    (s.change f g).flight i = if i = f then g (s.flight f) else s.flight i := by
  simp only [flight, change, Table.get?_insert]
  split <;> rfl

/-! ## Turns and outcomes -/

structure SameHold (s t : Flights) : Prop where
  holders : ∀ i, (t.flight i).holders = (s.flight i).holders
  current : t.current = s.current
  next : t.next = s.next

theorem change_same {s : Flights} {f : FlightId} {g : Flight → Flight}
    (h : (g (s.flight f)).holders = (s.flight f).holders) : SameHold s (s.change f g) := by
  refine ⟨fun i => ?_, rfl, rfl⟩
  rw [flight_change]
  split
  · rename_i e; rw [e, h]
  · rfl

theorem claim_same (s : Flights) (f : FlightId) (c : CallId) : SameHold s (s.claim f c) := by
  apply change_same
  split
  · rfl
  · split <;> rfl

theorem settle_same (s : Flights) (f : FlightId) (o : Outcome) : SameHold s (s.settle f o) :=
  change_same rfl

theorem withdraw_same (s : Flights) (f : FlightId) (c : CallId) : SameHold s (s.withdraw f c) := by
  apply change_same
  split <;> rfl

theorem claim_outcome (s : Flights) (f : FlightId) (c : CallId) (i : FlightId) :
    ((s.claim f c).flight i).outcome = (s.flight i).outcome := by
  unfold claim
  rw [flight_change]
  split
  · rename_i e
    subst e
    split
    · rfl
    · split <;> rfl
  · rfl

theorem withdraw_outcome (s : Flights) (f : FlightId) (c : CallId) (i : FlightId) :
    ((s.withdraw f c).flight i).outcome = (s.flight i).outcome := by
  unfold withdraw
  rw [flight_change]
  split
  · rename_i e
    subst e
    split <;> rfl
  · rfl

theorem settle_outcome (s : Flights) (f : FlightId) (o : Outcome) (i : FlightId) :
    ((s.settle f o).flight i).outcome = if i = f then some o else (s.flight i).outcome := by
  unfold settle
  rw [flight_change]
  split <;> rfl

/-! ## Joining -/

/-- Whoever joins takes the flight that stands, or begins one that nobody holds. -/
theorem take_cases (s : Flights) (k : Credential) :
    (s.current.get? k = some (s.take k).1 ∧ (s.take k).2 = s) ∨
      (s.current.get? k = none ∧ (s.take k).1 = s.next ∧ (s.take k).2.next = s.next + 1 ∧
        (s.take k).2.current = s.current.insert k s.next ∧
        ∀ i, (s.take k).2.flight i = if i = s.next then Flight.start else s.flight i) := by
  unfold take
  cases h : s.current.get? k with
  | some f => exact Or.inl ⟨rfl, rfl⟩
  | none =>
    refine Or.inr ⟨rfl, rfl, rfl, rfl, fun i => ?_⟩
    simp only [flight, Table.get?_insert]
    split <;> rfl

theorem join_fst (s : Flights) (k : Credential) (c : CallId) : (s.join k c).1 = (s.take k).1 := rfl

theorem join_current (s : Flights) (k : Credential) (c : CallId) :
    (s.join k c).2.current.get? k = some (s.join k c).1 := by
  show (s.take k).2.current.get? k = some (s.take k).1
  rcases take_cases s k with ⟨h, h'⟩ | ⟨-, hf, -, hc, -⟩
  · rw [h', h]
  · rw [hc, hf, Table.get?_insert_self]

theorem join_flight (s : Flights) (k : Credential) (c : CallId) (i : FlightId) :
    (s.join k c).2.flight i = if i = (s.join k c).1
      then { (s.take k).2.flight i with holders := ((s.take k).2.flight i).holders ++ [c] }
      else (s.take k).2.flight i := by
  show ((s.take k).2.change (s.take k).1 _).flight i = _
  rw [flight_change]
  show (if i = (s.take k).1 then _ else _) = (if i = (s.take k).1 then _ else _)
  split
  · rename_i e; rw [e]
  · rfl

theorem take_known {s : Flights} {k : Credential} (h : ∀ f, s.current.get? k = some f → f < s.next) :
    (s.take k).1 < (s.take k).2.next ∧ s.next ≤ (s.take k).2.next := by
  rcases take_cases s k with ⟨hk, h'⟩ | ⟨-, h1, h2, -⟩
  · rw [h']; exact ⟨h _ hk, Nat.le_refl _⟩
  · rw [h1, h2]; exact ⟨Nat.lt_succ_self _, Nat.le_succ _⟩

/-- A flight that has not begun looks like one that has just begun. -/
theorem take_flight {s : Flights} (hn : s.flight s.next = Flight.start) (k : Credential) (f : FlightId) :
    (s.take k).2.flight f = s.flight f := by
  rcases take_cases s k with ⟨-, h'⟩ | ⟨-, -, -, -, hf⟩
  · rw [h']
  · rw [hf]
    split
    · rename_i e; rw [e, hn]
    · rfl

theorem take_holders {s : Flights} (hn : (s.flight s.next).holders = []) (k : Credential) (f : FlightId) :
    ((s.take k).2.flight f).holders = (s.flight f).holders := by
  rcases take_cases s k with ⟨-, h'⟩ | ⟨-, -, -, -, hf⟩
  · rw [h']
  · rw [hf]
    split
    · rename_i e; rw [e, hn]; rfl
    · rfl

/-- Only the caller that joins holds more than before. -/
theorem mem_join_holders {s : Flights} (hn : (s.flight s.next).holders = []) (k : Credential) (c d : CallId)
    (f : FlightId) : d ∈ ((s.join k c).2.flight f).holders ↔
      d ∈ (s.flight f).holders ∨ (d = c ∧ f = (s.join k c).1) := by
  rw [join_flight]
  split <;> rename_i e <;> simp [take_holders hn, e]

theorem nodup_join_holders {s : Flights} (hn : (s.flight s.next).holders = []) (k : Credential) {c : CallId}
    {f : FlightId} (h : (s.flight f).holders.Nodup) (hc : c ∉ (s.flight f).holders) :
    ((s.join k c).2.flight f).holders.Nodup := by
  rw [join_flight]
  split
  · simp only [take_holders hn]
    exact List.Nodup.append h (List.nodup_singleton c) (by simpa using hc)
  · rw [take_holders hn]; exact h

/-- The flights that stand after a caller of `k` boarded. -/
theorem join_standing (s : Flights) (k : Credential) (c : CallId) {j : Credential} {f : FlightId} :
    (s.join k c).2.current.get? j = some f ↔
      (j = k ∧ f = (s.join k c).1) ∨ (j ≠ k ∧ s.current.get? j = some f) := by
  by_cases e : j = k
  · subst e
    rw [join_current]
    simp [eq_comm]
  · simp only [e, false_and, ne_eq, not_false_eq_true, true_and, false_or]
    show (s.take k).2.current.get? j = some f ↔ _
    rcases take_cases s k with ⟨-, h'⟩ | ⟨-, -, -, hc, -⟩
    · rw [h']
    · rw [hc, Table.get?_insert_of_ne _ _ e]

/-- Whoever was on a flight of `k` is on the flight that a caller of `k` boards. -/
theorem join_stays {s : Flights} {k : Credential} (c : CallId) {f : FlightId}
    (hk : s.current.get? k = some f) : (s.join k c).1 = f := by
  rw [join_fst]
  rcases take_cases s k with ⟨h', -⟩ | ⟨h', -⟩
  · exact Option.some.inj (h'.symm.trans hk)
  · rw [h'] at hk; cases hk

/-- No flight falls out of the map when a caller boards. -/
theorem join_keeps {s : Flights} (k : Credential) (c : CallId) {j : Credential} {f : FlightId}
    (h : s.current.get? j = some f) : (s.join k c).2.current.get? j = some f := by
  refine (join_standing s k c).mpr ?_
  by_cases e : j = k
  · exact Or.inl ⟨e, (join_stays c (e ▸ h)).symm⟩
  · exact Or.inr ⟨e, h⟩

section

variable {s : Flights} (numbered : ∀ k f, s.current.get? k = some f → f < s.next)
  (apart : ∀ j k f, s.current.get? j = some f → s.current.get? k = some f → j = k)

include numbered

theorem join_numbered {j k : Credential} {c : CallId} {f : FlightId}
    (hj : (s.join k c).2.current.get? j = some f) : f < (s.join k c).2.next := by
  rcases (join_standing s k c).mp hj with ⟨-, rfl⟩ | ⟨-, hj⟩
  · exact (take_known (numbered k)).1
  · exact Nat.lt_of_lt_of_le (numbered j f hj) (take_known (numbered k)).2

include apart

/-- A flight that stood for another credential is not the one that was boarded. -/
theorem join_ne {j k : Credential} (c : CallId) {f : FlightId} (hj : s.current.get? j = some f) (hne : j ≠ k) :
    f ≠ (s.join k c).1 := by
  intro e
  subst e
  rw [join_fst] at hj
  rcases take_cases s k with ⟨hk, -⟩ | ⟨-, h1, -⟩
  · exact hne (apart _ _ _ hj hk)
  · rw [h1] at hj; exact Nat.lt_irrefl _ (numbered _ _ hj)

theorem join_apart {i j k : Credential} {c : CallId} {f : FlightId} (hi : (s.join k c).2.current.get? i = some f)
    (hj : (s.join k c).2.current.get? j = some f) : i = j := by
  rcases (join_standing s k c).mp hi with ⟨ei, hf⟩ | ⟨hik, hi⟩ <;>
    rcases (join_standing s k c).mp hj with ⟨ej, hf'⟩ | ⟨hjk, hj⟩
  · exact ei.trans ej.symm
  · exact absurd hf (join_ne numbered apart c hj hjk)
  · exact absurd hf' (join_ne numbered apart c hi hik)
  · exact apart i j f hi hj

end

/-! ## Leaving -/

/-- At most one holder means that a holder is the only one. -/
theorem alone_iff {l : List CallId} (hn : l.Nodup) {c : CallId} (hc : c ∈ l) :
    l.length ≤ 1 ↔ ∀ d ∈ l, d = c := by
  match l, hn, hc with
  | [x], _, hc => simp at hc; simp [hc]
  | x :: y :: l, hn, hc =>
    refine iff_of_false (by simp) fun all => ?_
    have : x = y := (all x (by simp)).trans (all y (by simp)).symm
    simp [this] at hn

/-- The test takes the flight out of the map exactly if nobody else holds it. -/
theorem test_current (s : Flights) (k : Credential) (f : FlightId) :
    (s.test k f).current =
      if s.current.get? k = some f ∧ (s.flight f).holders.length ≤ 1 then s.current.erase k else s.current := by
  unfold test
  split <;> rfl

theorem test_subset {s : Flights} {j k : Credential} {f g : FlightId}
    (h : (s.test k f).current.get? j = some g) : s.current.get? j = some g := by
  rw [test_current] at h
  split at h
  · rw [Table.get?_erase] at h
    split at h
    · cases h
    · exact h
  · exact h

@[simp] theorem test_flight (s : Flights) (k : Credential) (f i : FlightId) :
    (s.test k f).flight i = s.flight i := by
  unfold test
  split <;> rfl

@[simp] theorem test_next (s : Flights) (k : Credential) (f : FlightId) : (s.test k f).next = s.next := by
  unfold test
  split <;> rfl

@[simp] theorem release_current (s : Flights) (f : FlightId) (c : CallId) :
    (s.release f c).current = s.current := rfl

theorem release_flight (s : Flights) (f : FlightId) (c : CallId) (i : FlightId) :
    (s.release f c).flight i =
      if i = f then { s.flight i with holders := (s.flight i).holders.erase c } else s.flight i := by
  unfold release
  rw [flight_change]
  split
  · rename_i e; rw [e]
  · rfl

/-- Only the caller that lets go holds less than before. -/
theorem mem_release_holders {s : Flights} {g : FlightId} (h : (s.flight g).holders.Nodup) (f : FlightId)
    (c d : CallId) : d ∈ ((s.release f c).flight g).holders ↔ d ∈ (s.flight g).holders ∧ ¬ (g = f ∧ d = c) := by
  rw [release_flight]
  split
  · rename_i e
    rw [h.mem_erase_iff]
    simp only [e, true_and]
    exact and_comm
  · rename_i e
    simp [e]

theorem nodup_release_holders {s : Flights} {g : FlightId} (h : (s.flight g).holders.Nodup) (f : FlightId)
    (c : CallId) : ((s.release f c).flight g).holders.Nodup := by
  rw [release_flight]
  split
  · exact h.erase c
  · exact h

theorem release_outcome (s : Flights) (f : FlightId) (c : CallId) (i : FlightId) :
    ((s.release f c).flight i).outcome = (s.flight i).outcome := by
  rw [release_flight]
  split <;> rfl

theorem leave_outcome (s : Flights) (k : Credential) (f : FlightId) (c : CallId) (i : FlightId) :
    ((s.leave k f c).flight i).outcome = (s.flight i).outcome := by
  rw [leave, release_outcome, test_flight]

end Gateway.Flights
