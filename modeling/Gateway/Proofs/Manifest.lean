/-
  Gateway.Proofs.Manifest — who is aboard which flight.

  Where a caller leaves in one step, the map holds exactly the flights that have callers:
  every caller is on the flight that stands for its credential (`stands`), every flight
  that stands has a caller of its credential (`manned`), and no two credentials share one
  (`apart`). The holders of a flight are its callers, each once. Boarding, leaving and all
  that happens on the way keep this.
-/

import Mathlib.Data.List.Nodup
import Gateway.Authenticator
import Gateway.Proofs.FlightLaws

namespace Gateway

/-- Calls from `n` on have not come yet. -/
structure Manifest (fl : Flights) (ps : Table CallId Passenger) (n : CallId) : Prop where
  new : ∀ c p, ps.get? c = some p → c < n
  numbered : ∀ k f, fl.current.get? k = some f → f < fl.next
  apart : ∀ j k f, fl.current.get? j = some f → fl.current.get? k = some f → j = k
  stands : ∀ c p, ps.get? c = some p → fl.current.get? p.credential = some p.flight
  manned : ∀ k f, fl.current.get? k = some f → ∃ c p, ps.get? c = some p ∧ p.flight = f ∧ p.credential = k
  held : ∀ f c, c ∈ (fl.flight f).holders ↔ ∃ p, ps.get? c = some p ∧ p.flight = f
  once : ∀ f, (fl.flight f).holders.Nodup

namespace Manifest

variable {fl : Flights} {ps : Table CallId Passenger} {n : CallId}

theorem empty (n : CallId) : Manifest Flights.empty Table.empty n := by
  refine ⟨?_, ?_, ?_, ?_, ?_, fun f c => ?_, fun f => List.nodup_nil⟩
  · intro c p h; cases h
  · intro k f h; cases h
  · intro j k f h; cases h
  · intro c p h; cases h
  · intro k f h; cases h
  · constructor
    · intro h; cases h
    · intro w
      obtain ⟨p, h, -⟩ := w
      cases h

theorem later (h : Manifest fl ps n) {m : CallId} (hm : n ≤ m) : Manifest fl ps m :=
  { h with new := fun c p hc => Nat.lt_of_lt_of_le (h.new c p hc) hm }

/-- Callers of one flight have one credential. -/
theorem one (h : Manifest fl ps n) {c d : CallId} {p q : Passenger} (hc : ps.get? c = some p)
    (hd : ps.get? d = some q) (hf : p.flight = q.flight) : p.credential = q.credential :=
  h.apart _ _ p.flight (h.stands c p hc) (hf ▸ h.stands d q hd)

/-- What happens between boarding and leaving. -/
theorem same (h : Manifest fl ps n) {fl' : Flights} {ps' : Table CallId Passenger}
    (hs : Flights.SameHold fl fl')
    (hp : ∀ c, (ps'.get? c).map (fun p => (p.credential, p.flight)) =
      (ps.get? c).map fun p => (p.credential, p.flight)) : Manifest fl' ps' n := by
  have back : ∀ c p, ps'.get? c = some p → ∃ q, ps.get? c = some q ∧ q.credential = p.credential ∧ q.flight = p.flight := by
    intro c p hc
    have e := hp c
    rw [hc] at e
    obtain ⟨q, hq, e⟩ := Option.map_eq_some_iff.mp e.symm
    simp only [Prod.mk.injEq] at e
    exact ⟨q, hq, e⟩
  have forth : ∀ c q, ps.get? c = some q → ∃ p, ps'.get? c = some p ∧ p.credential = q.credential ∧ p.flight = q.flight := by
    intro c q hc
    have e := hp c
    rw [hc] at e
    obtain ⟨p, hq, e⟩ := Option.map_eq_some_iff.mp e
    simp only [Prod.mk.injEq] at e
    exact ⟨p, hq, e⟩
  refine ⟨fun c p hc => ?_, ?_, ?_, fun c p hc => ?_, fun k f hk => ?_, fun f c => ?_, fun f => ?_⟩
  · obtain ⟨q, hq, -⟩ := back c p hc; exact h.new c q hq
  · rw [hs.current, hs.next]; exact h.numbered
  · rw [hs.current]; exact h.apart
  · obtain ⟨q, hq, e1, e2⟩ := back c p hc
    rw [hs.current, ← e1, ← e2]; exact h.stands c q hq
  · rw [hs.current] at hk
    obtain ⟨c, q, hq, rfl, rfl⟩ := h.manned k f hk
    obtain ⟨p, hp', e1, e2⟩ := forth c q hq
    exact ⟨c, p, hp', e2, e1⟩
  · rw [hs.holders, h.held]
    constructor
    · intro w
      obtain ⟨q, hq, rfl⟩ := w
      obtain ⟨p, hp', -, e⟩ := forth c q hq
      exact ⟨p, hp', e⟩
    · intro w
      obtain ⟨p, hp', rfl⟩ := w
      obtain ⟨q, hq, -, e⟩ := back c p hp'
      exact ⟨q, hq, e⟩
  · rw [hs.holders]; exact h.once f

/-! ## Boarding -/

theorem next_unheld (h : Manifest fl ps n) : (fl.flight fl.next).holders = [] := by
  refine List.eq_nil_iff_forall_not_mem.mpr fun c hc => ?_
  obtain ⟨p, hp, hf⟩ := (h.held _ c).mp hc
  exact Nat.lt_irrefl _ (hf ▸ h.numbered _ _ (h.stands c p hp))

theorem board (h : Manifest fl ps n) (k : Credential) :
    Manifest (fl.join k n).2 (ps.insert n ⟨k, (fl.join k n).1, false⟩) (n + 1) := by
  have old : ∀ {c p}, ps.get? c = some p → c ≠ n := fun hc e => Nat.lt_irrefl _ (e ▸ h.new _ _ hc)
  have free : ∀ f, n ∉ (fl.flight f).holders := fun f hm => by
    obtain ⟨p, hp, -⟩ := (h.held f n).mp hm
    exact old hp rfl
  refine ⟨fun c p hc => ?_, fun j f hj => Flights.join_numbered h.numbered hj,
    fun i j f hi hj => Flights.join_apart h.numbered h.apart hi hj, fun c p hc => ?_, fun j f hj => ?_,
    fun f c => ?_, fun f => ?_⟩
  · rw [Table.get?_insert] at hc
    split at hc
    · rename_i e; rw [e]; exact Nat.lt_succ_self n
    · exact Nat.lt_succ_of_lt (h.new c p hc)
  · rw [Table.get?_insert] at hc
    split at hc
    · cases hc; exact Flights.join_current _ _ _
    · exact Flights.join_keeps k n (h.stands c p hc)
  · rcases (Flights.join_standing fl k n).mp hj with ⟨rfl, rfl⟩ | ⟨-, hj⟩
    · exact ⟨n, _, Table.get?_insert_self _ _ _, rfl, rfl⟩
    · obtain ⟨c, p, hc, hp⟩ := h.manned j f hj
      exact ⟨c, p, by rw [Table.get?_insert_of_ne _ _ (old hc)]; exact hc, hp⟩
  · rw [Flights.mem_join_holders h.next_unheld, h.held]
    by_cases e : c = n
    · subst e
      rw [Table.get?_insert_self]
      constructor
      · intro w
        rcases w with ⟨p, hp, -⟩ | ⟨-, rfl⟩
        · exact absurd rfl (old hp)
        · exact ⟨_, rfl, rfl⟩
      · intro w
        obtain ⟨p, hp, rfl⟩ := w
        cases hp
        exact Or.inr ⟨rfl, rfl⟩
    · simp [Table.get?_insert_of_ne _ _ e, e]
  · exact Flights.nodup_join_holders h.next_unheld k (h.once f) (free f)

/-! ## Leaving -/

/-- The test of a caller on its flight finds it held by another exactly if one is aboard. -/
theorem alone_iff (h : Manifest fl ps n) {c : CallId} {p : Passenger} (hc : ps.get? c = some p) :
    (fl.flight p.flight).holders.length ≤ 1 ↔ ∀ d q, ps.get? d = some q → q.flight = p.flight → d = c := by
  rw [Flights.alone_iff (h.once _) ((h.held p.flight c).mpr ⟨p, hc, rfl⟩)]
  constructor
  · intro all d q hd hq
    exact all d ((h.held _ d).mpr ⟨q, hd, hq⟩)
  · intro all d hd
    obtain ⟨q, hq, hf⟩ := (h.held _ d).mp hd
    exact all d q hq hf

theorem leave_current (fl : Flights) (k : Credential) (f : FlightId) (c : CallId) :
    (fl.leave k f c).current =
      if fl.current.get? k = some f ∧ (fl.flight f).holders.length ≤ 1 then fl.current.erase k else fl.current := by
  rw [Flights.leave, Flights.release_current, Flights.test_current]

theorem leave_standing (h : Manifest fl ps n) {c : CallId} {p : Passenger} (hc : ps.get? c = some p)
    {j : Credential} {f : FlightId} :
    (fl.leave p.credential p.flight c).current.get? j = some f ↔ fl.current.get? j = some f ∧
      (j = p.credential → ∃ d q, d ≠ c ∧ ps.get? d = some q ∧ q.flight = p.flight) := by
  have hs := h.stands c p hc
  rw [leave_current]
  by_cases hl : (fl.flight p.flight).holders.length ≤ 1
  · rw [if_pos ⟨hs, hl⟩, Table.get?_erase]
    have alone := (h.alone_iff hc).mp hl
    by_cases e : j = p.credential
    · subst e
      rw [if_pos rfl]
      refine iff_of_false (fun h => by cases h) fun ⟨_, h⟩ => ?_
      obtain ⟨d, q, hd, hq, hf⟩ := h rfl
      exact hd (alone d q hq hf)
    · simp [e]
  · rw [if_neg fun h => hl h.2]
    have : ∃ d q, d ≠ c ∧ ps.get? d = some q ∧ q.flight = p.flight := by
      by_contra hno
      refine hl ((h.alone_iff hc).mpr fun d q hd hq => ?_)
      by_contra e
      exact hno ⟨d, q, e, hd, hq⟩
    exact ⟨fun hj => ⟨hj, fun _ => this⟩, And.left⟩

theorem leave (h : Manifest fl ps n) {c : CallId} {p : Passenger} (hc : ps.get? c = some p) :
    Manifest (fl.leave p.credential p.flight c) (ps.erase c) n := by
  have left : ∀ {d q}, (ps.erase c).get? d = some q → d ≠ c ∧ ps.get? d = some q := by
    intro d q hd
    rw [Table.get?_erase] at hd
    split at hd
    · cases hd
    · exact ⟨‹_›, hd⟩
  have kept : ∀ {d q}, d ≠ c → ps.get? d = some q → (ps.erase c).get? d = some q := by
    intro d q hd hq
    rw [Table.get?_erase, if_neg hd]; exact hq
  refine ⟨fun d q hd => h.new d q (left hd).2, fun j f hj => ?_, fun i j f hi hj => ?_, fun d q hd => ?_,
    fun j f hj => ?_, fun f d => ?_, fun f => ?_⟩
  · have hj := (h.leave_standing hc).mp hj
    show f < (fl.test p.credential p.flight).next
    rw [Flights.test_next]
    exact h.numbered j f hj.1
  · exact h.apart i j f ((h.leave_standing hc).mp hi).1 ((h.leave_standing hc).mp hj).1
  · obtain ⟨hne, hq⟩ := left hd
    refine (h.leave_standing hc).mpr ⟨h.stands d q hq, fun e => ⟨d, q, hne, hq, ?_⟩⟩
    have := h.stands d q hq
    rw [e, h.stands c p hc] at this
    exact (Option.some.inj this).symm
  · obtain ⟨hj, other⟩ := (h.leave_standing hc).mp hj
    by_cases e : j = p.credential
    · obtain ⟨d, q, hd, hq, hf⟩ := other e
      refine ⟨d, q, kept hd hq, ?_, (h.one hq hc hf).trans e.symm⟩
      rw [e, h.stands c p hc] at hj
      exact hf.trans (Option.some.inj hj)
    · obtain ⟨d, q, hq, hf, hk⟩ := h.manned j f hj
      exact ⟨d, q, kept (fun ed => e (by subst ed; rw [hc] at hq; cases hq; exact hk.symm)) hq, hf, hk⟩
  · have once := h.once f
    rw [← Flights.test_flight fl p.credential p.flight f] at once
    rw [Flights.leave, Flights.mem_release_holders once, Flights.test_flight, h.held]
    by_cases e : d = c
    · subst e
      rw [Table.get?_erase, if_pos rfl]
      constructor
      · intro w
        obtain ⟨⟨q, hq, rfl⟩, hne⟩ := w
        rw [hc] at hq
        cases hq
        exact absurd ⟨rfl, rfl⟩ hne
      · intro w
        obtain ⟨q, hq, -⟩ := w
        cases hq
    · simp [Table.get?_erase, e]
  · have once := h.once f
    rw [← Flights.test_flight fl p.credential p.flight f] at once
    exact Flights.nodup_release_holders once _ _

end Manifest

end Gateway
