/-
  Gateway.Proofs.Backing — an authenticator whose parts all have grounds.

  `Backed` says of every entry, every caller aboard and every outcome that a caller can
  still take that the ground for it is given: `E`, `B` and `O` are those grounds. Every
  operation keeps it as long as what it adds has its own ground, and a result comes from a
  fresh entry or from an outcome that has one.
-/

import Gateway.Proofs.CacheLaws
import Gateway.Proofs.Manifest

namespace Gateway

section

variable (T : Span) (E : Credential → Entry → Prop) (B : CallId → Credential → FlightId → Prop)
variable (O : FlightId → Credential → Outcome → Prop)

structure Backed (a : Authenticator) (n : CallId) : Prop where
  manifest : Manifest a.flights a.passengers n
  ttl : a.cache.ttl = T
  entries : ∀ k e, a.cache.entries.get? k = some e → E k e
  aboard : ∀ c p, a.passengers.get? c = some p → B c p.credential p.flight
  outcomes : ∀ c p o, a.passengers.get? c = some p → (a.flights.flight p.flight).outcome = some o →
    O p.flight p.credential o

end

namespace Backed

variable {T : Span} {E E' : Credential → Entry → Prop} {B B' : CallId → Credential → FlightId → Prop}
variable {O O' : FlightId → Credential → Outcome → Prop} {a : Authenticator} {n : CallId}

theorem start {c : Cache} (ht : c.ttl = T) (hc : ∀ k, c.entries.get? k = none) (n : CallId) :
    Backed T E B O (Authenticator.start c) n := by
  refine ⟨Manifest.empty n, ht, fun k e h => ?_, fun c p h => ?_, fun c p o h => ?_⟩
  · rw [show (Authenticator.start c).cache = c from rfl, hc] at h; cases h
  · cases h
  · cases h

theorem mono (h : Backed T E B O a n) (he : ∀ k e, E k e → E' k e) (hb : ∀ c k i, B c k i → B' c k i)
    (ho : ∀ i k o, O i k o → O' i k o) : Backed T E' B' O' a n :=
  ⟨h.manifest, h.ttl, fun k e hk => he k e (h.entries k e hk), fun c p hc => hb c _ _ (h.aboard c p hc),
    fun c p o hc hp => ho _ _ o (h.outcomes c p o hc hp)⟩

theorem later (h : Backed T E B O a n) {m : CallId} (hm : n ≤ m) : Backed T E B O a m :=
  { h with manifest := h.manifest.later hm }

/-! ## Parts of the operations -/

theorem recache (h : Backed T E B O a n) {cache : Cache} (ht : cache.ttl = a.cache.ttl)
    (he : ∀ k e, cache.entries.get? k = some e → E k e) : Backed T E B O { a with cache } n :=
  ⟨h.manifest, ht.trans h.ttl, he, h.aboard, h.outcomes⟩

theorem look (h : Backed T E B O a n) (k : Credential) (now : Instant) :
    Backed T E B O { a with cache := (a.cache.look k now).2 } n :=
  h.recache (Cache.look_ttl _ _ _) fun j e he => h.entries j e (Cache.look_subset he)

/-- What changes turns and nothing else. -/
theorem reflight (h : Backed T E B O a n) {fl : Flights} (hs : Flights.SameHold a.flights fl)
    (ho : ∀ i, (fl.flight i).outcome = (a.flights.flight i).outcome) : Backed T E B O { a with flights := fl } n :=
  ⟨h.manifest.same hs fun _ => rfl, h.ttl, h.entries, h.aboard,
    fun c p o hc hp => h.outcomes c p o hc ((ho p.flight).symm.trans hp)⟩

theorem claim (h : Backed T E B O a n) (f : FlightId) (c : CallId) :
    Backed T E B O { a with flights := a.flights.claim f c } n :=
  h.reflight (Flights.claim_same _ _ _) (Flights.claim_outcome _ _ _)

/-- The outcome of a flight becomes that of all its callers, who have one credential. -/
theorem settle (h : Backed T E B O a n) {c : CallId} {p : Passenger} (hc : a.passengers.get? c = some p)
    {o : Outcome} (ho : O p.flight p.credential o) :
    Backed T E B O { a with flights := a.flights.settle p.flight o } n := by
  refine ⟨h.manifest.same (Flights.settle_same _ _ _) fun _ => rfl, h.ttl, h.entries, h.aboard,
    fun d q o' hd hq => ?_⟩
  rw [Flights.settle_outcome] at hq
  split at hq
  · rename_i e
    cases hq
    rw [h.manifest.one hd hc e, e]
    exact ho
  · exact h.outcomes d q o' hd hq

/-- The caller that has the turn goes to the authority. -/
theorem asking (h : Backed T E B O a n) {c : CallId} {p : Passenger} (hc : a.passengers.get? c = some p) :
    Backed T E B O { a with passengers := a.passengers.insert c { p with asking := true } } n := by
  have seat : ∀ {d q}, (a.passengers.insert c { p with asking := true }).get? d = some q →
      ∃ q', a.passengers.get? d = some q' ∧ q'.credential = q.credential ∧ q'.flight = q.flight := by
    intro d q hd
    rw [Table.get?_insert] at hd
    split at hd
    · rename_i e; cases hd; exact ⟨p, e ▸ hc, rfl, rfl⟩
    · exact ⟨q, hd, rfl, rfl⟩
  refine ⟨h.manifest.same ⟨fun _ => rfl, rfl, rfl⟩ fun d => ?_, h.ttl, h.entries, fun d q hd => ?_,
    fun d q o hd hq => ?_⟩
  · rw [Table.get?_insert]
    split
    · rename_i e; rw [e, hc]; rfl
    · rfl
  · obtain ⟨q', hd', ek, ef⟩ := seat hd
    exact ek ▸ ef ▸ h.aboard d q' hd'
  · obtain ⟨q', hd', ek, ef⟩ := seat hd
    rw [← ef] at hq ⊢
    exact ek ▸ h.outcomes d q' o hd' hq

theorem leave (h : Backed T E B O a n) {c : CallId} {p : Passenger} (hc : a.passengers.get? c = some p) :
    Backed T E B O { a with flights := a.flights.leave p.credential p.flight c
                            passengers := a.passengers.erase c } n := by
  have seat : ∀ {d q}, (a.passengers.erase c).get? d = some q → a.passengers.get? d = some q := by
    intro d q hd
    rw [Table.get?_erase] at hd
    split at hd
    · cases hd
    · exact hd
  refine ⟨h.manifest.leave hc, h.ttl, h.entries, fun d q hd => h.aboard d q (seat hd), fun d q o hd hq => ?_⟩
  exact h.outcomes d q o (seat hd) ((Flights.leave_outcome _ _ _ _ _).symm.trans hq)

/-- A flight that stands has a caller, whose outcome becomes that of whoever joins. -/
theorem board (h : Backed T E B O a n) {k : Credential} (hb : B n k (a.flights.join k n).1) :
    Backed T E B O { a with flights := (a.flights.join k n).2
                            passengers := a.passengers.insert n ⟨k, (a.flights.join k n).1, false⟩ } (n + 1) := by
  have outcome : ∀ i, ((a.flights.join k n).2.flight i).outcome = ((a.flights.take k).2.flight i).outcome := by
    intro i
    rw [Flights.join_flight]
    split <;> rfl
  refine ⟨h.manifest.board k, h.ttl, h.entries, fun d q hd => ?_, fun d q o hd hq => ?_⟩
  · rw [Table.get?_insert] at hd
    split at hd
    · rename_i e; cases hd; exact e ▸ hb
    · exact h.aboard d q hd
  · rw [outcome] at hq
    rcases Flights.take_cases a.flights k with ⟨hk, same⟩ | ⟨hk, hf, -, -, fresh⟩
    · rw [same] at hq
      rw [Table.get?_insert] at hd
      split at hd
      · cases hd
        obtain ⟨d', q', hd', ef, ek⟩ := h.manifest.manned k _ hk
        have := h.outcomes d' q' o hd' (by rw [ef]; exact hq)
        rwa [ek, ef] at this
      · exact h.outcomes d q o hd hq
    · rw [fresh] at hq
      split at hq
      · cases hq
      · rw [Table.get?_insert] at hd
        split at hd
        · rename_i e _; cases hd; exact absurd hf e
        · exact h.outcomes d q o hd hq

end Backed

/-! ## The operations -/

section

variable (T : Span) (E : Credential → Entry → Prop) (B : CallId → Credential → FlightId → Prop)
variable (O : FlightId → Credential → Outcome → Prop)

/-- A step after which everything has its ground, and whose result, if any, has one too. -/
structure Yields (s : Authenticator.Step) (n : CallId) (R : Except Failure Authorization → Prop) : Prop where
  next : Backed T E B O s.next n
  result : ∀ x, s.result = some x → R x

end

namespace Backed

variable {T : Span} {E : Credential → Entry → Prop} {B : CallId → Credential → FlightId → Prop}
variable {O : FlightId → Credential → Outcome → Prop} {a : Authenticator} {n : CallId} {now : Instant}

def Taken (O : FlightId → Credential → Outcome → Prop) (p : Passenger) (x : Except Failure Authorization) : Prop :=
  ∃ o, x = o.result ∧ O p.flight p.credential o

theorem still (h : Backed T E B O a n) {R : Except Failure Authorization → Prop} :
    Yields T E B O (Authenticator.still a) n R :=
  ⟨h, fun _ hx => by cases hx⟩

theorem land (h : Backed T E B O a n) {c : CallId} {p : Passenger} (hc : a.passengers.get? c = some p)
    {o : Outcome} (ho : O p.flight p.credential o) : Yields T E B O (a.land c p o) n (Taken O p) :=
  ⟨h.leave hc, fun _ hx => ⟨o, (Option.some.inj hx).symm, ho⟩⟩

theorem resolve (h : Backed T E B O a n) {c : CallId} {p : Passenger} (hc : a.passengers.get? c = some p)
    (found : ∀ e, a.cache.entries.get? p.credential = some e → e.isFresh now →
      O p.flight p.credential (.authorized e.authorization)) :
    Yields T E B O (a.resolve c p now) n (Taken O p) := by
  have hl := h.look p.credential now
  unfold Authenticator.resolve
  cases he : a.cache.look p.credential now with
  | mk e cache =>
    rw [he] at hl
    cases e with
    | some e =>
      have fresh : a.cache.entries.get? p.credential = some e ∧ e.isFresh now = true :=
        Cache.look_some (by rw [he])
      have ho := found e fresh.1 fresh.2
      exact (hl.settle (c := c) hc ho).land hc ho
    | none => exact (hl.asking (c := c) hc).still

theorem resume (h : Backed T E B O a n) {c : CallId}
    (found : ∀ p, a.passengers.get? c = some p → ∀ e, a.cache.entries.get? p.credential = some e → e.isFresh now →
      O p.flight p.credential (.authorized e.authorization)) :
    Yields T E B O (a.resume c now) n fun x => ∃ p, a.passengers.get? c = some p ∧ Taken O p x := by
  unfold Authenticator.resume
  split
  · exact h.still
  · rename_i p hc
    split
    · exact h.still
    · split
      · rename_i o ho
        obtain ⟨hn, hr⟩ := h.land hc (h.outcomes c p o hc ho)
        exact ⟨hn, fun x hx => ⟨p, hc, hr x hx⟩⟩
      · simp only
        split
        · obtain ⟨hn, hr⟩ := (h.claim p.flight c).resolve (c := c) hc (found p hc)
          exact ⟨hn, fun x hx => ⟨p, hc, hr x hx⟩⟩
        · exact (h.claim p.flight c).still

/-- The second look of a caller that has just boarded finds nothing, as the first did. -/
theorem ask (h : Backed T E B O a n) {k : Credential} (hb : B n k (a.flights.take k).1) :
    Yields T E B O (a.ask n k now) (n + 1) fun x =>
      (∃ e, a.cache.entries.get? k = some e ∧ e.isFresh now ∧ x = .ok e.authorization) ∨
        Taken O ⟨k, (a.flights.take k).1, false⟩ x := by
  have hl := h.look k now
  unfold Authenticator.ask
  cases he : a.cache.look k now with
  | mk e cache =>
    rw [he] at hl
    cases e with
    | some e =>
      have fresh : a.cache.entries.get? k = some e ∧ e.isFresh now = true := Cache.look_some (by rw [he])
      exact ⟨hl.later (Nat.le_succ n), fun x hx => Or.inl ⟨e, fresh.1, fresh.2, (Option.some.inj hx).symm⟩⟩
    | none =>
      have missed : (a.cache.look k now).2.entries.get? k = none := Cache.look_none (by rw [he])
      rw [he] at missed
      have hc := Table.get?_insert_self a.passengers n (⟨k, (a.flights.join k n).1, false⟩ : Passenger)
      obtain ⟨hn, hr⟩ := (hl.board (k := k) hb).resume (c := n) fun p hp e he _ => by
        rw [show p = _ from (Option.some.inj (hc.symm.trans hp)).symm] at he
        exact absurd (missed.symm.trans he) (by simp)
      refine ⟨hn, fun x hx => Or.inr ?_⟩
      obtain ⟨p, hp, hx⟩ := hr x hx
      rwa [show p = _ from (Option.some.inj (hc.symm.trans hp)).symm] at hx

theorem hear (h : Backed T E B O a n) {c : CallId} {f : Cache.Finding}
    (told : ∀ p, a.passengers.get? c = some p → p.asking = true → ∀ o : Outcome, o.Tells f →
      O p.flight p.credential o)
    (bought : ∀ p, a.passengers.get? c = some p → p.asking = true → ∀ e : Entry,
      f = .answered (.ok (.valid e.authorization)) → e.since = now → e.expires = now.nanos + T.nanos →
      E p.credential e) :
    Yields T E B O (a.hear c f now) n fun x => ∃ p, a.passengers.get? c = some p ∧ Taken O p x := by
  unfold Authenticator.hear
  split
  · exact h.still
  · rename_i p hc
    split
    · rename_i hp
      have ho := told p hc hp _ (Cache.conclude_tells a.cache p.credential f now)
      have hk : Backed T E B O { a with cache := (a.cache.conclude p.credential f now).2.1 } n := by
        refine h.recache (Cache.conclude_ttl _ _ _ _) fun j e he => ?_
        rcases Cache.conclude_entries he with he | ⟨rfl, hf, hs, hx⟩
        · exact h.entries j e he
        · exact bought p hc hp e hf hs (h.ttl ▸ hx)
      obtain ⟨hn, hr⟩ := (hk.settle (c := c) hc ho).land hc ho
      exact ⟨hn, fun x hx => ⟨p, hc, hr x hx⟩⟩
    · exact h.still

theorem cancel (h : Backed T E B O a n) (c : CallId) : Backed T E B O (a.cancel c) n := by
  unfold Authenticator.cancel
  split
  · exact h
  · rename_i p hc
    exact (h.reflight (Flights.withdraw_same _ p.flight c) (Flights.withdraw_outcome _ _ _)).leave hc

theorem sweep (h : Backed T E B O a n) (now : Instant) : Backed T E B O (a.sweep now) n :=
  h.recache rfl fun k e he => h.entries k e (Cache.sweep_subset he)

end Backed

end Gateway
