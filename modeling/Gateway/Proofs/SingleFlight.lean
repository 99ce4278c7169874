/-
  Gateway.Proofs.SingleFlight — what calls that share lookups can rely on.

  Proved, of any interleaving from any cache (`single_flight`):
  (1) No two calls are at a lookup of one credential (`Orderly.alone`).
  (2) Whoever queues on a flight finds it with an outcome, or with its turn at another of
      its callers, who can bring it one (`Orderly.attended`).
  (3) A flight starts at most one lookup more than were cancelled on it.
  (4) Once a lookup has stored an entry, nobody is at a lookup of that credential as long
      as the entry is fresh for whoever reads the clock (`Orderly.spared`).
  (5) The flight of every call that has not gone through its test stands in the map, and
      nothing takes a flight out of it, or puts another there, but the test of its last
      holder (`Orderly.stands`, `Orderly.stays`).
  (6) Every run of a gate is such an interleaving, at rest only where calls wait (`Shows`).
  Trace: a lookup cancelled and handed over, and a call that missed too early and is spared
  (`handOver_single_flight`).
-/

import Gateway.Proofs.Frames
import Gateway.Proofs.Interleaving

namespace Gateway.SingleFlight

section

variable {s : State} {c d : CallId} {k : Credential} {f g : FlightId} {e : Event}

/-! ## (1) One lookup -/

theorem one_lookup (h : Inv s) (hc : s.whereabouts c = .asking k f) (hd : s.whereabouts d = .asking k g) : c = d := by
  have on := h.held.stands c k f (by rw [hc]; rfl)
  have on' := h.held.stands d k g (by rw [hd]; rfl)
  obtain rfl : f = g := Option.some.inj (on.symm.trans on')
  have turn := (h.turns.each f).works c k (by rw [hc]; rfl)
  have turn' := (h.turns.each f).works d k (by rw [hd]; rfl)
  exact Option.some.inj (turn.symm.trans turn')

/-! ## (2) Nobody is stranded -/

theorem Whereabouts.on?_of_within? {v : Whereabouts} (h : v.within? = some (k, f)) : v.on? = some (k, f) := by
  cases v <;> first | exact h | cases h

/-- Whoever has the turn of a flight is one of its callers. -/
theorem taker (h : Inv s) (hc : (s.whereabouts c).on? = some (k, f)) (ht : (s.flights.flight f).turn = some d) :
    (s.whereabouts d).within? = some (k, f) := by
  obtain ⟨j, hd⟩ := (h.turns.each f).taker d ht
  have stands := h.held.stands d j f (Whereabouts.on?_of_within? hd)
  rw [h.held.apart k j f (h.held.stands c k f hc) stands]
  exact hd

theorem queued_attended (h : Inv s) (hc : s.whereabouts c = .aboard k f) (hq : c ∈ (s.flights.flight f).queue) :
    (s.flights.flight f).outcome.isSome ∨
      ∃ d, (s.flights.flight f).turn = some d ∧ (s.whereabouts d).within? = some (k, f) := by
  cases ho : (s.flights.flight f).outcome with
  | some o => exact Or.inl rfl
  | none =>
    cases ht : (s.flights.flight f).turn with
    | none =>
      rw [(h.turns.each f).taken ho ht] at hq
      cases hq
    | some d => exact Or.inr ⟨d, rfl, taker h (by rw [hc]; rfl) ht⟩

/-- Whoever has an outcome can give it to its flight. -/
theorem settle_done {o : Outcome} (hd : s.whereabouts d = .bearing k f o) :
    ((s.step (.settle d)).flights.flight f).outcome.isSome := by
  simp only [State.step, hd, State.move]
  rw [Flights.settle_outcome, if_pos rfl]
  rfl

/-- Whoever has the turn works for the flight once it has looked. -/
theorem resolve_works (ht : (s.flights.flight f).turn = some d) (hd : (s.whereabouts d).within? = some (k, f))
    (t : Instant) : ((s.step (.resolve d t)).whereabouts d).works? = some (k, f) := by
  cases hw : s.whereabouts d <;> rw [hw] at hd <;> cases hd
  case aboard =>
    have turn : s.flights.hasTurn f d = true := decide_eq_true ht
    cases found : (s.cache.look k t).1 with
    | some e => simp only [State.step, hw, if_pos turn, found, State.move_self]; rfl
    | none => simp only [State.step, hw, if_pos turn, found, State.move_self]; rfl
  all_goals simp only [State.step, hw]; rfl

/-- Whoever works has an outcome once it has heard from the authority. -/
theorem hear_bears (hd : (s.whereabouts d).works? = some (k, f)) (x : Cache.Finding) (t : Instant) :
    ∃ o, (s.step (.hear d x t)).whereabouts d = .bearing k f o := by
  cases hw : s.whereabouts d <;> rw [hw] at hd <;> cases hd
  case asking =>
    refine ⟨.ofResult (s.cache.conclude k x t).1, ?_⟩
    simp only [State.step, hw, State.move_self]
  case bearing o => exact ⟨o, by simp only [State.step, hw]⟩

/-- Whoever has the turn can bring the flight its outcome, whatever the authority answers. -/
theorem brings (ht : (s.flights.flight f).turn = some d) (hd : (s.whereabouts d).within? = some (k, f))
    (x : Cache.Finding) (t t' : Instant) :
    ((s.run [.resolve d t, .hear d x t', .settle d]).flights.flight f).outcome.isSome := by
  obtain ⟨o, bears⟩ := hear_bears (resolve_works ht hd t) x t'
  exact settle_done bears

/-! ## (3) The lookups of a flight -/

def begins (f : FlightId) (s : State) : Event → Bool
  | .resolve c t => (s.whereabouts c).asks?.isNone &&
      ((s.step (.resolve c t)).whereabouts c).asks?.map Prod.snd = some f
  | _ => false

def interrupts (f : FlightId) (s : State) : Event → Bool
  | .cancel c => (s.whereabouts c).asks?.map Prod.snd = some f
  | _ => false

def count (p : State → Event → Bool) (s : State) : List Event → Nat
  | [] => 0
  | e :: es => (p s e).toNat + count p (s.step e) es

def Busy (s : State) (f : FlightId) : Prop :=
  (s.flights.flight f).outcome.isSome ∨ ∃ c k, (s.whereabouts c).works? = some (k, f)

theorem begins_spec (h : begins f s e = true) : ∃ c k, (s.flights.flight f).turn = some c ∧
    s.whereabouts c = .aboard k f ∧ (s.step e).whereabouts c = .asking k f := by
  cases e <;> try cases h
  rename_i c t
  simp only [begins, Bool.and_eq_true, decide_eq_true_eq] at h
  obtain ⟨idle, asks⟩ := h
  cases step_does s (.resolve c t) with
  | nothing same =>
    rw [same, Option.isNone_iff_eq_none.mp idle] at asks
    cases asks
  | shifts d w w' cache fl was shift moved =>
    rw [moved] at asks ⊢
    cases shift with
    | finds turn found =>
      rw [State.move_self] at asks
      cases asks
    | asks turn nothing =>
      rename_i k g
      rw [State.move_self] at asks
      cases asks
      exact ⟨c, k, turn, was, State.move_self _ _ _ _ _⟩
  | drops kept _ _ => rcases kept with ⟨_, _, e⟩ | ⟨_, e⟩ <;> cases e

/-- A lookup starts only for a flight that is idle, and keeps it busy. -/
theorem begins_busy (h : Inv s) (hb : begins f s e = true) : ¬ Busy s f ∧ Busy (s.step e) f := by
  obtain ⟨c, k, turn, was, is⟩ := begins_spec hb
  refine ⟨fun busy => ?_, Or.inr ⟨c, k, by rw [is]; rfl⟩⟩
  rcases busy with done | ⟨d, j, hd⟩
  · rw [(h.turns.each f).pending c turn] at done
    cases done
  · have turn' := (h.turns.each f).works d j hd
    obtain rfl : d = c := Option.some.inj (turn'.symm.trans turn)
    rw [was] at hd
    cases hd

/-- An outcome is never taken back nor changed. -/
theorem shift_outcome {w w' : Whereabouts} {cache : Cache} {fl : Flights} {o : Outcome} (h : Inv s)
    (was : s.whereabouts c = w) (shift : Shift s c e w w' cache fl)
    (done : (s.flights.flight f).outcome = some o) : (fl.flight f).outcome = some o := by
  cases shift
  case joins k =>
    rw [Flights.join_flight]
    split <;> rw [Flights.take_flight (h.turns.unborn _ (Nat.le_refl _))] <;> exact done
  case claims => rw [Flights.claim_outcome]; exact done
  case settles k i o' =>
    rw [Flights.settle_outcome]
    split
    · rename_i here
      -- whoever bears an outcome has the turn, so that its flight has none
      have turn := (h.turns.each i).works c k (by rw [was]; rfl)
      have pending := (h.turns.each i).pending c turn
      rw [← here, done] at pending
      cases pending
    · exact done
  case cancels => rw [Flights.withdraw_outcome]; exact done
  case tests => rw [Flights.test_flight]; exact done
  case releases => rw [Flights.release_outcome]; exact done
  all_goals exact done

theorem step_outcome {o : Outcome} (h : Inv s) (e : Event) (done : (s.flights.flight f).outcome = some o) :
    ((s.step e).flights.flight f).outcome = some o := by
  cases step_does s e with
  | nothing same => rw [same]; exact done
  | drops _ flights _ => rw [flights]; exact done
  | shifts c w w' cache fl was shift moved => rw [moved]; exact shift_outcome h was shift done

theorem run_outcome {o : Outcome} (h : Inv s) (es : List Event) (done : (s.flights.flight f).outcome = some o) :
    ((s.run es).flights.flight f).outcome = some o := by
  induction es generalizing s with
  | nil => exact done
  | cons e es ih => exact ih (step_inv h e) (step_outcome h e done)

/-- A flight stays busy until its caller is cancelled at the lookup. -/
theorem step_busy (h : Inv s) (hb : Busy s f) (hi : interrupts f s e = false) : Busy (s.step e) f := by
  cases step_does s e with
  | nothing same => rw [same]; exact hb
  | drops _ flights whereabouts => rw [Busy, flights, whereabouts]; exact hb
  | shifts c w w' cache fl was shift moved =>
    rcases hb with done | ⟨d, k, hd⟩
    · obtain ⟨o, done⟩ := Option.isSome_iff_exists.mp done
      rw [moved]
      exact Or.inl (Option.isSome_iff_exists.mpr ⟨o, shift_outcome h was shift done⟩)
    · by_cases same : d = c
      · subst same
        rw [was] at hd
        cases shift
        case hears =>
          cases hd
          exact Or.inr ⟨d, k, by rw [moved, State.move_self]; rfl⟩
        case settles =>
          cases hd
          exact Or.inl (settle_done was)
        case cancels waits =>
          rcases waits with rfl | rfl
          · cases hd
          · cases hd
            simp [interrupts, was, Whereabouts.asks?] at hi
        all_goals cases hd
      · exact Or.inr ⟨d, k, by rw [moved, State.move_ne s same]; exact hd⟩

/-- By induction on the run: an idle flight has one lookup more before it than a busy one. -/
theorem lookups_le (h : Inv s) (es : List Event) :
    (Busy s f → count (begins f) s es ≤ count (interrupts f) s es) ∧
      count (begins f) s es ≤ count (interrupts f) s es + 1 := by
  induction es generalizing s with
  | nil => exact ⟨fun _ => Nat.le_refl _, Nat.le_succ _⟩
  | cons e es ih =>
    obtain ⟨busy, any⟩ := ih (step_inv h e)
    simp only [count]
    cases hb : begins f s e with
    | true =>
      obtain ⟨idle, after⟩ := begins_busy h hb
      have := busy after
      refine ⟨fun hs => absurd hs idle, ?_⟩
      simp only [Bool.toNat_true]
      omega
    | false =>
      cases hi : interrupts f s e with
      | true =>
        simp only [Bool.toNat_true, Bool.toNat_false]
        exact ⟨fun _ => by omega, by omega⟩
      | false =>
        simp only [Bool.toNat_false]
        refine ⟨fun hs => ?_, by omega⟩
        have := busy (step_busy h hs hi)
        omega

/-! ## (4) No second lookup -/

structure Kept (s : State) (k : Credential) (x : Entry) : Prop where
  entry : s.cache.entries.get? k = some x
  nobody : ∀ c f, s.whereabouts c ≠ .asking k f

theorem hear_kept {x : Entry} {r : Cache.Finding} {t : Instant} (h : Inv s) (hc : s.whereabouts c = .asking k f)
    (stored : (s.step (.hear c r t)).cache.entries.get? k = some x) : Kept (s.step (.hear c r t)) k x := by
  refine ⟨stored, fun d g hd => ?_⟩
  simp only [State.step, hc] at hd
  by_cases same : d = c
  · rw [same, State.move_self] at hd
    cases hd
  · rw [State.move_ne s same] at hd
    exact same (one_lookup h hd hc)

theorem step_kept {x : Entry} (h : Kept s k x) (fresh : ∀ t, e.reads? = some t → x.isFresh t = true) :
    Kept (s.step e) k x := by
  cases step_does s e with
  | nothing same => rw [same]; exact h
  | drops kept flights whereabouts =>
    refine ⟨?_, by rw [whereabouts]; exact h.nobody⟩
    rcases kept with ⟨j, t, rfl⟩ | ⟨t, rfl⟩
    · exact Cache.look_keeps h.entry (fresh t rfl)
    · exact Cache.sweep_keeps h.entry (fresh t rfl)
  | shifts c w w' cache fl was shift moved =>
    rw [moved]
    have keeps : ∀ {cache fl}, cache.entries.get? k = some x → (∀ f, w' ≠ .asking k f) →
        Kept (s.move c w' cache fl) k x := fun hk hw => by
      refine ⟨hk, fun d g hd => ?_⟩
      by_cases same : d = c
      · rw [same, State.move_self] at hd
        exact hw g hd
      · rw [State.move_ne s same] at hd
        exact h.nobody d g hd
    cases shift
    case asks j f t turn nothing =>
      refine keeps h.entry fun g hg => ?_
      cases hg
      rw [Cache.look_fresh h.entry (fresh t rfl)] at nothing
      cases nothing
    case hears j f r t =>
      have other : k ≠ j := fun same => h.nobody c f (same ▸ was)
      refine keeps ?_ fun g hg => (by cases hg)
      rw [Cache.conclude_other other]
      exact h.entry
    all_goals exact keeps h.entry fun g hg => by cases hg

theorem run_kept {x : Entry} (h : Kept s k x) (es : List Event)
    (fresh : ∀ e ∈ es, ∀ t, e.reads? = some t → x.isFresh t = true) : Kept (s.run es) k x := by
  induction es generalizing s with
  | nil => exact h
  | cons e es ih =>
    exact ih (step_kept h (fresh e List.mem_cons_self)) fun e' he => fresh e' (List.mem_cons_of_mem _ he)

/-! ## (5) What stands in the map -/

theorem step_stands (h : Inv s) (stands : s.flights.current.get? k = some f) :
    (s.step e).flights.current.get? k = some f ∨
      ∃ c, e = .test c ∧ s.whereabouts c = .leaving k f ∧ ∀ d, (s.whereabouts d).holds? = some f → d = c := by
  cases step_does s e with
  | nothing same => rw [same]; exact Or.inl stands
  | drops _ flights _ => rw [flights]; exact Or.inl stands
  | shifts c w w' cache fl was shift moved =>
    rw [moved]
    simp only [State.move]
    cases shift
    case joins j => exact Or.inl (Flights.join_keeps j c stands)
    case tests j g =>
      rw [Flights.test_current]
      split
      · rename_i alone
        by_cases same : k = j
        · subst same
          obtain rfl : f = g := Option.some.inj (stands.symm.trans alone.1)
          exact Or.inr ⟨c, rfl, was, (h.held.alone_iff (by rw [was]; rfl)).mp alone.2⟩
        · rw [Table.get?_erase, if_neg same]
          exact Or.inl stands
      · exact Or.inl stands
    all_goals exact Or.inl stands

end

/-! ## (6) The runs of a gate -/

/-- A call of a gate rests only where it waits. -/
def Whereabouts.passenger? : Whereabouts → Option Passenger
  | .aboard k f => some ⟨k, f, false⟩
  | .asking k f => some ⟨k, f, true⟩
  | _ => none

structure Shows (s : State) (a : Authenticator) (n : CallId) : Prop where
  cache : s.cache = a.cache
  flights : s.flights = a.flights
  passengers : ∀ c, a.passengers.get? c = (s.whereabouts c).passenger?
  new : ∀ c, n ≤ c → s.whereabouts c = .away

theorem start_shows (cache : Cache) : Shows (start cache) (Authenticator.start cache) 0 :=
  ⟨rfl, rfl, fun _ => rfl, fun _ _ => rfl⟩

namespace Shows

variable {s : State} {a : Authenticator} {n c : CallId} {k : Credential} {f : FlightId}

theorem later (h : Shows s a n) {m : CallId} (hm : n ≤ m) : Shows s a m :=
  ⟨h.cache, h.flights, h.passengers, fun c hc => h.new c (Nat.le_trans hm hc)⟩

theorem moved (h : Shows s a n) {m : CallId} (hm : n ≤ m) (hc : c < m) {v : Whereabouts} {cache : Cache} {fl : Flights}
    {ps : Table CallId Passenger} (hp : ∀ d, ps.get? d = if d = c then v.passenger? else a.passengers.get? d) :
    Shows (s.move c v cache fl) ⟨cache, fl, ps⟩ m := by
  refine ⟨rfl, rfl, fun d => ?_, fun d hd => ?_⟩
  · rw [hp]
    by_cases e : d = c
    · rw [if_pos e, e, State.move_self]
    · rw [if_neg e, State.move_ne s e]; exact h.passengers d
  · rw [State.move_ne s (Nat.ne_of_gt (Nat.lt_of_lt_of_le hc hd))]
    exact h.new d (Nat.le_trans hm hd)

theorem passenger (h : Shows s a n) {p : Passenger} (hp : a.passengers.get? c = some p) :
    c < n ∧ (p.asking = true ∧ s.whereabouts c = .asking p.credential p.flight ∨
      p.asking = false ∧ s.whereabouts c = .aboard p.credential p.flight) := by
  rw [h.passengers] at hp
  refine ⟨Nat.lt_of_not_le fun hn => ?_, ?_⟩
  · rw [h.new c hn] at hp
    cases hp
  · cases hw : s.whereabouts c <;> rw [hw] at hp <;> cases hp
    · exact Or.inr ⟨rfl, rfl⟩
    · exact Or.inl ⟨rfl, rfl⟩

/-- A passenger leaves. -/
theorem erased (h : Shows s a n) (hc : c < n) (cache : Cache) (fl : Flights) :
    Shows (s.move c .gone cache fl) ⟨cache, fl, a.passengers.erase c⟩ n :=
  h.moved (Nat.le_refl n) hc fun d => by rw [Table.get?_erase]; rfl

theorem cancel (h : Shows s a n) (c : CallId) : ∃ es, Shows (s.run es) (a.cancel c) n := by
  unfold Authenticator.cancel
  cases hp : a.passengers.get? c with
  | none => exact ⟨[], h⟩
  | some p =>
    obtain ⟨hc, rests⟩ := h.passenger hp
    refine ⟨[.cancel c, .test c, .release c], ?_⟩
    have run : s.run [.cancel c, .test c, .release c] =
        s.move c .gone s.cache ((s.flights.withdraw p.flight c).leave p.credential p.flight c) := by
      rcases rests with ⟨-, hw⟩ | ⟨-, hw⟩ <;> simp [State.run, State.step, State.move, hw, Flights.leave]
    rw [run, h.cache, h.flights]
    exact h.erased hc _ _

theorem hear (h : Shows s a n) (c : CallId) (x : Cache.Finding) (t : Instant) :
    ∃ es, Shows (s.run es) (a.hear c x t).next n := by
  unfold Authenticator.hear
  cases hp : a.passengers.get? c with
  | none => exact ⟨[], h⟩
  | some p =>
    obtain ⟨hc, rests⟩ := h.passenger hp
    rcases rests with ⟨asking, hw⟩ | ⟨asking, -⟩
    · simp only [asking, if_true]
      refine ⟨[.hear c x t, .settle c, .test c, .release c], ?_⟩
      have run : s.run [.hear c x t, .settle c, .test c, .release c] =
          s.move c .gone (s.cache.conclude p.credential x t).2.1
            ((s.flights.settle p.flight (.ofResult (s.cache.conclude p.credential x t).1)).leave
              p.credential p.flight c) := by
        simp [State.run, State.step, State.move, hw, Flights.leave]
      rw [run, h.cache, h.flights]
      exact h.erased hc _ _
    · simp only [asking]
      exact ⟨[], h⟩

theorem resume (h : Shows s a n) (c : CallId) (t : Instant) : ∃ es, Shows (s.run es) (a.resume c t).next n := by
  unfold Authenticator.resume
  cases hp : a.passengers.get? c with
  | none => exact ⟨[], h⟩
  | some p =>
    obtain ⟨hc, rests⟩ := h.passenger hp
    rcases rests with ⟨asking, -⟩ | ⟨asking, hw⟩
    · simp only [asking, if_true]
      exact ⟨[], h⟩
    · simp only [asking, Bool.false_eq_true, if_false]
      cases outcome : (a.flights.flight p.flight).outcome with
      | some o =>
        refine ⟨[.obtain c, .test c, .release c], ?_⟩
        have run : s.run [.obtain c, .test c, .release c] =
            s.move c .gone s.cache (s.flights.leave p.credential p.flight c) := by
          simp [State.run, State.step, State.move, hw, h.flights, outcome, Flights.leave]
        rw [run, h.cache, h.flights]
        exact h.erased hc _ _
      | none =>
        simp only
        split
        · rename_i turn
          unfold Authenticator.resolve
          simp only
          split
          · rename_i e cache look
            refine ⟨[.claim c, .resolve c t, .forget p.credential t, .settle c, .test c, .release c], ?_⟩
            have run : s.run [.claim c, .resolve c t, .forget p.credential t, .settle c, .test c, .release c] =
                s.move c .gone cache (((s.flights.claim p.flight c).settle p.flight (.authorized e.authorization)).leave
                  p.credential p.flight c) := by
              simp [State.run, State.step, State.move, hw, h.flights, h.cache, outcome, turn, look, Flights.leave]
            rw [run, h.flights]
            exact h.erased hc _ _
          · rename_i cache look
            refine ⟨[.claim c, .resolve c t, .forget p.credential t], ?_⟩
            have run : s.run [.claim c, .resolve c t, .forget p.credential t] =
                s.move c (.asking p.credential p.flight) cache (s.flights.claim p.flight c) := by
              simp [State.run, State.step, State.move, hw, h.flights, h.cache, outcome, turn, look]
            rw [run, h.flights]
            exact h.moved (Nat.le_refl n) hc fun d => Table.get?_insert _ _ _ _
        · refine ⟨[.claim c], ?_⟩
          have run : s.run [.claim c] =
              s.move c (.aboard p.credential p.flight) s.cache (s.flights.claim p.flight c) := by
            simp [State.run, State.step, hw, h.flights, outcome]
          rw [run, h.cache, h.flights]
          refine h.moved (Nat.le_refl n) hc fun d => ?_
          split
          · rename_i e
            obtain ⟨k, f, b⟩ := p
            rw [e, hp, show b = false from asking]; rfl
          · rfl

theorem ask (h : Shows s a n) (k : Credential) (t : Instant) :
    ∃ es, Shows (s.run es) (a.ask n k t).next (n + 1) := by
  have away : s.whereabouts n = .away := h.new n (Nat.le_refl n)
  unfold Authenticator.ask
  split
  · rename_i e cache look
    refine ⟨[.look n k t, .forget k t], ?_⟩
    have run : s.run [.look n k t, .forget k t] = s.move n .gone cache s.flights := by
      simp [State.run, State.step, State.move, away, h.cache, look]
    rw [run, h.flights]
    refine h.moved (Nat.le_succ n) (Nat.lt_succ_self n) fun d => ?_
    split
    · rename_i e
      rw [e, h.passengers, away]; rfl
    · rfl
  · rename_i cache look
    have run : s.run [.look n k t, .forget k t, .join n] =
        s.move n (.aboard k (a.flights.join k n).1) cache (a.flights.join k n).2 := by
      simp [State.run, State.step, State.move, away, h.cache, h.flights, look]
    have boards : Shows (s.run [.look n k t, .forget k t, .join n])
        ⟨cache, (a.flights.join k n).2, a.passengers.insert n ⟨k, (a.flights.join k n).1, false⟩⟩ (n + 1) := by
      rw [run]
      exact h.moved (Nat.le_succ n) (Nat.lt_succ_self n) fun d => Table.get?_insert _ _ _ _
    obtain ⟨es, goes⟩ := boards.resume n t
    exact ⟨[.look n k t, .forget k t, .join n] ++ es, by rw [State.run_append]; exact goes⟩

theorem sweep (h : Shows s a n) (t : Instant) : Shows (s.step (.sweep t)) (a.sweep t) n :=
  ⟨congrArg (Cache.sweep · t) h.cache, h.flights, h.passengers, h.new⟩

theorem step {g : Gate} (h : Shows s g.authenticator g.next) (e : Gate.Event) :
    ∃ es, Shows (s.run es) (g.step e).authenticator (g.step e).next := by
  rw [Gate.step_authenticator, Gate.step_next]
  have still : ∃ es, Shows (s.run es) (Authenticator.still g.authenticator).next g.next := ⟨[], h⟩
  cases e with
  | arrived r =>
    cases hr : r.credential? with
    | some k => rw [Gate.turn_arrived hr]; exact h.ask k g.now
    | none => rw [Gate.turn_arrived_none hr]; exact ⟨[], h.later (Nat.le_succ _)⟩
  | resumed c =>
    rcases Gate.turn_resumed g c with e | ⟨r, -, e⟩
    · rw [e]; exact still
    · rw [e]; exact h.resume c g.now
  | lookedUp c x =>
    rcases Gate.turn_lookedUp g c x with e | ⟨r, -, e⟩
    · rw [e]; exact still
    · rw [e]; exact h.hear c x g.now
  | cancelled c =>
    rcases Gate.turn_cancelled g c with e | e
    · rw [e]; exact still
    · rw [e]; exact h.cancel c
  | swept x =>
    cases x with
    | credentials => exact ⟨[.sweep g.now], h.sweep g.now⟩
    | windows => exact still
  | _ => exact still

/-- Every run of a gate is one of these interleavings. -/
theorem run {g : Gate} (h : Shows s g.authenticator g.next) (gs : List Gate.Event) :
    ∃ es, Shows (s.run es) (g.run gs).authenticator (g.run gs).next := by
  induction gs generalizing s g with
  | nil => exact ⟨[], h⟩
  | cons e gs ih =>
    obtain ⟨es, h⟩ := h.step e
    obtain ⟨es', h⟩ := ih h
    exact ⟨es ++ es', by rw [State.run_append]; exact h⟩

end Shows

/-- A gate that needs a lookup for a call is one where the call is at it. -/
theorem asking_of_need {s : State} {g : Gate} (h : Shows s g.authenticator g.next) {c : CallId} {k : Credential}
    (hc : g.need? c = some (.lookup k)) : ∃ f, s.whereabouts c = .asking k f := by
  obtain ⟨p, hp, asking, rfl⟩ := Gate.passenger_of_lookup hc
  obtain ⟨-, rests⟩ := h.passenger hp
  rcases rests with ⟨-, hw⟩ | ⟨aboard, -⟩
  · exact ⟨p.flight, hw⟩
  · exact absurd (asking.symm.trans aboard) (by decide)

/-! ## Put together -/

/-- Call `d` has the turn of the flight, and can bring it an outcome. -/
structure Runs (s : State) (d : CallId) (k : Credential) (f : FlightId) : Prop where
  turn : (s.flights.flight f).turn = some d
  within : (s.whereabouts d).within? = some (k, f)
  brings : ∀ x t t', ((s.run [.resolve d t, .hear d x t', .settle d]).flights.flight f).outcome.isSome

structure Orderly (s : State) : Prop where
  alone : ∀ c d k f g, s.whereabouts c = .asking k f → s.whereabouts d = .asking k g → c = d
  attended : ∀ c k f, s.whereabouts c = .aboard k f → c ∈ (s.flights.flight f).queue →
    (s.flights.flight f).outcome.isSome ∨ ∃ d, Runs s d k f
  spared : ∀ c k f r t x, s.whereabouts c = .asking k f →
    (s.step (.hear c r t)).cache.entries.get? k = some x →
    ∀ es, (∀ e ∈ es, ∀ t, e.reads? = some t → x.isFresh t = true) →
      ∀ d g, ((s.step (.hear c r t)).run es).whereabouts d ≠ .asking k g
  stands : ∀ c k f, (s.whereabouts c).on? = some (k, f) → s.flights.current.get? k = some f
  stays : ∀ k f e, s.flights.current.get? k = some f → (s.step e).flights.current.get? k = some f ∨
    ∃ c, e = .test c ∧ s.whereabouts c = .leaving k f ∧ ∀ d, (s.whereabouts d).holds? = some f → d = c

theorem Inv.orderly {s : State} (h : Inv s) : Orderly s where
  alone c d k f g hc hd := one_lookup h hc hd
  attended c k f hc hq := by
    rcases queued_attended h hc hq with done | ⟨d, turn, within⟩
    · exact Or.inl done
    · exact Or.inr ⟨d, turn, within, brings turn within⟩
  spared c k f r t x hc stored es fresh := (run_kept (hear_kept h hc stored) es fresh).nobody
  stands := h.held.stands
  stays k f e hk := step_stands h hk

/-- However calls interleave, wherever they are cancelled. -/
theorem single_flight (cache : Cache) :
    (∀ es, Orderly ((start cache).run es) ∧
      ∀ f, count (begins f) (start cache) es ≤ count (interrupts f) (start cache) es + 1) ∧
    ∀ t limiter pinger gs, let g := (Gate.start t cache limiter pinger).run gs
      (∃ es, Shows ((start cache).run es) g.authenticator g.next) ∧
        ∀ c d k, g.need? c = some (.lookup k) → g.need? d = some (.lookup k) → c = d := by
  refine ⟨fun es => ⟨(run_inv (start_inv cache) es).orderly, fun f => ?_⟩, fun t limiter pinger gs => ?_⟩
  · exact (lookups_le (start_inv cache) es).2
  · have rests : Shows (start cache) (Gate.start t cache limiter pinger).authenticator 0 := start_shows cache
    obtain ⟨es, shows⟩ := rests.run gs
    refine ⟨⟨es, shows⟩, fun c d k hc hd => ?_⟩
    obtain ⟨f, hc⟩ := asking_of_need shows hc
    obtain ⟨g, hd⟩ := asking_of_need shows hd
    exact one_lookup (run_inv (start_inv cache) es) hc hd

/-- Calls 0, 1 and 2 find nothing. Call 0 is cancelled at its lookup while call 1 waits, which
takes over and is answered. Call 2 boards only when both have gone. -/
def handOver (k : Credential) (a : Authorization) : List Event :=
  [.look 0 k 0, .look 1 k 0, .look 2 k 0, .join 0, .claim 0, .resolve 0 0, .join 1, .claim 1, .cancel 0,
    .resolve 1 0, .test 0, .release 0, .hear 1 (.answered (.ok (.valid a))) 0, .settle 1, .test 1, .release 1,
    .join 2, .claim 2, .resolve 2 1]

/-- The first flight starts two lookups for one that was cancelled. The second one starts none. -/
theorem handOver_single_flight :
    let k : Credential := ⟨"t"⟩
    let a : Authorization := ⟨⟨"acct"⟩, .card, none⟩
    let cache : Cache := ⟨Span.ofMillis 2, Span.ofMillis 500, Table.empty⟩
    let s := (start cache).run (handOver k a)
    Orderly s ∧ count (begins 0) (start cache) (handOver k a) = 2 ∧
      count (interrupts 0) (start cache) (handOver k a) = 1 ∧
      s.whereabouts 2 = .bearing k 1 (.authorized a) ∧ count (begins 1) (start cache) (handOver k a) = 0 := by
  intro k a cache s
  refine ⟨((single_flight cache).1 (handOver k a)).1, ?_, ?_, ?_, ?_⟩ <;> decide

end Gateway.SingleFlight
