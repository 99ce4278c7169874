/-
  Gateway.Proofs.Replays — what the callers of a flight are told of its lookup.

  The result of a lookup becomes the outcome of its flight, and each caller makes a result of the
  outcome again (`Outcome.replay`). A record, a refusal and an unavailable authority come back as
  they were. Any other failure comes back as an internal one whose message is the text of what
  failed, which starts with the kind.

  The one such failure of a lookup is that an authorization would be kept beyond the calendar
  (`Outlasts`); with a time to live of thirty days at most, only its last thirty days can see it
  (`Outlasts.late`). So in any run (`shared_result`):
  - A lookup is replayed as it ended exactly if its authorization does not outlast the calendar.
    Otherwise the kind stays, and the message says the kind once more.
  - All callers of a flight, whoever had the turn, are told the replay of its one lookup, or the
    fresh entry that made the lookup needless.
  The trace of two callers that are told something else than the lookup found is
  `overflow_is_labelled_twice`.
-/

import Gateway.Proofs.Provenance
import Gateway.Proofs.SingleFlight

namespace Gateway

/-! ## The replay of a result -/

def Outcome.replay (r : Except Failure Authorization) : Except Failure Authorization := (ofResult r).result

theorem Failure.text_ne_message (e : Failure) : e.text ≠ e.message := by
  intro same
  have longer : e.text.length = e.kind.label.length + 2 + e.message.length := by
    rw [Failure.text, String.length_append, String.length_append]
    rfl
  rw [same] at longer
  omega

namespace Outcome

theorem replay_internal (m : String) :
    replay (.error ⟨.internal, m⟩) = .error ⟨.internal, "internal error: " ++ m⟩ := rfl

theorem replay_eq_self_iff {r : Except Failure Authorization} :
    replay r = r ↔ ∀ e, r = .error e → e.kind = .unauthorized ∨ e.kind = .unavailable := by
  cases r with
  | ok a => exact iff_of_true rfl fun e h => by cases h
  | error e =>
    obtain ⟨kind, message⟩ := e
    cases kind
    case unauthorized => exact iff_of_true rfl fun e h => by cases h; exact Or.inl rfl
    case unavailable => exact iff_of_true rfl fun e h => by cases h; exact Or.inr rfl
    -- what is replayed of the other kinds bears another message
    all_goals
      refine iff_of_false (fun same => ?_) fun known => ?_
      · exact Failure.text_ne_message _ (congrArg Failure.message (Except.error.inj same))
      · rcases known _ rfl with h | h <;> cases h

end Outcome

/-! ## The result of a lookup -/

namespace Cache

variable {c : Cache} {k : Credential} {f : Finding} {now : Instant}

/-- The authority gives an authorization that would be kept beyond the calendar. -/
def Outlasts (c : Cache) (f : Finding) (now : Instant) : Prop :=
  ∃ a, f = .answered (.ok (.valid a)) ∧ c.ttl.nanos ≠ 0 ∧ Instant.last.nanos + 999999 < now.nanos + c.ttl.nanos

theorem Outlasts.late (h : c.Outlasts f now) (short : c.ttl.nanos ≤ longestTtl.nanos) :
    Instant.last.nanos + 999999 < now.nanos + longestTtl.nanos := by
  obtain ⟨-, -, -, beyond⟩ := h
  omega

theorem keep_eq_none_iff {a : Authorization} : c.keep k a now = none ↔
    c.ttl.nanos ≠ 0 ∧ Instant.last.nanos + 999999 < now.nanos + c.ttl.nanos := by
  unfold keep
  simp only
  split
  · rename_i zero
    exact iff_of_false (fun h => by cases h) fun h => h.1 zero
  · rename_i nonzero
    split
    · rename_i beyond
      exact iff_of_true rfl ⟨nonzero, beyond⟩
    · rename_i within
      exact iff_of_false (fun h => by cases h) fun h => within h.2

theorem lookup_error {patience : Span} {e : Failure} (h : f.lookup patience = .error e) : e.kind = .unavailable := by
  cases f with
  | silent => cases h; rfl
  | answered x =>
    cases x with
    | ok l => cases h
    | error e' =>
      unfold Finding.lookup at h
      simp only [Except.error.injEq] at h
      subst h
      split
      · assumption
      · rfl

theorem conclude_of_outlasts (h : c.Outlasts f now) :
    (c.conclude k f now).1 = .error ⟨.internal, "credential cache expiry overflows at " ++ now.text⟩ := by
  obtain ⟨a, rfl, beyond⟩ := h
  unfold conclude
  simp only [Finding.lookup, keep_eq_none_iff.mpr beyond]

theorem conclude_within (h : ¬ c.Outlasts f now) {e : Failure} (failed : (c.conclude k f now).1 = .error e) :
    e.kind = .unauthorized ∨ e.kind = .unavailable := by
  unfold conclude at failed
  split at failed
  · rename_i e' unanswered
    cases failed
    exact Or.inr (lookup_error unanswered)
  · cases failed
    exact Or.inl rfl
  · rename_i a valid
    split at failed
    · rename_i beyond
      exact absurd ⟨a, lookup_ok valid, keep_eq_none_iff.mp beyond⟩ h
    · cases failed

/-- The failure to keep an authorization is the only result that is not replayed as it is. -/
theorem replay_conclude_iff :
    Outcome.replay (c.conclude k f now).1 = (c.conclude k f now).1 ↔ ¬ c.Outlasts f now := by
  rw [Outcome.replay_eq_self_iff]
  refine ⟨fun known beyond => ?_, fun within e => conclude_within within⟩
  rcases known _ (conclude_of_outlasts beyond) with h | h <;> cases h

end Cache

/-! ## The outcome of a flight -/

namespace Authenticator

variable {a : Authenticator} {c : CallId} {p : Passenger} {now : Instant}

def Step.Shares (s : Step) (i : FlightId) : Prop :=
  ∀ x, s.result = some x → ∃ o, (s.next.flights.flight i).outcome = some o ∧ x = o.result

theorem still_shares (i : FlightId) : (still a).Shares i := fun _ h => by cases h

theorem land_shares {o : Outcome} (h : (a.flights.flight p.flight).outcome = some o) :
    (a.land c p o).Shares p.flight := by
  intro x hx
  refine ⟨o, ?_, (Option.some.inj hx).symm⟩
  exact (Flights.leave_outcome _ _ _ _ _).trans h

theorem settled (fl : Flights) (i : FlightId) (o : Outcome) : ((fl.settle i o).flight i).outcome = some o := by
  rw [Flights.settle_outcome, if_pos rfl]

theorem resolve_shares : (a.resolve c p now).Shares p.flight := by
  unfold resolve
  split
  · exact land_shares (settled _ _ _)
  · exact still_shares _

theorem resume_shares (hp : a.passengers.get? c = some p) : (a.resume c now).Shares p.flight := by
  unfold resume
  rw [hp]
  simp only
  split
  · exact still_shares _
  · split
    · rename_i o ho
      exact land_shares ho
    · split
      · exact resolve_shares
      · exact still_shares _

/-- What the authority answers becomes the outcome of the flight that asked. -/
theorem hear_outcome {f : Cache.Finding} (hp : a.passengers.get? c = some p) (asking : p.asking = true) :
    ((a.hear c f now).next.flights.flight p.flight).outcome =
      some (.ofResult (a.cache.conclude p.credential f now).1) := by
  unfold hear
  simp only [hp, asking, if_true]
  exact (Flights.leave_outcome _ _ _ _ _).trans (settled _ _ _)

theorem hear_shares {f : Cache.Finding} (hp : a.passengers.get? c = some p) : (a.hear c f now).Shares p.flight := by
  unfold hear
  rw [hp]
  simp only
  split
  · exact land_shares (settled _ _ _)
  · exact still_shares _

/-- Only a passenger goes on to a result. -/
theorem resume_told {x : Except Failure Authorization} (h : (a.resume c now).result = some x) :
    ∃ p, a.passengers.get? c = some p ∧ (a.resume c now).Shares p.flight := by
  cases hp : a.passengers.get? c with
  | none =>
    unfold resume at h
    rw [hp] at h
    cases h
  | some p => exact ⟨p, rfl, resume_shares hp⟩

theorem hear_told {f : Cache.Finding} {x : Except Failure Authorization} (h : (a.hear c f now).result = some x) :
    ∃ p, a.passengers.get? c = some p ∧ (a.hear c f now).Shares p.flight := by
  cases hp : a.passengers.get? c with
  | none =>
    unfold hear at h
    rw [hp] at h
    cases h
  | some p => exact ⟨p, rfl, hear_shares hp⟩

/-- Whoever comes takes a fresh entry, or what its flight has come to. -/
theorem ask_told {k : Credential} {x : Except Failure Authorization} (h : (a.ask c k now).result = some x) :
    (∃ e, a.cache.entries.get? k = some e ∧ e.isFresh now = true ∧ x = .ok e.authorization) ∨
      (a.ask c k now).Shares (a.flights.take k).1 := by
  unfold ask at h ⊢
  cases seen : a.cache.look k now with
  | mk e cache =>
    rw [seen] at h
    cases e with
    | some e =>
      obtain ⟨there, fresh⟩ := Cache.look_some (show (a.cache.look k now).1 = some e by rw [seen])
      exact Or.inl ⟨e, there, fresh, (Option.some.inj h).symm⟩
    | none =>
      have seat := Table.get?_insert_self a.passengers c (⟨k, (a.flights.join k c).1, false⟩ : Passenger)
      exact Or.inr (resume_shares (a := ⟨cache, (a.flights.join k c).2, _⟩) seat)

end Authenticator

namespace Gate

variable {g : Gate} {es es' pre : List Event} {c : CallId} {k : Credential} {i : FlightId}

theorem turn_of_need (h : g.need? c = some (.lookup k)) (f : Cache.Finding) :
    g.turn (.lookedUp c f) = g.authenticator.hear c f g.now := by
  unfold need? at h
  obtain ⟨⟨r, s⟩, call, h⟩ := Option.bind_eq_some_iff.mp h
  cases s
  case authenticating => simp only [turn, call]
  all_goals cases h

def outcome? (g : Gate) (i : FlightId) : Option Outcome := (g.authenticator.flights.flight i).outcome

/-- With this event the lookup of `k` on flight `i` ends, with `r`. -/
def Ends (g : Gate) (e : Event) (i : FlightId) (k : Credential) (r : Except Failure Authorization) : Prop :=
  ∃ c p f, e = .lookedUp c f ∧ g.need? c = some (.lookup k) ∧ g.authenticator.passengers.get? c = some p ∧
    p.flight = i ∧ r = (g.authenticator.cache.conclude k f g.now).1

def Concluded (g₀ : Gate) (es : List Event) (i : FlightId) (k : Credential) (r : Except Failure Authorization) : Prop :=
  ∃ pre e, pre ++ [e] <+: es ∧ Ends (g₀.run pre) e i k r

theorem Ends.unique {e : Event} {j : FlightId} {k' : Credential} {r r' : Except Failure Authorization}
    (h : Ends g e i k r) (h' : Ends g e j k' r') : k = k' ∧ r = r' := by
  obtain ⟨c, p, f, rfl, need, -, -, hr⟩ := h
  obtain ⟨c', p', f', same, need', -, -, hr'⟩ := h'
  cases same
  rw [need] at need'
  cases need'
  exact ⟨rfl, hr.trans hr'.symm⟩

/-- A lookup gives its flight the outcome. -/
theorem Ends.outcome {e : Event} {r : Except Failure Authorization} (h : Ends g e i k r) :
    (g.step e).outcome? i = some (.ofResult r) := by
  obtain ⟨c, p, f, rfl, need, hp, rfl, rfl⟩ := h
  obtain ⟨p', hp', asking, rfl⟩ := passenger_of_lookup need
  obtain rfl : p' = p := Option.some.inj (hp'.symm.trans hp)
  unfold outcome?
  rw [step_authenticator, turn_of_need need]
  exact Authenticator.hear_outcome hp asking

theorem Heard.concluded {g₀ : Gate} {f : Cache.Finding} {t : Instant} (h : Heard g₀ es i k f t) :
    ∃ r, Concluded g₀ es i k r := by
  obtain ⟨pre, c, p, came, need, hp, hi, -⟩ := h
  exact ⟨_, pre, _, came, c, p, f, rfl, need, hp, hi, rfl⟩

theorem Justified.source {g₀ : Gate} {x : Except Failure Authorization} (h : Justified g₀ es pre k x) :
    (∃ a, x = .ok a ∧ Kept g₀ pre k a) ∨ ∃ i, Joins g₀ pre k i ∧
      ((∃ a, x = .ok a ∧ Found g₀ es i k a) ∨ ∃ r, Concluded g₀ es i k r) := by
  cases x with
  | ok a =>
    rcases h with kept | ⟨i, joins, found | ⟨t, heard⟩⟩
    · exact Or.inl ⟨a, rfl, kept⟩
    · exact Or.inr ⟨i, joins, Or.inl ⟨a, rfl, found⟩⟩
    · exact Or.inr ⟨i, joins, Or.inr heard.concluded⟩
  | error e =>
    obtain ⟨i, f, t, joins, heard, -⟩ := h
    exact Or.inr ⟨i, joins, Or.inr heard.concluded⟩

/-- A call comes once, with one credential. -/
theorem Asks.unique {g₀ : Gate} {pre' : List Event} {k' : Credential} (h : Asks g₀ es pre c k)
    (h' : Asks g₀ es pre' c k') : pre' = pre ∧ k' = k := by
  obtain ⟨hc, r, came, hr⟩ := h
  obtain ⟨hc', r', came', hr'⟩ := h'
  obtain ⟨rfl, request⟩ := arrived_once came came' (hc.symm.trans hc')
  cases request
  exact ⟨rfl, Option.some.inj (hr'.symm.trans hr)⟩

/-- A passenger is aboard the flight that it joined when it came. -/
theorem Sourced.seat {g₀ : Gate} {mid : List Event} {p : Passenger} (h : Sourced g₀ mid) (before : mid <+: es)
    (asks : Asks g₀ es pre c k) (hp : (g₀.run mid).authenticator.passengers.get? c = some p) :
    p.flight = ((g₀.run pre).authenticator.flights.take k).1 := by
  obtain ⟨pre', asks', joined, -⟩ := h.backed.aboard c p hp
  obtain ⟨rfl, hk⟩ := asks.unique (asks'.mono before)
  rw [← hk]
  exact joined

/-- A run is one of the interleavings of its calls. -/
theorem run_shown (t : Instant) (cache : Cache) (limiter : Limiter) (pinger : Option Span) (es : List Event) :
    ∃ s, SingleFlight.Inv s ∧ SingleFlight.Shows s ((start t cache limiter pinger).run es).authenticator
      ((start t cache limiter pinger).run es).next := by
  have rests : SingleFlight.Shows (SingleFlight.start cache) (start t cache limiter pinger).authenticator 0 :=
    SingleFlight.start_shows cache
  obtain ⟨fs, shows⟩ := rests.run es
  exact ⟨_, SingleFlight.run_inv (SingleFlight.start_inv cache) fs, shows⟩

section

variable {t : Instant} {cache : Cache} {limiter : Limiter} {pinger : Option Span} {r : Except Failure Authorization}

/-- The outcome that a flight has come to stays. -/
theorem outcome_stays {o : Outcome} (done : ((start t cache limiter pinger).run es).outcome? i = some o)
    (later : es <+: es') : ((start t cache limiter pinger).run es').outcome? i = some o := by
  obtain ⟨post, rfl⟩ := later
  obtain ⟨s, inv, shows⟩ := run_shown t cache limiter pinger es
  obtain ⟨fs, shows'⟩ := shows.run post
  unfold outcome? at done ⊢
  rw [run_append, ← shows'.flights]
  rw [← shows.flights] at done
  exact SingleFlight.run_outcome inv fs done

/-- A flight has come to nothing until its lookup ends. -/
theorem Ends.pending {e : Event} (h : Ends ((start t cache limiter pinger).run es) e i k r) :
    ((start t cache limiter pinger).run es).outcome? i = none := by
  obtain ⟨c, p, f, rfl, need, hp, rfl, -⟩ := h
  obtain ⟨s, inv, shows⟩ := run_shown t cache limiter pinger es
  obtain ⟨j, asking⟩ := SingleFlight.asking_of_need shows need
  have flight : j = p.flight := by
    rw [shows.passengers, asking] at hp
    cases hp
    rfl
  have turn := (inv.turns.each j).works c k (by rw [asking]; rfl)
  unfold outcome?
  rw [← shows.flights, ← flight]
  exact (inv.turns.each j).pending c turn

theorem Concluded.outcome (h : Concluded (start t cache limiter pinger) es i k r) :
    ((start t cache limiter pinger).run es).outcome? i = some (.ofResult r) := by
  obtain ⟨pre, e, came, ends⟩ := h
  refine outcome_stays ?_ came
  rw [run_snoc]
  exact ends.outcome

/-- A flight has one lookup that ends. -/
theorem Concluded.unique {k' : Credential} {r' : Except Failure Authorization}
    (h : Concluded (start t cache limiter pinger) es i k r) (h' : Concluded (start t cache limiter pinger) es i k' r') :
    k = k' ∧ r = r' := by
  -- after the lookup that ends first the flight has an outcome, which it has not when another ends
  have apart : ∀ {mid : List Event} {e : Event} {j : Credential} {x : Except Failure Authorization},
      Ends ((start t cache limiter pinger).run mid) e i j x →
      ∀ l y, ¬ Concluded (start t cache limiter pinger) mid i l y := by
    intro mid e j x ends l y earlier
    cases ends.pending.symm.trans earlier.outcome
  obtain ⟨pre, e, came, ends⟩ := h
  obtain ⟨pre', e', came', ends'⟩ := h'
  rcases List.prefix_or_prefix_of_prefix came came' with order | order
  · rcases before_or_same order with before | ⟨rfl, rfl⟩
    · exact absurd ⟨pre, e, before, ends⟩ (apart ends' k r)
    · exact ends.unique ends'
  · rcases before_or_same order with before | ⟨rfl, rfl⟩
    · exact absurd ⟨pre', e', before, ends'⟩ (apart ends k' r')
    · exact ends.unique ends'

/-- What is told of a flight is what it has come to. -/
theorem outcome_of_shares {e : Event} {x : Except Failure Authorization} (came : pre ++ [e] <+: es)
    (result : (((start t cache limiter pinger).run pre).turn e).result = some x)
    (shares : (((start t cache limiter pinger).run pre).turn e).Shares i) :
    ∃ o, ((start t cache limiter pinger).run es).outcome? i = some o ∧ x = o.result := by
  obtain ⟨o, done, hx⟩ := shares x result
  refine ⟨o, outcome_stays ?_ came, hx⟩
  unfold outcome?
  rw [run_snoc, step_authenticator]
  exact done

/-- A call is told a fresh entry that was there when it came, or what its flight has come to. -/
theorem told_outcome (empty : ∀ k, cache.entries.get? k = none) {x : Except Failure Authorization}
    (asks : Asks (start t cache limiter pinger) es pre c k) (told : Told (start t cache limiter pinger) es c x) :
    (∃ a, x = .ok a ∧ Kept (start t cache limiter pinger) pre k a) ∨
      ∃ o, ((start t cache limiter pinger).run es).outcome?
        (((start t cache limiter pinger).run pre).authenticator.flights.take k).1 = some o ∧ x = o.result := by
  obtain ⟨mid, e, came, speaker, result⟩ := told
  have sourced := run_sourced t empty limiter pinger mid
  have before : mid <+: es := (List.prefix_append _ _).trans came
  cases e with
  | arrived r =>
    obtain ⟨rfl, r', came', hr⟩ := asks
    obtain ⟨rfl, request⟩ := arrived_once came' came speaker.symm
    cases request
    have asked := turn_arrived (g := (start t cache limiter pinger).run pre) hr
    rcases Authenticator.ask_told (asked ▸ result) with ⟨e, there, fresh, rfl⟩ | shares
    · exact Or.inl ⟨_, rfl, e, there, fresh, rfl, sourced.backed.entries k e there⟩
    · exact Or.inr (outcome_of_shares came result (asked ▸ shares))
  | resumed d =>
    obtain rfl : d = c := speaker
    rcases turn_resumed ((start t cache limiter pinger).run mid) d with still | ⟨-, -, resumed⟩
    · rw [still] at result
      cases result
    · obtain ⟨p, hp, shares⟩ := Authenticator.resume_told (resumed ▸ result)
      rw [sourced.seat before asks hp] at shares
      exact Or.inr (outcome_of_shares came result (resumed ▸ shares))
  | lookedUp d f =>
    obtain rfl : d = c := speaker
    rcases turn_lookedUp ((start t cache limiter pinger).run mid) d f with still | ⟨-, -, heard⟩
    · rw [still] at result
      cases result
    · obtain ⟨p, hp, shares⟩ := Authenticator.hear_told (heard ▸ result)
      rw [sourced.seat before asks hp] at shares
      exact Or.inr (outcome_of_shares came result (heard ▸ shares))
  | cancelled d =>
    rcases turn_cancelled ((start t cache limiter pinger).run mid) d with still | still
    all_goals
      rw [still] at result
      cases result
  | swept s => cases s <;> cases result
  | _ => cases result

end

/-! ## What is shared -/

/-- A lookup is replayed as it ended exactly if what it found does not outlast the calendar, and
otherwise with its kind said twice; with an accepted time to live only the last thirty days can
see that. All callers of a flight are told what is replayed of its one lookup. -/
theorem shared_result (ttl patience : Span) :
    (∀ (cache : Cache) (k : Credential) (f : Cache.Finding) (now : Instant),
      let r := (cache.conclude k f now).1
      (Outcome.replay r = r ↔ ¬ cache.Outlasts f now) ∧
        (cache.Outlasts f now → ∃ m, r = .error ⟨.internal, m⟩ ∧
          Outcome.replay r = .error ⟨.internal, "internal error: " ++ m⟩) ∧
        (cache.ttl.nanos ≤ Cache.longestTtl.nanos → now.nanos + Cache.longestTtl.nanos ≤ Instant.last.nanos + 999999 →
          Outcome.replay r = r)) ∧
    ∀ (t : Instant) (limiter : Limiter) (pinger : Option Span) (es : List Event),
      let g := start t ⟨ttl, patience, Table.empty⟩ limiter pinger
      (∀ i j k r r', Concluded g es i j r → Concluded g es i k r' → j = k ∧ r = r') ∧
        ∀ pre c k x, Asks g es pre c k → Told g es c x →
          (∃ a, x = .ok a ∧ Kept g pre k a) ∨ ∃ i, Joins g pre k i ∧
            ((∃ a, x = .ok a ∧ Found g es i k a) ∨ ∃ r, Concluded g es i k r) ∧
            ∀ j r, Concluded g es i j r → x = Outcome.replay r := by
  refine ⟨fun cache k f now => ⟨Cache.replay_conclude_iff, ?_, ?_⟩, fun t limiter pinger es => ⟨?_, ?_⟩⟩
  · intro beyond
    exact ⟨_, Cache.conclude_of_outlasts beyond, by rw [Cache.conclude_of_outlasts beyond, Outcome.replay_internal]⟩
  · intro short early
    exact Cache.replay_conclude_iff.mpr fun beyond => absurd (beyond.late short) (Int.not_lt.mpr early)
  · intro i j k r r' h h'
    exact h.unique h'
  · intro pre c k x asks told
    have empty : ∀ k, (⟨ttl, patience, Table.empty⟩ : Cache).entries.get? k = none := fun _ => rfl
    obtain ⟨pre', k', asks', justified⟩ := (run_sourced t empty limiter pinger es).results c x told
    obtain ⟨rfl, rfl⟩ := asks.unique asks'
    rcases told_outcome empty asks told with kept | ⟨o, done, hx⟩
    · exact Or.inl kept
    · rcases justified.source with kept | ⟨i, joins, source⟩
      · exact Or.inl kept
      · refine Or.inr ⟨i, joins, source, fun j r concluded => ?_⟩
        rw [joins.1] at concluded
        obtain rfl : o = .ofResult r := Option.some.inj (done.symm.trans concluded.outcome)
        exact hx

/-- The authority gives an authorization at the last instant of the calendar. -/
theorem overflow_answers :
    let m := "credential cache expiry overflows at +262142-12-31 23:59:59.999 UTC"
    let x : Except Failure Authorization := .error ⟨.internal, "internal error: " ++ m⟩
    ((start Instant.last ⟨Span.ofSeconds 60, Span.ofMillis 500, Table.empty⟩ (Limiter.localOnly Policy.standard) none).run
      (sharedLookup ⟨"t"⟩ ⟨⟨"acct"⟩, .card, none⟩)).answers = [(0, .authorization x), (1, .authorization x)] := by
  rfl

/-- Two calls are told another message than that of the lookup that they wait for. -/
theorem overflow_is_labelled_twice :
    let k : Credential := ⟨"t"⟩
    let a : Authorization := ⟨⟨"acct"⟩, .card, none⟩
    let cache : Cache := ⟨Span.ofSeconds 60, Span.ofMillis 500, Table.empty⟩
    let m := "credential cache expiry overflows at +262142-12-31 23:59:59.999 UTC"
    let r : Except Failure Authorization := .error ⟨.internal, m⟩
    let x : Except Failure Authorization := .error ⟨.internal, "internal error: " ++ m⟩
    Cache.make (Span.ofSeconds 60) (Span.ofMillis 500) = .ok cache ∧ Instant.last.InRange ∧
      (cache.conclude k (.answered (.ok (.valid a))) Instant.last).1 = r ∧ (Outcome.ofResult r).result = x ∧ x ≠ r ∧
      ((start Instant.last cache (Limiter.localOnly Policy.standard) none).run (sharedLookup k a)).answers =
        [(0, .authorization x), (1, .authorization x)] := by
  refine ⟨rfl, ?_, rfl, rfl, ?_, overflow_answers⟩ <;> decide

/-- The second call is told the replay of what the first one waited for. -/
theorem overflow_shared_result :
    let k : Credential := ⟨"t"⟩
    let a : Authorization := ⟨⟨"acct"⟩, .card, none⟩
    let g := start Instant.last ⟨Span.ofSeconds 60, Span.ofMillis 500, Table.empty⟩ (Limiter.localOnly Policy.standard) none
    let pre : List Event := [.arrived (.authenticate k)]
    let m := "credential cache expiry overflows at +262142-12-31 23:59:59.999 UTC"
    let x : Except Failure Authorization := .error ⟨.internal, "internal error: " ++ m⟩
    Asks g (sharedLookup k a) pre 1 k ∧ Told g (sharedLookup k a) 1 x ∧
      ∃ i r, Joins g pre k i ∧ Concluded g (sharedLookup k a) i k r ∧ x = Outcome.replay r := by
  intro k a g pre m x
  have asks : Asks g (sharedLookup k a) pre 1 k := ⟨rfl, .authenticate k, ⟨_, rfl⟩, rfl⟩
  have answered : (1, Answer.authorization x) ∈ (g.run (sharedLookup k a)).answers := by
    rw [show (g.run (sharedLookup k a)).answers = _ from overflow_answers]
    exact List.mem_cons_of_mem _ List.mem_cons_self
  have told : Told g (sharedLookup k a) 1 x := told_of_authorization rfl (mem_authorizations.mpr answered)
  refine ⟨asks, told, ?_⟩
  rcases ((shared_result _ _).2 _ _ _ _).2 pre 1 k x asks told with ⟨_, record, -⟩ | ⟨i, joins, source, replayed⟩
  · simp only [x, reduceCtorEq] at record
  · rcases source with ⟨_, record, -⟩ | ⟨r, concluded⟩
    · simp only [x, reduceCtorEq] at record
    · exact ⟨i, r, joins, concluded, replayed k r concluded⟩

end Gate

end Gateway
