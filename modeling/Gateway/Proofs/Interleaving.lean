/-
  Gateway.Proofs.Interleaving — any number of calls, interleaved between any two steps.

  A call looks into the cache. If it finds nothing it joins the flight of its credential and
  claims the turn. Whoever has the turn looks once more and asks the authority; with the
  answer it gives the flight its outcome, and goes. The others obtain the outcome and go.
  Whoever goes tests whether it is the last, and then lets go. A call can be cancelled where
  it waits, for the turn or for the authority. The steps of all calls interleave freely, and
  sweeps come between them. An event that does not apply changes nothing.

  A reading of the clock can be older than what others have read since, so each event that
  reads it carries its own reading. What a look finds outdated is forgotten by a later event.

  Every step keeps who holds which flight and which flights stand in the map (`Held`), and
  whose turn it is on each flight (`Turns`).
-/

import Mathlib.Logic.Function.Basic
import Gateway.Proofs.CacheLaws
import Gateway.Proofs.FlightLaws

namespace Gateway.SingleFlight

/-! ## Calls -/

inductive Whereabouts where
  | away
  /-- Found nothing in the cache. -/
  | missed (k : Credential)
  | aboard (k : Credential) (f : FlightId)
  /-- At its lookup. -/
  | asking (k : Credential) (f : FlightId)
  /-- Has the outcome that it is to give the flight. -/
  | bearing (k : Credential) (f : FlightId) (o : Outcome)
  /-- Has the outcome or gave up. -/
  | leaving (k : Credential) (f : FlightId)
  | tested (k : Credential) (f : FlightId)
  | gone
  deriving DecidableEq, Repr

namespace Whereabouts

def asks? : Whereabouts → Option (Credential × FlightId)
  | .asking k f => some (k, f)
  | _ => none

def works? : Whereabouts → Option (Credential × FlightId)
  | .bearing k f _ => some (k, f)
  | w => w.asks?

/-- The flight that it waits for or works for. -/
def within? : Whereabouts → Option (Credential × FlightId)
  | .aboard k f => some (k, f)
  | w => w.works?

/-- The flight that it has joined and not tested yet. -/
def on? : Whereabouts → Option (Credential × FlightId)
  | .leaving k f => some (k, f)
  | w => w.within?

/-- The flight that it has joined and not let go. -/
def holds? : Whereabouts → Option FlightId
  | .tested _ f => some f
  | w => w.on?.map Prod.snd

end Whereabouts

structure State where
  cache : Cache
  flights : Flights
  whereabouts : CallId → Whereabouts

def start (cache : Cache) : State := ⟨cache, Flights.empty, fun _ => .away⟩

inductive Event where
  | look (c : CallId) (k : Credential) (t : Instant)
  /-- Drops the entry that a look found outdated. -/
  | forget (k : Credential) (t : Instant)
  | join (c : CallId)
  /-- Takes the turn, or queues for it. -/
  | claim (c : CallId)
  /-- Whoever has the turn looks into the cache, and asks the authority if it finds nothing. -/
  | resolve (c : CallId) (t : Instant)
  /-- The authority answers. -/
  | hear (c : CallId) (x : Cache.Finding) (t : Instant)
  | settle (c : CallId)
  | obtain (c : CallId)
  | cancel (c : CallId)
  | test (c : CallId)
  | release (c : CallId)
  | sweep (t : Instant)

def Event.reads? : Event → Option Instant
  | .look _ _ t | .forget _ t | .resolve _ t | .hear _ _ t | .sweep t => some t
  | _ => none

namespace State

def move (s : State) (c : CallId) (w : Whereabouts) (cache : Cache) (fl : Flights) : State :=
  ⟨cache, fl, Function.update s.whereabouts c w⟩

def step (s : State) : Event → State
  | .look c k t => match s.whereabouts c with
    | .away => match (s.cache.look k t).1 with
      | some _ => s.move c .gone s.cache s.flights
      | none => s.move c (.missed k) s.cache s.flights
    | _ => s
  | .forget k t => { s with cache := (s.cache.look k t).2 }
  | .join c => match s.whereabouts c with
    | .missed k => s.move c (.aboard k (s.flights.join k c).1) s.cache (s.flights.join k c).2
    | _ => s
  | .claim c => match s.whereabouts c with
    | .aboard k f =>
      if (s.flights.flight f).outcome = none then s.move c (.aboard k f) s.cache (s.flights.claim f c) else s
    | _ => s
  | .resolve c t => match s.whereabouts c with
    | .aboard k f =>
      if s.flights.hasTurn f c then match (s.cache.look k t).1 with
        | some e => s.move c (.bearing k f (.authorized e.authorization)) s.cache s.flights
        | none => s.move c (.asking k f) s.cache s.flights
      else s
    | _ => s
  | .hear c x t => match s.whereabouts c with
    | .asking k f =>
      let (r, cache, _) := s.cache.conclude k x t
      s.move c (.bearing k f (.ofResult r)) cache s.flights
    | _ => s
  | .settle c => match s.whereabouts c with
    | .bearing k f o => s.move c (.leaving k f) s.cache (s.flights.settle f o)
    | _ => s
  | .obtain c => match s.whereabouts c with
    | .aboard k f => if (s.flights.flight f).outcome.isSome then s.move c (.leaving k f) s.cache s.flights else s
    | _ => s
  | .cancel c => match s.whereabouts c with
    | .aboard k f => s.move c (.leaving k f) s.cache (s.flights.withdraw f c)
    | .asking k f => s.move c (.leaving k f) s.cache (s.flights.withdraw f c)
    | _ => s
  | .test c => match s.whereabouts c with
    | .leaving k f => s.move c (.tested k f) s.cache (s.flights.test k f)
    | _ => s
  | .release c => match s.whereabouts c with
    | .tested _ f => s.move c .gone s.cache (s.flights.release f c)
    | _ => s
  | .sweep t => { s with cache := s.cache.sweep t }

theorem move_self (s : State) (c : CallId) (w : Whereabouts) (cache : Cache) (fl : Flights) :
    (s.move c w cache fl).whereabouts c = w := Function.update_self _ _ _

theorem move_ne (s : State) {c d : CallId} (h : d ≠ c) (w : Whereabouts) (cache : Cache) (fl : Flights) :
    (s.move c w cache fl).whereabouts d = s.whereabouts d := Function.update_of_ne h _ _

def run (s : State) (es : List Event) : State := es.foldl step s

theorem run_append (s : State) (es es' : List Event) : s.run (es ++ es') = (s.run es).run es' := List.foldl_append

theorem run_cons (s : State) (e : Event) (es : List Event) : s.run (e :: es) = (s.step e).run es := rfl

end State

/-- All that an event lets call `c` do: where it was, where it is then, and what it leaves. -/
inductive Shift (s : State) (c : CallId) : Event → Whereabouts → Whereabouts → Cache → Flights → Prop where
  | hits {k : Credential} {t : Instant} {x : Entry} (found : (s.cache.look k t).1 = some x) :
    Shift s c (.look c k t) .away .gone s.cache s.flights
  | misses {k : Credential} {t : Instant} (nothing : (s.cache.look k t).1 = none) :
    Shift s c (.look c k t) .away (.missed k) s.cache s.flights
  | joins {k : Credential} :
    Shift s c (.join c) (.missed k) (.aboard k (s.flights.join k c).1) s.cache (s.flights.join k c).2
  | claims {k : Credential} {f : FlightId} (pending : (s.flights.flight f).outcome = none) :
    Shift s c (.claim c) (.aboard k f) (.aboard k f) s.cache (s.flights.claim f c)
  | finds {k : Credential} {f : FlightId} {t : Instant} {x : Entry} (turn : (s.flights.flight f).turn = some c)
      (found : (s.cache.look k t).1 = some x) :
    Shift s c (.resolve c t) (.aboard k f) (.bearing k f (.authorized x.authorization)) s.cache s.flights
  | asks {k : Credential} {f : FlightId} {t : Instant} (turn : (s.flights.flight f).turn = some c)
      (nothing : (s.cache.look k t).1 = none) :
    Shift s c (.resolve c t) (.aboard k f) (.asking k f) s.cache s.flights
  | hears {k : Credential} {f : FlightId} {x : Cache.Finding} {t : Instant} :
    Shift s c (.hear c x t) (.asking k f) (.bearing k f (.ofResult (s.cache.conclude k x t).1))
      (s.cache.conclude k x t).2.1 s.flights
  | settles {k : Credential} {f : FlightId} {o : Outcome} :
    Shift s c (.settle c) (.bearing k f o) (.leaving k f) s.cache (s.flights.settle f o)
  | obtains {k : Credential} {f : FlightId} (done : (s.flights.flight f).outcome.isSome) :
    Shift s c (.obtain c) (.aboard k f) (.leaving k f) s.cache s.flights
  | cancels {k : Credential} {f : FlightId} {w : Whereabouts} (waits : w = .aboard k f ∨ w = .asking k f) :
    Shift s c (.cancel c) w (.leaving k f) s.cache (s.flights.withdraw f c)
  | tests {k : Credential} {f : FlightId} :
    Shift s c (.test c) (.leaving k f) (.tested k f) s.cache (s.flights.test k f)
  | releases {k : Credential} {f : FlightId} :
    Shift s c (.release c) (.tested k f) .gone s.cache (s.flights.release f c)

inductive Does (s : State) (e : Event) : Prop where
  | nothing (same : s.step e = s)
  | shifts (c : CallId) (w w' : Whereabouts) (cache : Cache) (fl : Flights) (was : s.whereabouts c = w)
      (shift : Shift s c e w w' cache fl) (moved : s.step e = s.move c w' cache fl)
  | drops (kept : (∃ k t, e = .forget k t) ∨ ∃ t, e = .sweep t)
      (flights : (s.step e).flights = s.flights) (whereabouts : (s.step e).whereabouts = s.whereabouts)

theorem step_does (s : State) (e : Event) : Does s e := by
  cases e with
  | look c k t =>
    cases was : s.whereabouts c
    case away =>
      cases found : (s.cache.look k t).1 with
      | some x => exact .shifts c _ _ _ _ was (.hits found) (by simp only [State.step, was, found])
      | none => exact .shifts c _ _ _ _ was (.misses found) (by simp only [State.step, was, found])
    all_goals exact .nothing (by simp only [State.step, was])
  | forget k t => exact .drops (Or.inl ⟨k, t, rfl⟩) rfl rfl
  | join c =>
    cases was : s.whereabouts c
    case missed k => exact .shifts c _ _ _ _ was .joins (by simp only [State.step, was])
    all_goals exact .nothing (by simp only [State.step, was])
  | claim c =>
    cases was : s.whereabouts c
    case aboard k f =>
      by_cases pending : (s.flights.flight f).outcome = none
      · exact .shifts c _ _ _ _ was (.claims pending) (by simp only [State.step, was, if_pos pending])
      · exact .nothing (by simp only [State.step, was, if_neg pending])
    all_goals exact .nothing (by simp only [State.step, was])
  | resolve c t =>
    cases was : s.whereabouts c
    case aboard k f =>
      by_cases turn : s.flights.hasTurn f c = true
      · have turn' : (s.flights.flight f).turn = some c := of_decide_eq_true turn
        cases found : (s.cache.look k t).1 with
        | some x =>
          exact .shifts c _ _ _ _ was (.finds turn' found) (by simp only [State.step, was, if_pos turn, found])
        | none =>
          exact .shifts c _ _ _ _ was (.asks turn' found) (by simp only [State.step, was, if_pos turn, found])
      · exact .nothing (by simp only [State.step, was, if_neg turn])
    all_goals exact .nothing (by simp only [State.step, was])
  | hear c x t =>
    cases was : s.whereabouts c
    case asking k f => exact .shifts c _ _ _ _ was .hears (by simp only [State.step, was])
    all_goals exact .nothing (by simp only [State.step, was])
  | settle c =>
    cases was : s.whereabouts c
    case bearing k f o => exact .shifts c _ _ _ _ was .settles (by simp only [State.step, was])
    all_goals exact .nothing (by simp only [State.step, was])
  | obtain c =>
    cases was : s.whereabouts c
    case aboard k f =>
      by_cases done : (s.flights.flight f).outcome.isSome = true
      · exact .shifts c _ _ _ _ was (.obtains done) (by simp only [State.step, was, if_pos done])
      · exact .nothing (by simp only [State.step, was, if_neg done])
    all_goals exact .nothing (by simp only [State.step, was])
  | cancel c =>
    cases was : s.whereabouts c
    case aboard k f => exact .shifts c _ _ _ _ was (.cancels (Or.inl rfl)) (by simp only [State.step, was])
    case asking k f => exact .shifts c _ _ _ _ was (.cancels (Or.inr rfl)) (by simp only [State.step, was])
    all_goals exact .nothing (by simp only [State.step, was])
  | test c =>
    cases was : s.whereabouts c
    case leaving k f => exact .shifts c _ _ _ _ was .tests (by simp only [State.step, was])
    all_goals exact .nothing (by simp only [State.step, was])
  | release c =>
    cases was : s.whereabouts c
    case tested k f => exact .shifts c _ _ _ _ was .releases (by simp only [State.step, was])
    all_goals exact .nothing (by simp only [State.step, was])
  | sweep t => exact .drops (Or.inr ⟨t, rfl⟩) rfl rfl

/-! ## Who holds what -/

structure Held (fl : Flights) (w : CallId → Whereabouts) : Prop where
  held : ∀ f c, c ∈ (fl.flight f).holders ↔ (w c).holds? = some f
  once : ∀ f, (fl.flight f).holders.Nodup
  stands : ∀ c k f, (w c).on? = some (k, f) → fl.current.get? k = some f
  known : ∀ c f, (w c).holds? = some f → f < fl.next
  numbered : ∀ k f, fl.current.get? k = some f → f < fl.next
  apart : ∀ j k f, fl.current.get? j = some f → fl.current.get? k = some f → j = k

theorem start_held : Held Flights.empty fun _ => .away := by
  refine ⟨fun f c => ?_, fun f => List.nodup_nil, fun c k f h => ?_, fun c f h => ?_, fun k f h => ?_,
    fun j k f h => ?_⟩
  · exact iff_of_false (fun h => by cases h) fun h => by cases h
  all_goals cases h

namespace Held

variable {fl : Flights} {w : CallId → Whereabouts} {c : CallId} {k : Credential} {f : FlightId}

/-- What a move leaves as it was for the call that moves, it leaves for all. -/
theorem unmoved {α : Type} (p : Whereabouts → α) {v : Whereabouts} (same : p v = p (w c)) (d : CallId) :
    p (Function.update w c v d) = p (w d) := by
  by_cases e : d = c
  · rw [e, Function.update_self, same]
  · rw [Function.update_of_ne e]

/-- A call that stays on its flight, or holds none, keeps what all hold. -/
theorem same (h : Held fl w) {fl' : Flights} {v : Whereabouts} (hs : Flights.SameHold fl fl')
    (on : v.on? = (w c).on?) (holds : v.holds? = (w c).holds?) : Held fl' (Function.update w c v) := by
  have on' := unmoved Whereabouts.on? on
  have holds' := unmoved Whereabouts.holds? holds
  refine ⟨fun f d => ?_, fun f => ?_, fun d k f hd => ?_, fun d f hd => ?_, fun k f hk => ?_, fun j k f hj hk => ?_⟩
  · rw [hs.holders, holds']; exact h.held f d
  · rw [hs.holders]; exact h.once f
  · rw [hs.current]; exact h.stands d k f ((on' d).symm.trans hd)
  · rw [hs.next]; exact h.known d f ((holds' d).symm.trans hd)
  · rw [hs.next]; exact h.numbered k f (hs.current ▸ hk)
  · exact h.apart j k f (hs.current ▸ hj) (hs.current ▸ hk)

/-- Nobody holds a flight whose number is not given out yet. -/
theorem next_unheld (h : Held fl w) : (fl.flight fl.next).holders = [] :=
  List.eq_nil_iff_forall_not_mem.mpr fun c hc => absurd (h.known c _ ((h.held _ c).mp hc)) (Nat.lt_irrefl _)

theorem holds_of_on {v : Whereabouts} (h : v.on? = some (k, f)) : v.holds? = some f := by
  cases v <;> cases h <;> rfl

theorem join (h : Held fl w) (was : w c = .missed k) :
    Held (fl.join k c).2 (Function.update w c (.aboard k (fl.join k c).1)) := by
  have free : ∀ f, c ∉ (fl.flight f).holders := fun f hc => by
    have := (h.held f c).mp hc
    rw [was] at this
    cases this
  have known := Flights.take_known (h.numbered k)
  refine ⟨fun f d => ?_, fun f => Flights.nodup_join_holders h.next_unheld k (h.once f) (free f),
    fun d j f hd => ?_, fun d f hd => ?_, fun j f hj => Flights.join_numbered h.numbered hj,
    fun i j f hi hj => Flights.join_apart h.numbered h.apart hi hj⟩
  · rw [Flights.mem_join_holders h.next_unheld, h.held]
    by_cases e : d = c
    · subst e
      rw [Function.update_self, was]
      simp [Whereabouts.holds?, Whereabouts.on?, Whereabouts.within?, Whereabouts.works?, Whereabouts.asks?, eq_comm]
    · rw [Function.update_of_ne e]
      simp [e]
  · by_cases e : d = c
    · subst e
      rw [Function.update_self] at hd
      cases hd
      exact Flights.join_current _ _ _
    · rw [Function.update_of_ne e] at hd
      exact Flights.join_keeps k c (h.stands d j f hd)
  · by_cases e : d = c
    · subst e
      rw [Function.update_self] at hd
      cases hd
      exact known.1
    · rw [Function.update_of_ne e] at hd
      exact Nat.lt_of_lt_of_le (h.known d f hd) known.2

/-- The test of a caller finds its flight held by another exactly if one holds it. -/
theorem alone_iff (h : Held fl w) (was : (w c).holds? = some f) :
    (fl.flight f).holders.length ≤ 1 ↔ ∀ d, (w d).holds? = some f → d = c := by
  rw [Flights.alone_iff (h.once f) ((h.held f c).mpr was)]
  exact forall_congr' fun d => by rw [h.held]

theorem test (h : Held fl w) (was : w c = .leaving k f) :
    Held (fl.test k f) (Function.update w c (.tested k f)) := by
  have on : (w c).on? = some (k, f) := by rw [was]; rfl
  have holds := unmoved Whereabouts.holds? (show (Whereabouts.tested k f).holds? = (w c).holds? by rw [was]; rfl)
  refine ⟨fun g d => ?_, fun g => ?_, fun d j g hd => ?_, fun d g hd => ?_, fun j g hj => ?_, fun i j g hi hj => ?_⟩
  · rw [Flights.test_flight, holds]; exact h.held g d
  · rw [Flights.test_flight]; exact h.once g
  · by_cases e : d = c
    · subst e
      rw [Function.update_self] at hd
      cases hd
    · rw [Function.update_of_ne e] at hd
      have hs := h.stands d j g hd
      rw [Flights.test_current]
      split
      · rename_i alone
        rw [Table.get?_erase]
        split
        · rename_i same
          subst same
          have : g = f := Option.some.inj (hs.symm.trans alone.1)
          subst this
          exact absurd ((h.alone_iff (holds_of_on on)).mp alone.2 d (holds_of_on hd)) e
        · exact hs
      · exact hs
  · rw [Flights.test_next]; exact h.known d g ((holds d).symm.trans hd)
  · rw [Flights.test_next]; exact h.numbered j g (Flights.test_subset hj)
  · exact h.apart i j g (Flights.test_subset hi) (Flights.test_subset hj)

theorem release (h : Held fl w) (was : w c = .tested k f) : Held (fl.release f c) (Function.update w c .gone) := by
  refine ⟨fun g d => ?_, fun g => Flights.nodup_release_holders (h.once g) f c, fun d j g hd => ?_,
    fun d g hd => ?_, h.numbered, h.apart⟩
  · rw [Flights.mem_release_holders (h.once g), h.held]
    by_cases e : d = c
    · subst e
      rw [Function.update_self, was]
      simp [Whereabouts.holds?, Whereabouts.on?, Whereabouts.within?, Whereabouts.works?, Whereabouts.asks?, eq_comm]
    · rw [Function.update_of_ne e]
      simp [e]
  · by_cases e : d = c
    · subst e
      rw [Function.update_self] at hd
      cases hd
    · rw [Function.update_of_ne e] at hd
      exact h.stands d j g hd
  · by_cases e : d = c
    · subst e
      rw [Function.update_self] at hd
      cases hd
    · rw [Function.update_of_ne e] at hd
      exact h.known d g hd

end Held

theorem shift_held {s : State} {c : CallId} {e : Event} {w w' : Whereabouts} {cache : Cache} {fl : Flights}
    (h : Held s.flights s.whereabouts) (was : s.whereabouts c = w) (shift : Shift s c e w w' cache fl) :
    Held fl (Function.update s.whereabouts c w') := by
  cases shift with
  | hits => exact h.same ⟨fun _ => rfl, rfl, rfl⟩ (by rw [was]; rfl) (by rw [was]; rfl)
  | misses => exact h.same ⟨fun _ => rfl, rfl, rfl⟩ (by rw [was]; rfl) (by rw [was]; rfl)
  | joins => exact h.join was
  | claims => exact h.same (Flights.claim_same _ _ _) (by rw [was]) (by rw [was])
  | finds => exact h.same ⟨fun _ => rfl, rfl, rfl⟩ (by rw [was]; rfl) (by rw [was]; rfl)
  | asks => exact h.same ⟨fun _ => rfl, rfl, rfl⟩ (by rw [was]; rfl) (by rw [was]; rfl)
  | hears => exact h.same ⟨fun _ => rfl, rfl, rfl⟩ (by rw [was]; rfl) (by rw [was]; rfl)
  | settles => exact h.same (Flights.settle_same _ _ _) (by rw [was]; rfl) (by rw [was]; rfl)
  | obtains => exact h.same ⟨fun _ => rfl, rfl, rfl⟩ (by rw [was]; rfl) (by rw [was]; rfl)
  | cancels waits =>
    rcases waits with rfl | rfl
    · exact h.same (Flights.withdraw_same _ _ _) (by rw [was]; rfl) (by rw [was]; rfl)
    · exact h.same (Flights.withdraw_same _ _ _) (by rw [was]; rfl) (by rw [was]; rfl)
  | tests => exact h.test was
  | releases => exact h.release was

/-! ## Whose turn it is -/

/-- While flight `f`, which is `x`, has no outcome, its turn is taken if anybody queues for
it, and taken by a caller that waits or works for it. Whoever works for it has the turn. -/
structure Turn (x : Flight) (f : FlightId) (w : CallId → Whereabouts) : Prop where
  pending : ∀ c, x.turn = some c → x.outcome = none
  taker : ∀ c, x.turn = some c → ∃ k, (w c).within? = some (k, f)
  waits : ∀ c, x.outcome = none → c ∈ x.queue → (∃ k, w c = .aboard k f) ∧ x.turn ≠ some c
  taken : x.outcome = none → x.turn = none → x.queue = []
  once : x.queue.Nodup
  works : ∀ c k, (w c).works? = some (k, f) → x.turn = some c

namespace Turn

variable {fl : Flights} {w : CallId → Whereabouts} {x y : Flight} {c : CallId} {k : Credential} {f : FlightId}

theorem start (h : ∀ c k, (w c).works? ≠ some (k, f)) : Turn Flight.start f w := by
  refine ⟨fun c hc => ?_, fun c hc => ?_, fun c _ hc => ?_, fun _ _ => rfl, List.nodup_nil,
    fun c k hc => absurd hc (h c k)⟩ <;> cases hc

/-- A call moves, and the turn, the queue and the outcome stay as they are. -/
theorem moves (h : Turn x f w) {v : Whereabouts}
    (same : y.turn = x.turn ∧ y.outcome = x.outcome ∧ y.queue = x.queue)
    (taker : x.turn = some c → ∃ k, v.within? = some (k, f))
    (waits : x.outcome = none → c ∈ x.queue → ∃ k, v = .aboard k f)
    (works : ∀ k, v.works? = some (k, f) → x.turn = some c) : Turn y f (Function.update w c v) := by
  obtain ⟨turn, outcome, queue⟩ := same
  refine ⟨fun d hd => ?_, fun d hd => ?_, fun d ho hd => ?_, fun ho ht => ?_, ?_, fun d k hd => ?_⟩
  · rw [outcome]; exact h.pending d (turn ▸ hd)
  · by_cases e : d = c
    · subst e; rw [Function.update_self]; exact taker (turn ▸ hd)
    · rw [Function.update_of_ne e]; exact h.taker d (turn ▸ hd)
  · rw [turn]
    rw [outcome] at ho
    rw [queue] at hd
    refine ⟨?_, (h.waits d ho hd).2⟩
    by_cases e : d = c
    · subst e; rw [Function.update_self]; exact waits ho hd
    · rw [Function.update_of_ne e]; exact (h.waits d ho hd).1
  · rw [queue]; exact h.taken (outcome ▸ ho) (turn ▸ ht)
  · rw [queue]; exact h.once
  · rw [turn]
    by_cases e : d = c
    · subst e; rw [Function.update_self] at hd; exact works k hd
    · rw [Function.update_of_ne e] at hd; exact h.works d k hd

/-- A call moves elsewhere. -/
theorem elsewhere (h : Turn x f w) {v : Whereabouts} (was : ∀ k, (w c).within? ≠ some (k, f))
    (works : ∀ k, v.works? ≠ some (k, f))
    (same : y.turn = x.turn ∧ y.outcome = x.outcome ∧ y.queue = x.queue) : Turn y f (Function.update w c v) := by
  refine h.moves same (fun ht => ?_) (fun ho hq => ?_) fun k hv => absurd hv (works k)
  · obtain ⟨k, hk⟩ := h.taker c ht
    exact absurd hk (was k)
  · obtain ⟨⟨k, hk⟩, -⟩ := h.waits c ho hq
    exact absurd (by rw [hk]; rfl) (was k)

theorem claim (h : Turn (fl.flight f) f w) (was : w c = .aboard k f) (pending : (fl.flight f).outcome = none) :
    Turn ((fl.claim f c).flight f) f w := by
  rw [Flights.claim, Flights.flight_change, if_pos rfl]
  cases ht : (fl.flight f).turn with
  | none =>
    refine ⟨fun d _ => pending, fun d hd => ?_, fun d _ hd => ?_, fun _ ht => (by cases ht), h.once, fun d k hd => ?_⟩
    · cases hd
      exact ⟨k, by rw [was]; rfl⟩
    · rw [show (fl.flight f).queue = [] from h.taken pending ht] at hd
      cases hd
    · exact absurd ((h.works d k hd).symm.trans ht) (by simp)
  | some t =>
    simp only
    split
    · exact h
    · rename_i new
      simp only [not_or] at new
      refine ⟨fun d hd => h.pending d (ht.trans hd), fun d hd => h.taker d (ht.trans hd), fun d ho hd => ?_,
        fun _ hn => (by cases hn), ?_, fun d j hd => ht.symm.trans (h.works d j hd)⟩
      · rcases List.mem_append.mp hd with hd | hd
        · exact ⟨(h.waits d ho hd).1, fun e => (h.waits d ho hd).2 (ht.trans e)⟩
        · rw [List.mem_singleton] at hd
          subst hd
          exact ⟨⟨k, was⟩, fun e => new.1 (Option.some.inj e)⟩
      · exact List.Nodup.append h.once (List.nodup_singleton c) (by simpa using new.2)

theorem settle (h : Turn (fl.flight f) f w) {o : Outcome} (was : w c = .bearing k f o) :
    Turn ((fl.settle f o).flight f) f (Function.update w c (.leaving k f)) := by
  rw [Flights.settle, Flights.flight_change, if_pos rfl]
  refine ⟨fun d hd => (by cases hd), fun d hd => (by cases hd), fun d ho _ => (by cases ho), fun ho _ => (by cases ho),
    h.once, fun d j hd => ?_⟩
  by_cases e : d = c
  · subst e; rw [Function.update_self] at hd; cases hd
  · -- nobody else works for a flight that `c` works for
    rw [Function.update_of_ne e] at hd
    have ht : (fl.flight f).turn = some c := h.works c k (by rw [was]; rfl)
    exact absurd (Option.some.inj ((h.works d j hd).symm.trans ht)) e

/-- The turn of whoever gives up goes to the first that queues for it. -/
theorem withdraw (h : Turn (fl.flight f) f w) :
    Turn ((fl.withdraw f c).flight f) f (Function.update w c (.leaving k f)) := by
  have others : ∀ d, (∃ j, w d = .aboard j f) → d ≠ c →
      ∃ j, Function.update w c (.leaving k f) d = .aboard j f := by
    intro d hd e
    rw [Function.update_of_ne e]; exact hd
  have worker : ∀ d j, ((Function.update w c (.leaving k f)) d).works? = some (j, f) →
      (fl.flight f).turn = some d ∧ d ≠ c := by
    intro d j hd
    by_cases e : d = c
    · subst e; rw [Function.update_self] at hd; cases hd
    · rw [Function.update_of_ne e] at hd; exact ⟨h.works d j hd, e⟩
  rw [Flights.withdraw, Flights.flight_change, if_pos rfl]
  split
  · rename_i ht
    have ho := h.pending c ht
    have queued : ∀ d ∈ (fl.flight f).queue, (∃ j, w d = .aboard j f) ∧ d ≠ c := fun d hd =>
      ⟨(h.waits d ho hd).1, fun e => (h.waits d ho hd).2 (e ▸ ht)⟩
    refine ⟨fun d _ => ho, fun d hd => ?_, fun d _ hd => ?_, fun _ hn => ?_, h.once.sublist (List.drop_sublist 1 _),
      fun d j hd => ?_⟩
    · have hm := List.mem_of_mem_head? hd
      obtain ⟨j, hj⟩ := others d (queued d hm).1 (queued d hm).2
      exact ⟨j, by rw [hj]; rfl⟩
    · have hm := List.mem_of_mem_drop hd
      refine ⟨others d (queued d hm).1 (queued d hm).2, fun hh => ?_⟩
      have once := h.once
      cases hq : (fl.flight f).queue with
      | nil => rw [hq] at hm; cases hm
      | cons a q =>
        simp only [hq, List.head?_cons, Option.some.injEq, List.drop_succ_cons, List.drop_zero] at hh hd
        rw [hq, hh] at once
        exact (List.nodup_cons.mp once).1 hd
    · rw [List.head?_eq_none_iff.mp hn]; rfl
    · have := worker d j hd
      exact absurd (Option.some.inj (this.1.symm.trans ht)) this.2
  · rename_i ht
    refine ⟨h.pending, fun d hd => ?_, fun d ho hd => ?_, fun ho hn => ?_, h.once.erase c,
      fun d j hd => (worker d j hd).1⟩
    · have e : d ≠ c := fun e => ht (e ▸ hd)
      obtain ⟨j, hj⟩ := h.taker d hd
      exact ⟨j, by rw [Function.update_of_ne e]; exact hj⟩
    · obtain ⟨e, hq⟩ := h.once.mem_erase_iff.mp hd
      exact ⟨others d (h.waits d ho hq).1 e, (h.waits d ho hq).2⟩
    · show (fl.flight f).queue.erase c = []
      rw [h.taken ho hn]; rfl

end Turn

structure Turns (fl : Flights) (w : CallId → Whereabouts) : Prop where
  each : ∀ f, Turn (fl.flight f) f w
  unborn : ∀ f, fl.next ≤ f → fl.flight f = Flight.start

theorem start_turns : Turns Flights.empty fun _ => .away :=
  ⟨fun _ => Turn.start fun _ _ h => (by cases h), fun _ _ => rfl⟩

namespace Turns

variable {fl fl' : Flights} {w : CallId → Whereabouts} {v : Whereabouts} {c : CallId} {f : FlightId}

/-- A call moves that works for no flight before or after. -/
theorem aside (h : Turns fl w) (was : (w c).within? = none) (is : v.works? = none)
    (same : ∀ i, (fl'.flight i).turn = (fl.flight i).turn ∧ (fl'.flight i).outcome = (fl.flight i).outcome ∧
      (fl'.flight i).queue = (fl.flight i).queue)
    (unborn : ∀ i, fl'.next ≤ i → fl'.flight i = Flight.start) : Turns fl' (Function.update w c v) :=
  ⟨fun i => (h.each i).elsewhere (fun k hk => by simp [was] at hk) (fun k hk => by simp [is] at hk) (same i), unborn⟩

/-- A call moves on its flight, and the other flights stay as they are. -/
theorem here (h : Turns fl w) (known : f < fl.next) (was : ∀ k i, (w c).within? = some (k, i) → i = f)
    (is : ∀ k i, v.works? = some (k, i) → i = f) (next : fl'.next = fl.next)
    (others : ∀ i, i ≠ f → fl'.flight i = fl.flight i) (turn : Turn (fl'.flight f) f (Function.update w c v)) :
    Turns fl' (Function.update w c v) := by
  refine ⟨fun i => ?_, fun i hi => ?_⟩
  · by_cases e : i = f
    · rw [e]; exact turn
    · refine (h.each i).elsewhere (fun k hk => e (was k i hk)) (fun k hk => e (is k i hk)) ?_
      rw [others i e]
      exact ⟨rfl, rfl, rfl⟩
  · rw [next] at hi
    rw [others i (Nat.ne_of_gt (Nat.lt_of_lt_of_le known hi))]
    exact h.unborn i hi

theorem join (h : Turns fl w) {k : Credential} (numbered : ∀ f, fl.current.get? k = some f → f < fl.next)
    (was : w c = .missed k) : Turns (fl.join k c).2 (Function.update w c (.aboard k (fl.join k c).1)) := by
  have flight := Flights.take_flight (h.unborn fl.next (Nat.le_refl _)) k
  have known := Flights.take_known numbered
  refine h.aside (by rw [was]; rfl) rfl (fun i => ?_) fun i hi => ?_
  · rw [Flights.join_flight]
    split <;> rw [flight] <;> exact ⟨rfl, rfl, rfl⟩
  · have ne : i ≠ (fl.join k c).1 := Nat.ne_of_gt (Nat.lt_of_lt_of_le known.1 hi)
    rw [Flights.join_flight, if_neg ne, flight]
    exact h.unborn i (Nat.le_trans known.2 hi)

/-- Whoever has the turn keeps it while it works. -/
theorem keeps (h : Turns fl w) {k : Credential} (known : f < fl.next) (turn : (fl.flight f).turn = some c)
    (was : (w c).within? = some (k, f)) (is : v.works? = some (k, f)) : Turns fl (Function.update w c v) := by
  refine h.here known (fun j i hi => ?_) (fun j i hi => ?_) rfl (fun _ _ => rfl) ?_
  · rw [was] at hi; cases hi; rfl
  · rw [is] at hi; cases hi; rfl
  · refine (h.each f).moves ⟨rfl, rfl, rfl⟩ (fun _ => ⟨k, ?_⟩) (fun pending queued => ?_) fun _ _ => turn
    · cases v <;> first | exact is | cases is
    · exact absurd turn ((h.each f).waits c pending queued).2

theorem release (h : Turns fl w) {k : Credential} (known : f < fl.next) (was : w c = .tested k f) :
    Turns (fl.release f c) (Function.update w c .gone) := by
  refine h.aside (by rw [was]; rfl) rfl (fun i => ?_) fun i hi => ?_
  · rw [Flights.release_flight]
    split <;> exact ⟨rfl, rfl, rfl⟩
  · rw [Flights.release_flight, if_neg (Nat.ne_of_gt (Nat.lt_of_lt_of_le known hi))]
    exact h.unborn i hi

end Turns

theorem shift_turns {s : State} {c : CallId} {e : Event} {w w' : Whereabouts} {cache : Cache} {fl : Flights}
    (held : Held s.flights s.whereabouts) (h : Turns s.flights s.whereabouts) (was : s.whereabouts c = w)
    (shift : Shift s c e w w' cache fl) : Turns fl (Function.update s.whereabouts c w') := by
  have same : ∀ i, (s.flights.flight i).turn = (s.flights.flight i).turn ∧
    (s.flights.flight i).outcome = (s.flights.flight i).outcome ∧
      (s.flights.flight i).queue = (s.flights.flight i).queue := fun _ => ⟨rfl, rfl, rfl⟩
  have known : ∀ f, w.holds? = some f → f < s.flights.next := fun f hf => held.known c f (was ▸ hf)
  have others : ∀ {f : FlightId} {g : Flight → Flight} (i : FlightId), i ≠ f →
      (s.flights.change f g).flight i = s.flights.flight i := fun i hi => by
    rw [Flights.flight_change, if_neg hi]
  have working : ∀ {k f} {v : Whereabouts}, v.within? = some (k, f) → ∀ j i, v.within? = some (j, i) → i = f :=
    fun hv j i hi => congrArg Prod.snd (Option.some.inj (hi.symm.trans hv))
  cases shift with
  | hits => exact h.aside (by rw [was]; rfl) rfl same h.unborn
  | misses => exact h.aside (by rw [was]; rfl) rfl same h.unborn
  | joins => exact h.join (held.numbered _) was
  | claims pending =>
    rename_i k f
    refine h.here (known f rfl) (was ▸ working rfl) (fun j i hi => by cases hi) rfl others ?_
    rw [show Function.update s.whereabouts c (.aboard k f) = s.whereabouts by rw [← was, Function.update_eq_self]]
    exact (h.each f).claim was pending
  | finds turn found => exact h.keeps (known _ rfl) turn (by rw [was]; rfl) rfl
  | asks turn nothing => exact h.keeps (known _ rfl) turn (by rw [was]; rfl) rfl
  | hears => exact h.keeps (known _ rfl) ((h.each _).works c _ (by rw [was]; rfl)) (by rw [was]; rfl) rfl
  | settles =>
    rename_i k f o
    exact h.here (known f rfl) (was ▸ working rfl) (fun j i hi => by cases hi) rfl others ((h.each f).settle was)
  | obtains done =>
    rename_i k f
    refine h.here (known f rfl) (was ▸ working rfl) (fun j i hi => by cases hi) rfl (fun _ _ => rfl) ?_
    refine (h.each f).moves (same f) (fun turn => ?_) (fun pending _ => ?_) fun j hj => (by cases hj)
    · rw [(h.each f).pending c turn] at done
      cases done
    · rw [pending] at done
      cases done
  | cancels waits =>
    rename_i k f
    have on : (s.whereabouts c).within? = some (k, f) := by
      rw [was]
      rcases waits with rfl | rfl <;> rfl
    have held : f < s.flights.next := by
      rcases waits with rfl | rfl <;> exact known f rfl
    exact h.here held (working on) (fun j i hi => by cases hi) rfl others (h.each f).withdraw
  | tests =>
    rename_i k f
    refine h.aside (by rw [was]; rfl) rfl (fun i => ?_) fun i hi => ?_
    · rw [Flights.test_flight]
      exact ⟨rfl, rfl, rfl⟩
    · rw [Flights.test_flight]
      exact h.unborn i (by rwa [Flights.test_next] at hi)
  | releases =>
    rename_i k f
    exact h.release (known f rfl) was

/-! ## Any interleaving -/

structure Inv (s : State) : Prop where
  held : Held s.flights s.whereabouts
  turns : Turns s.flights s.whereabouts

theorem start_inv (cache : Cache) : Inv (start cache) := ⟨start_held, start_turns⟩

theorem step_inv {s : State} (h : Inv s) (e : Event) : Inv (s.step e) := by
  cases step_does s e with
  | nothing same => rw [same]; exact h
  | shifts c w w' cache fl was shift moved =>
    rw [moved]
    exact ⟨shift_held h.held was shift, shift_turns h.held h.turns was shift⟩
  | drops _ flights whereabouts =>
    refine ⟨?_, ?_⟩
    · rw [flights, whereabouts]; exact h.held
    · rw [flights, whereabouts]; exact h.turns

theorem run_inv {s : State} (h : Inv s) (es : List Event) : Inv (s.run es) := by
  induction es generalizing s with
  | nil => exact h
  | cons e es ih => exact ih (step_inv h e)

end Gateway.SingleFlight
