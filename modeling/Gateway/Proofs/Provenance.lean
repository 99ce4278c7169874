/-
  Gateway.Proofs.Provenance — where the results of the authenticator come from.

  A run is a list of events; that `e` comes right after `pre` in `es` is `pre ++ [e] <+: es`.
  Every entry of the cache was `Bought`: the authority said that its credential is valid,
  and it lasts for the time to live from that instant. Every caller aboard a flight
  `Boarded` it when nobody was on it or when an unfinished caller of the same credential
  was. Every outcome that a caller can still take has its `Origin` on its own flight, for
  its own credential. All events keep this (`Sourced`), so whatever a call is told is
  `Justified` by what the authority said of the credential that the call came with.
-/

import Mathlib.Data.List.Induction
import Gateway.Proofs.Backing
import Gateway.Proofs.Frames

namespace Gateway

def Cache.Finding.Blames (f : Cache.Finding) : Failure.Kind → Prop
  | .unauthorized => f = .answered (.ok .invalid)
  | .unavailable => f = .silent ∨ ∃ e, f = .answered (.error e)
  | _ => ∃ a, f = .answered (.ok (.valid a))

namespace Gate

def speaker (g : Gate) : Event → CallId
  | .resumed c => c
  | .lookedUp c _ => c
  | _ => g.next

section

variable (g₀ : Gate)

/-! ## Grounds -/

/-- In the run, the authority finds `f` at instant `t` for the lookup of `k` on flight `i`. -/
def Heard (es : List Event) (i : FlightId) (k : Credential) (f : Cache.Finding) (t : Instant) : Prop :=
  ∃ pre c p, pre ++ [.lookedUp c f] <+: es ∧ (g₀.run pre).need? c = some (.lookup k) ∧
    (g₀.run pre).authenticator.passengers.get? c = some p ∧ p.flight = i ∧ (g₀.run pre).now = t

/-- The entry is an authorization of `k` that the authority gave, and lasts from then. -/
def Bought (es : List Event) (k : Credential) (e : Entry) : Prop :=
  (∃ i, Heard g₀ es i k (.answered (.ok (.valid e.authorization))) e.since) ∧
    e.expires = e.since.nanos + g₀.authenticator.cache.ttl.nanos

def Kept (pre : List Event) (k : Credential) (a : Authorization) : Prop :=
  ∃ e, (g₀.run pre).authenticator.cache.entries.get? k = some e ∧ e.isFresh (g₀.run pre).now = true ∧
    e.authorization = a ∧ Bought g₀ pre k e

def Found (es : List Event) (i : FlightId) (k : Credential) (a : Authorization) : Prop :=
  ∃ pre c p, pre ++ [.resumed c] <+: es ∧ (g₀.run pre).authenticator.passengers.get? c = some p ∧
    p.flight = i ∧ p.credential = k ∧ Kept g₀ pre k a

/-- The outcome is what the authority found for this flight, or was found in the cache. -/
def Origin (es : List Event) (i : FlightId) (k : Credential) (o : Outcome) : Prop :=
  (∃ f t, Heard g₀ es i k f t ∧ o.Tells f) ∨ ∃ a, o = .authorized a ∧ Found g₀ es i k a

/-- Whoever comes for `k` after `pre` is put on flight `i`, which is new or has an
unfinished caller of `k`. -/
def Joins (pre : List Event) (k : Credential) (i : FlightId) : Prop :=
  i = ((g₀.run pre).authenticator.flights.take k).1 ∧
    ((g₀.run pre).authenticator.flights.current.get? k = none ∨
      ∃ d p, (g₀.run pre).authenticator.passengers.get? d = some p ∧ p.flight = i ∧ p.credential = k)

/-- Call `c` arrives right after `pre` with the credential `k`. -/
def Asks (es pre : List Event) (c : CallId) (k : Credential) : Prop :=
  c = (g₀.run pre).next ∧ ∃ r, pre ++ [.arrived r] <+: es ∧ r.credential? = some k

def Boarded (es : List Event) (c : CallId) (k : Credential) (i : FlightId) : Prop :=
  ∃ pre, Asks g₀ es pre c k ∧ Joins g₀ pre k i

/-- In the run, the authenticator tells call `c` the result `x`. -/
def Told (es : List Event) (c : CallId) (x : Except Failure Authorization) : Prop :=
  ∃ pre e, pre ++ [e] <+: es ∧ (g₀.run pre).speaker e = c ∧ ((g₀.run pre).turn e).result = some x

/-- The ground for what a call is told that came for `k` after `pre`. -/
def Justified (es pre : List Event) (k : Credential) : Except Failure Authorization → Prop
  | .ok a => Kept g₀ pre k a ∨
      ∃ i, Joins g₀ pre k i ∧ (Found g₀ es i k a ∨ ∃ t, Heard g₀ es i k (.answered (.ok (.valid a))) t)
  | .error e => ∃ i f t, Joins g₀ pre k i ∧ Heard g₀ es i k f t ∧ f.Blames e.kind

end

variable {g₀ : Gate} {es es' pre : List Event} {c : CallId} {k : Credential} {i : FlightId}

/-! ## Grounds last -/

theorem before_or_same {pre' : List Event} {e e' : Event} (h : pre ++ [e] <+: pre' ++ [e']) :
    pre ++ [e] <+: pre' ∨ (pre = pre' ∧ e = e') := by
  rcases List.prefix_concat_iff.mp h with same | h
  · obtain ⟨hp, he⟩ := List.append_inj' same rfl
    cases he
    exact Or.inr ⟨hp, rfl⟩
  · exact Or.inl h

theorem Heard.mono (hs : es <+: es') {f : Cache.Finding} {t : Instant} :
    Heard g₀ es i k f t → Heard g₀ es' i k f t
  | ⟨pre, c, p, h, rest⟩ => ⟨pre, c, p, h.trans hs, rest⟩

theorem Bought.mono (hs : es <+: es') {e : Entry} : Bought g₀ es k e → Bought g₀ es' k e
  | ⟨⟨i, h⟩, he⟩ => ⟨⟨i, h.mono hs⟩, he⟩

theorem Found.mono (hs : es <+: es') {a : Authorization} : Found g₀ es i k a → Found g₀ es' i k a
  | ⟨pre, c, p, h, rest⟩ => ⟨pre, c, p, h.trans hs, rest⟩

theorem Origin.mono (hs : es <+: es') {o : Outcome} : Origin g₀ es i k o → Origin g₀ es' i k o
  | .inl ⟨f, t, h, ho⟩ => .inl ⟨f, t, h.mono hs, ho⟩
  | .inr ⟨a, ho, h⟩ => .inr ⟨a, ho, h.mono hs⟩

theorem Asks.mono (hs : es <+: es') : Asks g₀ es pre c k → Asks g₀ es' pre c k
  | ⟨hc, r, h, hr⟩ => ⟨hc, r, h.trans hs, hr⟩

theorem Boarded.mono (hs : es <+: es') : Boarded g₀ es c k i → Boarded g₀ es' c k i
  | ⟨pre, h, hj⟩ => ⟨pre, h.mono hs, hj⟩

theorem Justified.mono (hs : es <+: es') {x : Except Failure Authorization} (h : Justified g₀ es pre k x) :
    Justified g₀ es' pre k x := by
  cases x with
  | ok a =>
    rcases h with h | ⟨i, hj, h | ⟨t, h⟩⟩
    · exact Or.inl h
    · exact Or.inr ⟨i, hj, Or.inl (h.mono hs)⟩
    · exact Or.inr ⟨i, hj, Or.inr ⟨t, h.mono hs⟩⟩
  | error e =>
    obtain ⟨i, f, t, hj, h, hf⟩ := h
    exact ⟨i, f, t, hj, h.mono hs, hf⟩

/-- An outcome that has its origin on the flight that a call joined justifies the answer. -/
theorem Origin.justified {o : Outcome} (hj : Joins g₀ pre k i) (h : Origin g₀ es i k o) :
    Justified g₀ es pre k o.result := by
  rcases h with ⟨f, t, h, ho⟩ | ⟨a, rfl, h⟩
  · cases o with
    | authorized a => exact Or.inr ⟨i, hj, Or.inr ⟨t, by rw [← show f = _ from ho]; exact h⟩⟩
    | rejected m => exact ⟨i, f, t, hj, h, ho⟩
    | unavailable m => exact ⟨i, f, t, hj, h, ho⟩
    | failed m => exact ⟨i, f, t, hj, h, ho⟩
  · exact Or.inr ⟨i, hj, Or.inl h⟩

/-! ## The invariant -/

def Grounded (g₀ : Gate) (es : List Event) (c : CallId) (x : Except Failure Authorization) : Prop :=
  ∃ pre k, Asks g₀ es pre c k ∧ Justified g₀ es pre k x

structure Sourced (g₀ : Gate) (es : List Event) : Prop where
  backed : Backed g₀.authenticator.cache.ttl (Bought g₀ es) (Boarded g₀ es) (Origin g₀ es)
    (g₀.run es).authenticator (g₀.run es).next
  results : ∀ c x, Told g₀ es c x → Grounded g₀ es c x

theorem Grounded.mono (hs : es <+: es') {x : Except Failure Authorization} :
    Grounded g₀ es c x → Grounded g₀ es' c x
  | ⟨pre, k, ha, hj⟩ => ⟨pre, k, ha.mono hs, hj.mono hs⟩

/-- What a caller takes from the flight it boarded is justified. -/
theorem grounded_of_taken {p : Passenger} {x : Except Failure Authorization}
    (hb : Boarded g₀ es c p.credential p.flight) (h : Backed.Taken (Origin g₀ es) p x) : Grounded g₀ es c x := by
  obtain ⟨pre, ha, hj⟩ := hb
  obtain ⟨o, rfl, ho⟩ := h
  exact ⟨pre, p.credential, ha, ho.justified hj⟩

/-- A passenger that asks the authority is one whose call needs a lookup. -/
theorem need_lookup {g : Gate} {r : Request} {p : Passenger} (hc : g.calls.get? c = some ⟨r, .authenticating⟩)
    (hp : g.authenticator.passengers.get? c = some p) (ha : p.asking = true) :
    g.need? c = some (.lookup p.credential) := by
  simp [need?, hc, hp, ha]

def Sound (g₀ : Gate) (es : List Event) (s : Authenticator.Step) (n c : CallId) : Prop :=
  Yields g₀.authenticator.cache.ttl (Bought g₀ es) (Boarded g₀ es) (Origin g₀ es) s n (Grounded g₀ es c)

theorem Sourced.lasts (h : Sourced g₀ es) (hs : es <+: es') :
    Backed g₀.authenticator.cache.ttl (Bought g₀ es') (Boarded g₀ es') (Origin g₀ es')
      (g₀.run es).authenticator (g₀.run es).next :=
  h.backed.mono (fun _ _ => Bought.mono hs) (fun _ _ _ => Boarded.mono hs) fun _ _ _ => Origin.mono hs

/-- Whoever comes takes a fresh entry, or boards a flight that is new or has a caller. -/
theorem arrived_sound (h : Sourced g₀ es) (r : Request) : Sound g₀ (es ++ [.arrived r])
    ((g₀.run es).turn (.arrived r)) ((g₀.run es).next + 1) (g₀.run es).next := by
  have back := h.lasts (List.prefix_append es [.arrived r])
  cases hr : r.credential? with
  | none =>
    rw [turn_arrived_none hr]
    exact (back.later (Nat.le_succ _)).still
  | some k =>
    rw [turn_arrived hr]
    have asks : Asks g₀ (es ++ [.arrived r]) es (g₀.run es).next k := ⟨rfl, r, List.prefix_refl _, hr⟩
    have joins : Joins g₀ es k ((g₀.run es).authenticator.flights.take k).1 := by
      refine ⟨rfl, ?_⟩
      rcases Flights.take_cases (g₀.run es).authenticator.flights k with ⟨hk, -⟩ | ⟨hk, -⟩
      · exact Or.inr (h.backed.manifest.manned k _ hk)
      · exact Or.inl hk
    obtain ⟨hn, hx⟩ := back.ask (k := k) ⟨es, asks, joins⟩
    refine ⟨hn, fun x hr => ?_⟩
    rcases hx x hr with ⟨e, he, hf, rfl⟩ | ht
    · exact ⟨es, k, asks, Or.inl ⟨e, he, hf, rfl, h.backed.entries k e he⟩⟩
    · exact grounded_of_taken (p := ⟨k, _, false⟩) ⟨es, asks, joins⟩ ht

/-- A caller that goes on takes the outcome of its flight, or finds a fresh entry. -/
theorem resumed_sound (h : Sourced g₀ es) (c : CallId) : Sound g₀ (es ++ [.resumed c])
    ((g₀.run es).turn (.resumed c)) (g₀.run es).next c := by
  have back := h.lasts (List.prefix_append es [.resumed c])
  rcases turn_resumed (g₀.run es) c with ht | ⟨r, -, ht⟩ <;> rw [ht]
  · exact back.still
  · obtain ⟨hn, hx⟩ := back.resume (c := c) fun p hp e he hf =>
      Or.inr ⟨_, rfl, es, c, p, List.prefix_refl _, hp, rfl, rfl, e, he, hf, rfl, h.backed.entries _ e he⟩
    refine ⟨hn, fun x hr => ?_⟩
    obtain ⟨p, hp, ht⟩ := hx x hr
    exact grounded_of_taken (back.aboard c p hp) ht

/-- What the authority finds becomes the outcome of the flight that asked. -/
theorem lookedUp_sound (h : Sourced g₀ es) (c : CallId) (f : Cache.Finding) : Sound g₀ (es ++ [.lookedUp c f])
    ((g₀.run es).turn (.lookedUp c f)) (g₀.run es).next c := by
  have back := h.lasts (List.prefix_append es [.lookedUp c f])
  rcases turn_lookedUp (g₀.run es) c f with ht | ⟨r, hc, ht⟩ <;> rw [ht]
  · exact back.still
  · have heard : ∀ p, (g₀.run es).authenticator.passengers.get? c = some p → p.asking = true →
        Heard g₀ (es ++ [.lookedUp c f]) p.flight p.credential f (g₀.run es).now := fun p hp ha =>
      ⟨es, c, p, List.prefix_refl _, need_lookup hc hp ha, hp, rfl, rfl⟩
    obtain ⟨hn, hx⟩ := back.hear (c := c) (f := f) (fun p hp ha o ho => Or.inl ⟨f, _, heard p hp ha, ho⟩)
      fun p hp ha e hf hs hx => ⟨⟨p.flight, by rw [← hf, hs]; exact heard p hp ha⟩, by rw [hx, hs]⟩
    refine ⟨hn, fun x hr => ?_⟩
    obtain ⟨p, hp, ht⟩ := hx x hr
    exact grounded_of_taken (back.aboard c p hp) ht

/-- Every event gives what it adds a ground. -/
theorem turn_sound (h : Sourced g₀ es) (e : Event) : Sound g₀ (es ++ [e])
    ((g₀.run es).turn e) ((g₀.run es).nextAfter e) ((g₀.run es).speaker e) := by
  have back := h.lasts (List.prefix_append es [e])
  cases e with
  | arrived r => exact arrived_sound h r
  | resumed c => exact resumed_sound h c
  | lookedUp c f => exact lookedUp_sound h c f
  | cancelled c =>
    rcases turn_cancelled (g₀.run es) c with ht | ht
    · rw [ht]; exact back.still
    · rw [ht]; exact (back.cancel c).still
  | swept s =>
    cases s with
    | credentials => exact (back.sweep _).still
    | windows => exact back.still
  | replied c r => exact back.still
  | countedLocally c => exact back.still
  | failedLocally c f => exact back.still
  | pinged c p => exact back.still
  | advanced ms => exact back.still
  | set t => exact back.still

theorem step_sourced (h : Sourced g₀ es) (e : Event) : Sourced g₀ (es ++ [e]) := by
  obtain ⟨hn, hx⟩ := turn_sound h e
  refine ⟨?_, fun c x hm => ?_⟩
  · rw [run_snoc, step_authenticator, step_next]
    exact hn
  · obtain ⟨pre, e', came, rfl, hr⟩ := hm
    rcases before_or_same came with before | ⟨rfl, rfl⟩
    · exact (h.results _ x ⟨pre, e', before, rfl, hr⟩).mono (List.prefix_append _ _)
    · exact hx x hr

/-- Everything in a run from an empty cache has its ground. -/
theorem run_sourced (t : Instant) {cache : Cache} (hc : ∀ k, cache.entries.get? k = none) (limiter : Limiter)
    (pinger : Option Span) (es : List Event) : Sourced (start t cache limiter pinger) es := by
  induction es using List.reverseRecOn with
  | nil => exact ⟨Backed.start rfl hc 0, fun c x ⟨pre, e, h, _⟩ => absurd (List.prefix_nil.mp h) (by simp)⟩
  | append_singleton es e ih => exact step_sourced ih e

/-! ## Answers -/

theorem run_next_le (g : Gate) (es : List Event) : g.next ≤ (g.run es).next := by
  induction es generalizing g with
  | nil => exact Nat.le_refl _
  | cons e es ih => exact Nat.le_trans (step_next_le g e) (ih _)

/-- Whoever arrives takes a number. -/
theorem next_lt_of_arrived {r : Request} (h : pre ++ [.arrived r] <+: es) : (g₀.run pre).next < (g₀.run es).next := by
  obtain ⟨post, rfl⟩ := h
  rw [run_append]
  refine Nat.lt_of_lt_of_le ?_ (run_next_le _ post)
  rw [run_snoc, step_next]
  exact Nat.lt_succ_self _

/-- No call arrives twice. -/
theorem arrived_once {pre' : List Event} {r r' : Request} (h : pre ++ [.arrived r] <+: es)
    (h' : pre' ++ [.arrived r'] <+: es) (hn : (g₀.run pre).next = (g₀.run pre').next) :
    pre = pre' ∧ Event.arrived r = .arrived r' := by
  rcases List.prefix_or_prefix_of_prefix h h' with hp | hp
  · rcases before_or_same hp with hp | he
    · exact absurd hn (Nat.ne_of_lt (next_lt_of_arrived hp))
    · exact he
  · rcases before_or_same hp with hp | he
    · exact absurd hn.symm (Nat.ne_of_lt (next_lt_of_arrived hp))
    · exact ⟨he.1.symm, he.2.symm⟩

theorem mem_verdict {d : CallId} {r : Request} {s : Authenticator.Step} {x : Except Failure Authorization}
    (h : (c, x) ∈ verdict d r s) : c = d ∧ s.result = some x := by
  unfold verdict at h
  split at h
  · rename_i hs
    simp only [List.mem_singleton, Prod.mk.injEq] at h
    exact ⟨h.1, h.2 ▸ hs⟩
  · cases h

theorem mem_verdicts {g : Gate} {e : Event} {x : Except Failure Authorization} (h : (c, x) ∈ g.verdicts e) :
    c = g.speaker e ∧ (g.turn e).result = some x := by
  cases e with
  | arrived r => exact mem_verdict h
  | resumed d =>
    cases hd : g.calls.get? d with
    | none => simp [verdicts, hd] at h
    | some y => exact mem_verdict (d := d) (r := y.request) (by simpa [verdicts, hd] using h)
  | lookedUp d f =>
    cases hd : g.calls.get? d with
    | none => simp [verdicts, hd] at h
    | some y => exact mem_verdict (d := d) (r := y.request) (by simpa [verdicts, hd] using h)
  | _ => cases h

/-- What a call for the authorization alone is answered, the authenticator has told it. -/
theorem told_of_authorization (hg : g₀.authorizations = []) {x : Except Failure Authorization}
    (h : (c, x) ∈ (g₀.run es).authorizations) : Told g₀ es c x := by
  induction es using List.reverseRecOn with
  | nil => rw [run_nil, hg] at h; cases h
  | append_singleton es e ih =>
    rw [run_snoc, step_authorizations, List.mem_append] at h
    rcases h with h | h
    · obtain ⟨pre, e', came, told⟩ := ih h
      exact ⟨pre, e', came.trans (List.prefix_append _ _), told⟩
    · obtain ⟨rfl, told⟩ := mem_verdicts h
      exact ⟨es, e, List.prefix_refl _, rfl, told⟩

/-- Whatever the authenticator tells a call that came with a credential, in any run from an
empty cache, is justified by what the authority found of that very credential: an entry of
it that was fresh when the call came, or the outcome of the flight that the call joined,
which was new or had an unfinished caller. So is whatever a call for the authorization
alone is answered. -/
theorem answer_justified {ttl patience : Span} {cache : Cache} (hc : Cache.make ttl patience = .ok cache)
    (t : Instant) (limiter : Limiter) (pinger : Option Span) (es pre : List Event) (r : Request) (k : Credential)
    (came : pre ++ [.arrived r] <+: es) (hr : r.credential? = some k) :
    let g := start t cache limiter pinger
    (∀ x, Told g es (g.run pre).next x → Justified g es pre k x) ∧
      ∀ x, ((g.run pre).next, .authorization x) ∈ (g.run es).answers → Justified g es pre k x := by
  intro g
  have empty : ∀ k, cache.entries.get? k = none := fun k => by
    unfold Cache.make at hc
    split at hc
    · cases hc
    · split at hc
      · cases hc
      · cases hc; rfl
  have justified : ∀ x, Told g es (g.run pre).next x → Justified g es pre k x := fun x told => by
    obtain ⟨pre', k', ⟨hn, r', came', hr'⟩, hj⟩ := (run_sourced t empty limiter pinger es).results _ x told
    obtain ⟨rfl, same⟩ := arrived_once came came' hn
    cases same
    rw [hr] at hr'
    cases hr'
    exact hj
  exact ⟨justified, fun x answered => justified x (told_of_authorization rfl (mem_authorizations.mpr answered))⟩

/-! ## A shared answer -/

/-- A second call for `k` comes while the first waits for the authority, which says `a`. -/
def sharedLookup (k : Credential) (a : Authorization) : List Event :=
  [.arrived (.authenticate k), .arrived (.authenticate k), .lookedUp 0 (.answered (.ok (.valid a))), .resumed 1]

theorem sharedLookup_answers :
    ((start 0 ⟨Span.ofSeconds 60, Span.ofMillis 500, Table.empty⟩ (Limiter.localOnly Policy.standard) none).run
      (sharedLookup ⟨"t"⟩ ⟨⟨"acct"⟩, .card, none⟩)).answers =
      [(0, .authorization (.ok ⟨⟨"acct"⟩, .card, none⟩)), (1, .authorization (.ok ⟨⟨"acct"⟩, .card, none⟩))] := by
  rfl

/-- The second call is answered what the first was told. -/
theorem sharedLookup_justified :
    let k : Credential := ⟨"t"⟩
    let a : Authorization := ⟨⟨"acct"⟩, .card, none⟩
    let cache : Cache := ⟨Span.ofSeconds 60, Span.ofMillis 500, Table.empty⟩
    let g := start 0 cache (Limiter.localOnly Policy.standard) none
    let pre : List Event := [.arrived (.authenticate k)]
    Cache.make (Span.ofSeconds 60) (Span.ofMillis 500) = .ok cache ∧
      pre ++ [.arrived (.authenticate k)] <+: sharedLookup k a ∧
      (Request.authenticate k).credential? = some k ∧
      ((g.run pre).next, .authorization (.ok a)) ∈ (g.run (sharedLookup k a)).answers ∧
      Justified g (sharedLookup k a) pre k (.ok a) := by
  intro k a cache g pre
  have made : Cache.make (Span.ofSeconds 60) (Span.ofMillis 500) = .ok cache := rfl
  have came : pre ++ [.arrived (.authenticate k)] <+: sharedLookup k a := ⟨_, rfl⟩
  have answered : ((g.run pre).next, Answer.authorization (.ok a)) ∈ (g.run (sharedLookup k a)).answers := by
    rw [show (g.run (sharedLookup k a)).answers = _ from sharedLookup_answers]
    exact List.mem_cons_of_mem _ List.mem_cons_self
  exact ⟨made, came, rfl, answered, (answer_justified made 0 _ none _ pre _ k came rfl).2 _ answered⟩

end Gate

end Gateway
