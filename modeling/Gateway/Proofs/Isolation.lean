/-
  Gateway.Proofs.Isolation — a budget is not touched by what is done to others.

  The budget of an account for a class of operations is drawn on by visits: the attempts
  that are counted for it, each with the instance that it came to and the instant at which
  it began. If the shared store fails no attempt and the clocks never go back, the decisions
  on these attempts are a function of the visits alone, in the order in which they are
  counted (`verdicts`): other calls, sweeps and whatever else happens in between do not
  matter (`isolation`).

  What carries the induction over a run is `Tallied`: a counter that may still be used
  holds the number of visits to its window. A sweep only takes counters of windows that
  have ended, and with clocks that never go back these are not used again. That a visit to
  an instance without a shared store is counted before its window ends is asked for; a visit
  that is counted at the instant at which it began is (`inTime_at_once`).
-/

import Gateway.Proofs.Attribution
import Gateway.Proofs.Cooldown
import Gateway.Proofs.Windows

namespace Gateway

/-! ## Visits and their decisions -/

def WindowKey.Of (p : AccountId) (o : Operation) (k : WindowKey) : Prop := k.principal = p.text ∧ k.operation = o

instance (p : AccountId) (o : Operation) (k : WindowKey) : Decidable (k.Of p o) := inferInstanceAs (Decidable (_ ∧ _))

/-- An attempt on a budget: the instance that it came to, and when it began. -/
structure Visit where
  gate : Nat
  began : Instant
  deriving DecidableEq, Repr

section Verdicts

variable (limiter : Nat → Limiter) (p : AccountId) (o : Operation)

def place (i : Nat) : Option Nat := if (limiter i).shared then none else some i

def Visit.key (v : Visit) : WindowKey :=
  ⟨p.text, o, ((limiter v.gate).policy.rule o).window.millis, v.began / ((limiter v.gate).policy.rule o).window.millis⟩

def tally (l : List Visit) (y : Option Nat) (k : WindowKey) : Nat :=
  l.countP fun v => place limiter v.gate = y ∧ v.key limiter p o = k

def verdict (before : List Visit) (v : Visit) : Decision :=
  ⟨v.key limiter p o, min (tally limiter p o before (place limiter v.gate) (v.key limiter p o) + 1) Word.top,
    ((limiter v.gate).policy.rule o).limit, if (limiter v.gate).shared then .shared else .fallback⟩

def verdicts (before : List Visit) : List Visit → List Decision
  | [] => []
  | v :: l => verdict limiter p o before v :: verdicts (before ++ [v]) l

theorem tally_append (l : List Visit) (v : Visit) (y : Option Nat) (k : WindowKey) :
    tally limiter p o (l ++ [v]) y k =
      tally limiter p o l y k + if place limiter v.gate = y ∧ v.key limiter p o = k then 1 else 0 := by
  unfold tally
  rw [List.countP_append, List.countP_singleton]
  simp only [decide_eq_true_eq]

end Verdicts

/-! ## Limiters that stay as they were -/

namespace Gate

/-- The rules are those of `l`, nothing is known against the shared store, and every attempt in
progress is at the place where `l` counts, for the window around its beginning. -/
structure Steady (l : Limiter) (g : Gate) : Prop where
  policy : g.limiter.policy = l.policy
  shared : g.limiter.shared = l.shared
  well : l.shared = true → g.limiter.health.mark = Health.well
  sent : ∀ c y a who, g.calls.get? c = some y → y.stage.carried? = some (a, who) →
    y.stage = Source.stage (if l.shared then .shared else .fallback) a who ∧
      a.limit = (l.policy.rule a.key.operation).limit ∧
      ∃ p, WindowKey.containing p a.key.operation (l.policy.rule a.key.operation).window a.began = .ok a.key

variable {l : Limiter} {g : Gate} {c : CallId} {e : Event}

theorem start_steady (fresh : l.shared = true → l.health.mark = Health.well) (t : Instant) (cache : Cache)
    (pinger : Option Span) : Steady l (start t cache l pinger) :=
  ⟨rfl, rfl, fresh, fun _ _ _ _ h => by cases h⟩

/-- An attempt that the shared store has not failed does not fall back. -/
theorem no_fall (h : g.Numbered) (faultless : g.fault e = none) {r r' : Request} {a a' : Attempt}
    {who who' : Option Authorization} (hc : g.calls.get? c = some ⟨r, .counting a who⟩) :
    (g.step e).calls.get? c ≠ some ⟨r', .countingLocally a' who'⟩ := by
  intro fallen
  by_cases hr : ∃ reply, e = .replied c reply
  · obtain ⟨reply, rfl⟩ := hr
    cases reply with
    | counted n =>
      have made : g.made (.replied c (.counted n)) = some ⟨c, who, Limiter.Attempt.decide a n .shared⟩ := by
        simp only [Gate.made, hc]
      have gone : (g.step (.replied c (.counted n))).calls.get? c = none := made_ends made
      rw [gone] at fallen
      cases fallen
    | failed f => simp [fault, hc] at faultless
    | silent => simp [fault, hc] at faultless
  · by_cases hx : e = .cancelled c
    · subst hx
      simp only [step, withCall, hc, Table.get?_erase, if_true] at fallen
      cases fallen
    · rw [counting_stays h hc (fun reply is => hr ⟨reply, is⟩) hx] at fallen
      cases fallen

theorem step_well (h : Steady l g) (hs : l.shared = true) (faultless : g.fault e = none) :
    (g.step e).limiter.health.mark = Health.well := by
  have well := h.well hs
  cases pulse (h.shared.trans hs) e with
  | probed _ _ _ limiter =>
    rw [limiter, Health.probe_well well]
    exact well
  | failed b _ fault => rw [faultless] at fault; cases fault
  | answered _ _ _ _ _ limiter => rw [limiter]; rfl
  | same _ _ limiter => rw [limiter]; exact well

theorem step_steady (h : Steady l g) (numbered : g.Numbered) (faultless : g.fault e = none) : Steady l (g.step e) := by
  refine ⟨(step_policy g e).trans h.policy, (step_shared g e).trans h.shared, fun hs => step_well h hs faultless,
    fun c y a who hy carried => ?_⟩
  cases since hy with
  | same call => exact h.sent c y a who call carried
  | waits _ bare => rw [bare] at carried; cases carried
  | begins v b s m _ _ _ sent stage =>
    rw [stage, Source.carried?_stage] at carried
    cases carried
    obtain ⟨key, limit, began, goes⟩ := begin_spec (send_eq_some.mp sent)
    rw [h.policy] at key limit
    rw [h.shared] at goes
    have operation : a.key.operation = v.operation := containing_operation key
    refine ⟨?_, operation ▸ limit, v.account, by rw [operation, began]; exact key⟩
    rw [stage]
    cases hs : l.shared with
    | false =>
      rw [hs, if_neg Bool.false_ne_true] at goes
      rw [goes.1]
      rfl
    | true =>
      rw [hs, if_pos rfl, Health.probe_well (h.well hs)] at goes
      rw [goes.1]
  | falls b who' call stage =>
    obtain ⟨r, s⟩ := y
    simp only at stage
    subst stage
    exact absurd hy (no_fall numbered faultless call)

end Gate

def Charge.isOn (p : AccountId) (o : Operation) (x : Charge) : Bool := decide (x.ruling.decision.key.Of p o)

namespace Fleet

/-! ## Runs -/

def visit? (f : Fleet) (x : Charge) : Option Visit :=
  ((f.gates x.gate).calls.get? x.ruling.call).bind fun y => y.stage.carried?.map fun z => ⟨x.gate, z.1.began⟩

section

variable (f : Fleet) (p : AccountId) (o : Operation)

def levy (e : Event) : Option Charge := (f.charge e).filter (Charge.isOn p o)

def levies (es : List Event) : List Charge := (f.charges es).filter (Charge.isOn p o)

def decisions (es : List Event) : List Decision := (f.levies p o es).map (·.ruling.decision)

/-- The clock does not go back, the shared store fails no attempt, and what an instance counts
by itself for the budget, it counts before the window ends. -/
structure Orderly (e : Event) : Prop where
  onward : (f.gates e.gate).now ≤ ((f.step e).gates e.gate).now
  answered : ∀ d ∈ f.acts e.gate e, (f.gates e.gate).fault d = none
  inTime : ∀ x ∈ f.levy p o e, x.ruling.decision.source = .fallback → (f.gates x.gate).now < x.ruling.decision.key.stop

end

def visits (p : AccountId) (o : Operation) (f : Fleet) : List Event → List Visit
  | [] => []
  | e :: es => ((f.levy p o e).bind f.visit?).toList ++ (f.step e).visits p o es

def Regular (p : AccountId) (o : Operation) (f : Fleet) : List Event → Prop
  | [] => True
  | e :: es => f.Orderly p o e ∧ (f.step e).Regular p o es

instance (f : Fleet) (p : AccountId) (o : Operation) (e : Event) : Decidable (f.Orderly p o e) :=
  decidable_of_iff (_ ∧ _ ∧ _) ⟨fun h => ⟨h.1, h.2.1, h.2.2⟩, fun h => ⟨h.onward, h.answered, h.inTime⟩⟩

instance decidableRegular (p : AccountId) (o : Operation) : ∀ (f : Fleet) (es : List Event), Decidable (f.Regular p o es)
  | _, [] => inferInstanceAs (Decidable True)
  | f, e :: es =>
    have := decidableRegular p o (f.step e) es
    inferInstanceAs (Decidable (f.Orderly p o e ∧ (f.step e).Regular p o es))

def counters (f : Fleet) : Option Nat → Counters
  | none => f.store
  | some i => (f.gates i).locals

def Over (f : Fleet) (k : WindowKey) : Option Nat → Prop
  | none => False
  | some i => k.stop ≤ (f.gates i).now

/-- Every counter for a window of the budget that has not ended holds the number of visits to it. -/
structure Tallied (limiter : Nat → Limiter) (p : AccountId) (o : Operation) (before : List Visit) (f : Fleet) : Prop where
  inv : f.Inv
  dated : ∀ i, (f.gates i).locals.Dated
  steady : ∀ i, Gate.Steady (limiter i) (f.gates i)
  counts : ∀ i k, k.Of p o → f.Over k (place limiter i) ∨
    (f.counters (place limiter i)).count k = min (tally limiter p o before (place limiter i) k) Word.top

variable {f : Fleet} {limiter : Nat → Limiter} {p : AccountId} {o : Operation} {before : List Visit} {e : Event}
  {x : Charge} {i : Nat} {k : WindowKey}

theorem start_tallied (fresh : ∀ i, (limiter i).shared = true → (limiter i).health.mark = Health.well)
    (t : Nat → Instant) (cache : Nat → Cache) (pinger : Nat → Option Span) :
    Tallied limiter p o [] (start t cache limiter pinger) := by
  refine ⟨start_inv t cache limiter pinger, fun i => Counters.dated_empty, fun i => Gate.start_steady (fresh i) _ _ _,
    fun i k _ => Or.inr ?_⟩
  cases place limiter i <;> rfl

/-! ## What is charged -/

/-- The attempt that is charged is counted where its instance counts, one more than before. -/
theorem charge_counted (h : Tallied limiter p o before f) (hx : f.charge e = some x) :
    x.ruling.decision.source = (if (limiter x.gate).shared then .shared else .fallback) ∧
      x.ruling.decision.count =
        min ((f.counters (place limiter x.gate)).count x.ruling.decision.key + 1) Word.top := by
  cases e with
  | own j d =>
    obtain ⟨-, -, c, r, a, who, hc, rfl⟩ := own_charge hx
    have stage := ((h.steady j).sent c _ a who hc rfl).1
    cases hs : (limiter j).shared with
    | true => rw [hs] at stage; cases stage
    | false =>
      refine ⟨rfl, ?_⟩
      simp only [place, hs]
      exact Counters.record_fst _ _
  | counts j c =>
    obtain ⟨r, a, who, hc, -, rfl, -⟩ := counts_charge hx
    have stage := ((h.steady j).sent c _ a who hc rfl).1
    cases hs : (limiter j).shared with
    | true =>
      refine ⟨rfl, ?_⟩
      simp only [place, hs]
      exact Counters.record_fst _ _
    | false => rw [hs] at stage; cases stage
  | delivers j c => cases hx

/-- A charge on the budget is a visit to its instance, for the window that it counts in. -/
theorem charge_visit (h : Tallied limiter p o before f) (hx : f.charge e = some x) (on : x.ruling.decision.key.Of p o) :
    ∃ v, f.visit? x = some v ∧ v.gate = x.gate ∧ x.ruling.decision.key = v.key limiter p o ∧
      x.ruling.decision.limit = ((limiter x.gate).policy.rule o).limit := by
  obtain ⟨y, a, hy, carried, key, limit⟩ := charge_carried hx
  obtain ⟨-, fits, q, within⟩ := (h.steady x.gate).sent _ y a _ hy carried
  rw [key] at on
  obtain ⟨principal, operation⟩ := on
  rw [operation] at fits within
  obtain ⟨-, -, is⟩ := WindowKey.containing_ok.mp within
  have account : q.text = p.text := by rw [← principal, is]
  refine ⟨⟨x.gate, a.began⟩, by simp only [visit?, hy, carried, Option.bind_some, Option.map_some], rfl, ?_,
    limit.trans fits⟩
  rw [key, is, account]
  rfl

/-- A visit that is counted at the instant at which it began is in time. -/
theorem inTime_at_once (h : Tallied limiter p o before f) (hx : f.levy p o e = some x) {v : Visit}
    (visit : f.visit? x = some v) (once : v.began = (f.gates x.gate).now) (ranged : v.began.InRange) :
    (f.gates x.gate).now < x.ruling.decision.key.stop := by
  obtain ⟨y, a, hy, carried, key, -⟩ := charge_carried (Option.filter_eq_some_iff.mp hx).1
  obtain ⟨-, -, q, within⟩ := (h.steady x.gate).sent _ y a _ hy carried
  simp only [visit?, hy, carried, Option.bind_some, Option.map_some, Option.some.injEq] at visit
  subst visit
  rw [key, ← once]
  exact (WindowKey.around_of_containing within).lt_stop ranged

/-! ## What a step does to a count -/

theorem Over.stays (onward : (f.gates e.gate).now ≤ ((f.step e).gates e.gate).now) {y : Option Nat} (h : f.Over k y) :
    (f.step e).Over k y := by
  cases y with
  | none => exact h
  | some i =>
    have before : k.stop ≤ (f.gates i).now := h
    show k.stop ≤ ((f.step e).gates i).now
    by_cases hi : i = e.gate
    · subst hi
      exact Int.le_trans before onward
    · rw [gate_still hi]
      exact before

theorem place_eq_none : place limiter i = none ↔ (limiter i).shared = true := by
  unfold place
  cases (limiter i).shared <;> simp

theorem place_eq_some {j : Nat} : place limiter i = some j ↔ (limiter i).shared = false ∧ i = j := by
  unfold place
  cases (limiter i).shared <;> simp

/-- What is charged to a counter of the shared store. -/
theorem charge_on_shared (h : Tallied limiter p o before f) (hx : f.charge e = some x) :
    x.ruling.on k .shared = true ↔ place limiter x.gate = none ∧ x.ruling.decision.key = k := by
  rw [place_eq_none]
  simp only [Ruling.on, (charge_counted h hx).1, Bool.and_eq_true, decide_eq_true_eq]
  cases (limiter x.gate).shared <;> simp

/-- What is charged to a counter of an instance. -/
theorem charge_on_fallback (h : Tallied limiter p o before f) (hx : f.charge e = some x) {j : Nat} :
    x.gate = j ∧ x.ruling.on k .fallback = true ↔ place limiter x.gate = some j ∧ x.ruling.decision.key = k := by
  rw [place_eq_some]
  simp only [Ruling.on, (charge_counted h hx).1, Bool.and_eq_true, decide_eq_true_eq]
  cases (limiter x.gate).shared <;> simp [and_comm]

/-- Unless the window has ended there, exactly what is charged there to the key moves its count. -/
theorem step_count (h : Tallied limiter p o before f) (e : Event) (i : Nat) (k : WindowKey) :
    f.Over k (place limiter i) ∨ ((f.step e).counters (place limiter i)).count k =
      if ∃ x, f.charge e = some x ∧ place limiter x.gate = place limiter i ∧ x.ruling.decision.key = k
        then min ((f.counters (place limiter i)).count k + 1) Word.top
        else (f.counters (place limiter i)).count k := by
  cases hp : place limiter i with
  | none =>
    refine Or.inr ?_
    show (f.step e).store.count k = if _ then min (f.store.count k + 1) Word.top else f.store.count k
    rw [step_store, Counters.record_fst]
    cases hx : f.charge e with
    | none => simp
    | some x => simp only [Option.any_some, charge_on_shared h hx, Option.some.injEq, exists_eq_left']
  | some j =>
    rcases step_locals_count (h.dated j) k e with ⟨⟨x, hx, on⟩, count⟩ | ⟨uncharged, count | ⟨ended, -⟩⟩
    · right
      rw [if_pos ⟨x, hx, (charge_on_fallback h hx).mp on⟩, ← Counters.record_fst]
      exact count
    · right
      rw [if_neg fun w => ?_]
      · exact count
      · obtain ⟨x, hx, there⟩ := w
        exact uncharged ⟨x, hx, (charge_on_fallback h hx).mpr there⟩
    · exact Or.inl ended

/-! ## Decisions are a function of the visits -/

/-- A charge on the budget is decided on as the visits before it say. -/
theorem charge_verdict (h : Tallied limiter p o before f) (ok : f.Orderly p o e) (hx : f.levy p o e = some x) :
    ∃ v, f.visit? x = some v ∧ v.gate = x.gate ∧ v.key limiter p o = x.ruling.decision.key ∧
      x.ruling.decision = verdict limiter p o before v := by
  obtain ⟨charged, on⟩ := Option.filter_eq_some_iff.mp hx
  have on : x.ruling.decision.key.Of p o := of_decide_eq_true on
  obtain ⟨v, visit, gate, key, limit⟩ := charge_visit h charged on
  obtain ⟨source, count⟩ := charge_counted h charged
  have running : ¬ f.Over x.ruling.decision.key (place limiter x.gate) := by
    cases hp : place limiter x.gate with
    | none => exact fun w => w
    | some j =>
      obtain ⟨own, rfl⟩ := place_eq_some.mp hp
      rw [own, if_neg Bool.false_ne_true] at source
      exact Int.not_le.mpr (ok.inTime x hx source)
  have tallied := (h.counts x.gate x.ruling.decision.key on).resolve_left running
  have next : x.ruling.decision.count =
      min (tally limiter p o before (place limiter v.gate) (v.key limiter p o) + 1) Word.top := by
    rw [count, tallied, gate, key]
    omega
  refine ⟨v, visit, gate, key.symm, ?_⟩
  rw [← gate] at source limit
  calc x.ruling.decision
    _ = ⟨x.ruling.decision.key, x.ruling.decision.count, x.ruling.decision.limit, x.ruling.decision.source⟩ := rfl
    _ = verdict limiter p o before v := by
      rw [key, next, limit, source]
      rfl

theorem step_steady (h : Tallied limiter p o before f) (ok : f.Orderly p o e) (i : Nat) :
    Gate.Steady (limiter i) ((f.step e).gates i) := by
  by_cases hi : i = e.gate
  · subst hi
    rw [step_gate]
    cases ha : f.acts e.gate e with
    | none => exact h.steady e.gate
    | some d => exact Gate.step_steady (h.steady e.gate) (h.inv.numbered e.gate) (ok.answered d ha)
  · rw [gate_still hi]
    exact h.steady i

/-- The tallies go on if one more is counted wherever a charge is. -/
theorem Tallied.next (h : Tallied limiter p o before f) (ok : f.Orderly p o e) {after : List Visit}
    (grows : ∀ i k, k.Of p o → tally limiter p o after (place limiter i) k = tally limiter p o before (place limiter i) k +
      if ∃ x, f.charge e = some x ∧ place limiter x.gate = place limiter i ∧ x.ruling.decision.key = k then 1 else 0) :
    Tallied limiter p o after (f.step e) := by
  refine ⟨step_inv h.inv e, fun i => ?_, step_steady h ok, fun i k hk => ?_⟩
  · rw [step_gate]
    exact Gate.run_dated (h.dated i) _
  · rcases h.counts i k hk with ended | tallied
    · exact Or.inl (ended.stays ok.onward)
    · rcases step_count h e i k with ended | count
      · exact Or.inl (ended.stays ok.onward)
      · right
        rw [count, grows i k hk, tallied]
        split <;> omega

/-- What a step does to the tallies, and to the decisions. -/
theorem step_tallied (h : Tallied limiter p o before f) (ok : f.Orderly p o e) :
    Tallied limiter p o (before ++ ((f.levy p o e).bind f.visit?).toList) (f.step e) ∧
      (f.levy p o e).map (·.ruling.decision) = ((f.levy p o e).bind f.visit?).map (verdict limiter p o before) := by
  cases hx : f.levy p o e with
  | none =>
    refine ⟨h.next ok fun i k hk => ?_, rfl⟩
    rw [if_neg, Option.bind_none, Option.toList_none, List.append_nil, Nat.add_zero]
    intro w
    obtain ⟨x, charged, -, key⟩ := w
    have levied : f.levy p o e = some x := Option.filter_eq_some_iff.mpr ⟨charged, decide_eq_true (key ▸ hk)⟩
    rw [hx] at levied
    cases levied
  | some x =>
    obtain ⟨v, visit, gate, key, decision⟩ := charge_verdict h ok hx
    have charged := (Option.filter_eq_some_iff.mp hx).1
    rw [Option.bind_some, visit, Option.map_some, Option.map_some, decision]
    refine ⟨h.next ok fun i k hk => ?_, rfl⟩
    rw [Option.toList_some, tally_append, gate, key]
    simp only [charged, Option.some.injEq, exists_eq_left']

theorem levies_cons (f : Fleet) (p : AccountId) (o : Operation) (e : Event) (es : List Event) :
    f.levies p o (e :: es) = (f.levy p o e).toList ++ (f.step e).levies p o es := by
  simp only [levies, levy, charges, List.filter_append]
  cases f.charge e with
  | none => rfl
  | some x => by_cases on : Charge.isOn p o x = true <;> simp [Option.filter, on]

/-- The induction is on the run; `before` are the visits so far. -/
theorem decisions_eq (h : Tallied limiter p o before f) {es : List Event} (regular : f.Regular p o es) :
    f.decisions p o es = verdicts limiter p o before (f.visits p o es) := by
  induction es generalizing f before with
  | nil => rfl
  | cons e es ih =>
    obtain ⟨next, decided⟩ := step_tallied h regular.1
    have rest := ih next regular.2
    have all : f.decisions p o (e :: es) =
        ((f.levy p o e).map (·.ruling.decision)).toList ++ (f.step e).decisions p o es := by
      unfold decisions
      rw [levies_cons, List.map_append, Option.toList_map]
    rw [all, decided, rest, visits]
    cases (f.levy p o e).bind f.visit? with
    | none =>
      rw [Option.toList_none, List.append_nil]
      rfl
    | some v => rfl

/-! ## Answers -/

variable {t t' : Nat → Instant} {cache cache' : Nat → Cache} {pinger pinger' : Nat → Option Span} {es es' : List Event}
  {c : CallId}

/-- What is charged to a call that comes to spend is on the budget that it names. -/
theorem spends_own {pre : List Gate.Event} {x : Ruling}
    (came : Gate.Came ((start t cache limiter pinger).gates i) ((start t cache limiter pinger).trace i es) pre x.call
      (.spend p o))
    (hx : ⟨i, x⟩ ∈ (start t cache limiter pinger).charges es) (unnamed : x.who = none) : x.decision.key.Of p o := by
  obtain ⟨before, e, within, charged⟩ := mem_charges hx
  obtain ⟨before', r, a, came', owns, key⟩ := charge_owned charged
  rw [show Charge.ruling ⟨i, x⟩ = x from rfl, unnamed] at owns
  obtain ⟨q, rfl, account⟩ := owns
  have same := (came.unique (came'.mono (trace_mono ((List.prefix_append before [e]).trans within)))).2
  cases same
  have key : x.decision.key = a.key := key
  rw [key]
  exact ⟨account, rfl⟩

/-- A call that comes to spend on the budget is answered the decision with which it was charged. -/
theorem spent_levied {pre : List Gate.Event} {D : Decision}
    (came : Gate.Came ((start t cache limiter pinger).gates i) ((start t cache limiter pinger).trace i es) pre c (.spend p o))
    (h : (c, .decision (.ok D)) ∈ (((start t cache limiter pinger).run es).gates i).answers) :
    ∃ x, x.ruling.who = none ∧ x ∈ (start t cache limiter pinger).levies p o es ∧ x.to = (i, c) ∧
      x.ruling.decision = D := by
  have told : (c, D) ∈ (((start t cache limiter pinger).run es).gates i).told :=
    List.mem_filterMap.mpr ⟨_, h, rfl⟩
  rw [run_gate, Gate.run_told] at told
  obtain ⟨x, ruled, told⟩ := List.mem_filterMap.mp ((List.mem_append.mp told).resolve_left List.not_mem_nil)
  unfold Ruling.told? at told
  split at told
  · rename_i unnamed
    cases told
    obtain ⟨mid, d, within, made⟩ := Gate.mem_rulings ruled
    have charged := ruled_charged (start_inv t cache limiter pinger) rfl within made
    refine ⟨⟨i, x⟩, unnamed, List.mem_filter.mpr ⟨charged, decide_eq_true ?_⟩, rfl, rfl⟩
    exact spends_own came charged unnamed
  · cases told

/-- What is charged is a visit, and stands among the visits where it stands among the charges. -/
theorem levy_visit {f : Fleet} {n : Nat} (h : (f.levies p o es)[n]? = some x) :
    ∃ pre e v, pre ++ [e] <+: es ∧ (f.run pre).charge e = some x ∧ (f.run pre).visit? x = some v ∧
      (f.visits p o es)[n]? = some v := by
  induction es generalizing f n with
  | nil => cases h
  | cons e es ih =>
    rw [levies_cons] at h
    have later : ∀ {m : Nat}, ((f.step e).levies p o es)[m]? = some x → ∃ pre d v, pre ++ [d] <+: e :: es ∧
        (f.run pre).charge d = some x ∧ (f.run pre).visit? x = some v ∧ ((f.step e).visits p o es)[m]? = some v := by
      intro m hm
      obtain ⟨pre, d, v, within, rest⟩ := ih hm
      exact ⟨e :: pre, d, v, (List.prefix_cons_inj e).mpr within, rest⟩
    cases hz : f.levy p o e with
    | none =>
      rw [hz] at h
      simp only [visits, hz]
      exact later h
    | some z =>
      have charged := (Option.filter_eq_some_iff.mp hz).1
      obtain ⟨y, a, hy, carried, -⟩ := charge_carried charged
      have visit : f.visit? z = some ⟨z.gate, a.began⟩ := by
        simp only [visit?, hy, carried, Option.bind_some, Option.map_some]
      rw [hz] at h
      simp only [visits, hz, Option.bind_some, visit]
      cases n with
      | zero =>
        cases h
        exact ⟨[], e, _, List.prefix_append [e] es, charged, visit, rfl⟩
      | succ m => exact later h

/-- A call that comes to spend on the budget, and is answered a decision, is one of the visits:
at its instance, and at the instant at which it comes. -/
theorem spent_visit {pre : List Gate.Event} {D : Decision}
    (came : Gate.Came ((start t cache limiter pinger).gates i) ((start t cache limiter pinger).trace i es) pre c (.spend p o))
    (h : (c, .decision (.ok D)) ∈ (((start t cache limiter pinger).run es).gates i).answers) :
    ∃ (n : Nat) (x : Charge), ((start t cache limiter pinger).levies p o es)[n]? = some x ∧ x.ruling.decision = D ∧
      ((start t cache limiter pinger).visits p o es)[n]? =
        some ⟨i, (((start t cache limiter pinger).gates i).run pre).now⟩ := by
  obtain ⟨x, unnamed, levied, toward, decided⟩ := spent_levied came h
  obtain ⟨n, stands⟩ := List.mem_iff_getElem?.mp levied
  obtain ⟨before, e, v, within, charged, visit, visited⟩ := levy_visit stands
  obtain ⟨y, a, hy, carried, -⟩ := charge_carried charged
  obtain ⟨rfl, rfl⟩ := Prod.ext_iff.mp toward
  have instant : v = ⟨x.gate, a.began⟩ := by
    simp only [visit?, hy, carried, Option.bind_some, Option.map_some, Option.some.injEq] at visit
    exact visit.symm
  rw [run_gate] at hy
  rw [unnamed] at carried
  obtain ⟨pre', q, o', came', began⟩ := Gate.began_on_arrival rfl hy carried
  have earlier : (start t cache limiter pinger).trace x.gate before <+: (start t cache limiter pinger).trace x.gate es :=
    trace_mono ((List.prefix_append before [e]).trans within)
  obtain ⟨rfl, -⟩ := came.unique (came'.mono earlier)
  refine ⟨n, x, stands, decided, ?_⟩
  rw [visited, instant, began]
  rfl

/-- Take two runs of any instances that start with the same limiters, nothing being known against
the shared store. The clocks do not go back, the store fails no attempt, and what is counted
without it is counted before its window ends. If the budget of `p` for `o` has the same visits
in both, it gets the same decisions, whatever else is asked of the instances and whenever they
are swept. A call that comes to spend on it and is answered a decision is one of the visits,
at the instant at which it comes, and the other run has that decision there. -/
theorem isolation (t t' : Nat → Instant) (cache cache' : Nat → Cache) (limiter : Nat → Limiter)
    (pinger pinger' : Nat → Option Span) (es es' : List Event) (p : AccountId) (o : Operation)
    (fresh : ∀ i, (limiter i).shared = true → (limiter i).health.mark = Health.well)
    (regular : (start t cache limiter pinger).Regular p o es)
    (regular' : (start t' cache' limiter pinger').Regular p o es')
    (same : (start t cache limiter pinger).visits p o es = (start t' cache' limiter pinger').visits p o es') :
    let f := start t cache limiter pinger
    let f' := start t' cache' limiter pinger'
    f.decisions p o es = f'.decisions p o es' ∧
      ∀ i pre c D, Gate.Came (f.gates i) (f.trace i es) pre c (.spend p o) →
        (c, .decision (.ok D)) ∈ ((f.run es).gates i).answers →
        ∃ n : Nat, (f.visits p o es)[n]? = some ⟨i, ((f.gates i).run pre).now⟩ ∧ (f'.decisions p o es')[n]? = some D := by
  intro f f'
  have equal : f.decisions p o es = f'.decisions p o es' := by
    rw [decisions_eq (start_tallied fresh t cache pinger) regular, same,
      decisions_eq (start_tallied fresh t' cache' pinger') regular']
  refine ⟨equal, fun i pre c D came answered => ?_⟩
  obtain ⟨n, x, levied, rfl, visit⟩ := spent_visit came answered
  refine ⟨n, visit, ?_⟩
  rw [← equal, decisions, List.getElem?_map, levied]
  rfl

/-! ## Neighbours -/

def apart (i : Nat) : Limiter :=
  if i = 0 then Limiter.sharing (Policy.standard.set ⟨.create, 1, Span.ofSeconds 1⟩) StoreSettings.standard
  else Limiter.localOnly (Policy.standard.set ⟨.create, 1, Span.ofSeconds 1⟩)

def twoPlaces : Fleet := start (fun _ => 0) (fun _ => ⟨Span.zero, Span.ofMillis 500, Table.empty⟩) apart fun _ => none

/-- An account whose text looks like the end of a counter's name. -/
def tenant : AccountId := ⟨"acct:1000ms:0"⟩

def alone : List Event :=
  [.own 0 (.arrived (.spend tenant .create)), .counts 0 0, .delivers 0 0, .own 1 (.arrived (.spend tenant .create)),
    .own 1 (.countedLocally 0), .own 1 (.advanced 400), .own 1 (.arrived (.spend tenant .create)),
    .own 1 (.countedLocally 1)]

/-- So it does here, with others around and sweeps in between. -/
def crowded : List Event :=
  [.own 0 (.arrived (.spend ⟨"acct"⟩ .create)), .own 0 (.arrived (.spend tenant .create)), .counts 0 1, .counts 0 0,
    .own 1 (.arrived (.spend tenant .read)), .own 1 (.countedLocally 0), .own 1 (.arrived (.spend tenant .create)),
    .own 1 (.countedLocally 1), .delivers 0 0, .own 1 (.advanced 400), .own 1 (.swept .windows),
    .own 1 (.arrived (.spend tenant .create)), .own 1 (.countedLocally 2), .delivers 0 1]

/-- The decisions are the same. -/
theorem crowded_isolated :
    (∀ i, (apart i).shared = true → (apart i).health.mark = Health.well) ∧ twoPlaces.Regular tenant .create alone ∧
      twoPlaces.Regular tenant .create crowded ∧
      twoPlaces.visits tenant .create alone = twoPlaces.visits tenant .create crowded ∧
      twoPlaces.visits tenant .create alone = [⟨0, 0⟩, ⟨1, 0⟩, ⟨1, 400⟩] ∧
      twoPlaces.decisions tenant .create alone = twoPlaces.decisions tenant .create crowded := by
  have fresh : ∀ i, (apart i).shared = true → (apart i).health.mark = Health.well := by
    intro i hs
    by_cases hi : i = 0
    · rw [hi]
      rfl
    · unfold apart at hs
      rw [if_neg hi] at hs
      cases hs
  have regular : twoPlaces.Regular tenant .create alone := by decide +kernel
  have regular' : twoPlaces.Regular tenant .create crowded := by decide +kernel
  have same : twoPlaces.visits tenant .create alone = twoPlaces.visits tenant .create crowded := by decide +kernel
  exact ⟨fresh, regular, regular', same, by decide +kernel,
    (isolation _ _ _ _ apart _ _ alone crowded tenant .create fresh regular regular' same).1⟩

end Fleet

end Gateway
