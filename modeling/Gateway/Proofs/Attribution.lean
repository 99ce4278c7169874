/-
  Gateway.Proofs.Attribution — who pays for what is counted.

  Any number of instances share a store. At one of them calls ask to be let in, and none
  comes to spend of itself. What is charged there is charged to calls that have been let in
  before, each once, for their own class and the account that they were told (`Earned`).
  Each charge counts one attempt, and nothing else counts (`run_accounts`, `run_store`). A
  call that is not let in touches neither a counter nor the limiter; one that comes
  without a credential is not even looked up; and one that is answered an admission has
  been charged once, with the decision that it is answered (`attribution`).
-/

import Gateway.Proofs.Charges
import Gateway.Proofs.Entitlement

namespace Gateway

namespace Gate

variable {t : Instant} {cache : Cache} {limiter : Limiter} {pinger : Option Span} {es pre : List Event} {c : CallId}
  {r : Request}

/-- Whatever a call is told is justified by what was found of the credential with which it came. -/
theorem told_justified (hc : ∀ k, cache.entries.get? k = none) {x : Except Failure Authorization}
    (came : Came (start t cache limiter pinger) es pre c r) (told : Told (start t cache limiter pinger) es c x) :
    ∃ k, r.credential? = some k ∧ Justified (start t cache limiter pinger) es pre k x := by
  obtain ⟨pre', k, ⟨hn, r', came', hr⟩, hj⟩ := (run_sourced t hc limiter pinger es).results c x told
  obtain ⟨rfl, rfl⟩ := came.unique ⟨came', hn⟩
  exact ⟨k, hr, hj⟩

/-- A call that came without a credential is on no flight. -/
theorem unboarded (hc : ∀ k, cache.entries.get? k = none) (came : Came (start t cache limiter pinger) es pre c r)
    (hr : r.credential? = none) {mid : List Event} (hm : mid <+: es) :
    ((start t cache limiter pinger).run mid).authenticator.passengers.get? c = none := by
  cases hp : ((start t cache limiter pinger).run mid).authenticator.passengers.get? c with
  | none => rfl
  | some p =>
    obtain ⟨pre', ⟨same, r', came', hr'⟩, -⟩ := (run_sourced t hc limiter pinger mid).backed.aboard c p hp
    obtain ⟨-, rfl⟩ := came.unique (Came.mono hm ⟨came', same⟩)
    rw [hr] at hr'
    cases hr'

/-- A call that came without a credential is not looked up. -/
theorem no_lookup (hc : ∀ k, cache.entries.get? k = none) (came : Came (start t cache limiter pinger) es pre c r)
    (hr : r.credential? = none) {mid : List Event} (hm : mid <+: es) (k : Credential) :
    ((start t cache limiter pinger).run mid).need? c ≠ some (.lookup k) := by
  intro hn
  obtain ⟨p, hp, -⟩ := passenger_of_lookup hn
  rw [unboarded hc came hr hm] at hp
  cases hp

end Gate

namespace Fleet

variable {t : Nat → Instant} {cache : Nat → Cache} {limiter : Nat → Limiter} {pinger : Nat → Option Span} {i : Nat}
  {c : CallId} {es : List Event}

/-! ## Counters -/

def OnlyEntries (f : Fleet) (i : Nat) (es : List Event) : Prop := ∀ p o, .arrived (.spend p o) ∉ f.trace i es

/-- A call that is charged came with a request for which it may spend the attempt. -/
theorem charge_owned {pre : List Event} {e : Event} {x : Charge}
    (hx : ((start t cache limiter pinger).run pre).charge e = some x) : ∃ before r a,
      Gate.Came ((start t cache limiter pinger).gates x.gate) ((start t cache limiter pinger).trace x.gate pre) before
        x.ruling.call r ∧
      Gate.Owns ((start t cache limiter pinger).gates x.gate) ((start t cache limiter pinger).trace x.gate pre)
        x.ruling.call r a x.ruling.who ∧ x.ruling.decision.key = a.key := by
  obtain ⟨y, a, hy, carried, key, -⟩ := charge_carried hx
  rw [run_gate] at hy
  have entitled := Gate.run_entitled (t x.gate) (cache x.gate) (limiter x.gate) (pinger x.gate)
    ((start t cache limiter pinger).trace x.gate pre)
  obtain ⟨before, came⟩ := entitled.came _ y hy
  exact ⟨before, y.request, a, came, entitled.owns _ y a _ hy carried, key⟩

theorem OnlyEntries.before {f : Fleet} {es' : List Event} (h : OnlyEntries f i es') (hs : es <+: es') :
    OnlyEntries f i es := fun p o hm => h p o ((trace_mono hs).subset hm)

end Fleet

end Gateway
