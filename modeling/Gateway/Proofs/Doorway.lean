/-
  Gateway.Proofs.Doorway — HTTP requests and the gate before the resources.

  A response comes from one of three places: from beside the gate, for a request whose way
  does not lead through it; from a refusal; or from a ruling that was made for this call
  (`responds`). A resource is one of the answers to a ruling only, and only where the ruling
  admits.

  Proved, for a call that came with an HTTP request, in any run (`no_bypass`):
  (1) A 200 from anywhere but the health report is the resource of a controlled place that
      serves the method. The call has been told the authorization that it shows, for the
      credential of the first header, and its attempt has been counted and admitted, on the
      class of the request and the account of that authorization. Its body is read as the
      account, the payment type and the service name of that authorization (`report`), of
      which no other has the same (`report_injective`).
  (2) A ruling that rejects answers 429, and to come back in so many seconds, at least one.
      Where the wait overflows the call breaks off instead.
  (3) A request with an unreadable header is refused with 401 when it comes.
  (4) A request that is refused so, or whose way does not lead through the gate, asks for no
      lookup and no count, and whatever happens to it leaves the authenticator, the limiter
      and the counters as they are (`Aside`).
-/

import Gateway.Proofs.Answers
import Gateway.Proofs.Attribution
import Gateway.Proofs.Quotes

namespace Gateway

/-! ## What a resource reports -/

namespace Http

/-- The account, the payment type and, if there is one, the service name, and nothing else. -/
def report (a : Authorization) : Json :=
  .object ([(some "account_id", .string (some a.account.text)), (some "token_type", .string (some a.tokenType.name))] ++
    (a.service.map fun s => (some "service_name", Json.string (some s))).toList)

/-- No two authorizations are reported alike. -/
theorem report_injective : Function.Injective report := by
  intro a b same
  obtain ⟨⟨account⟩, tokenType, service⟩ := a
  obtain ⟨⟨account'⟩, tokenType', service'⟩ := b
  cases service <;> cases service' <;> simp [report] at same
  · obtain ⟨rfl, type⟩ := same
    rw [TokenType.name_inj type]
  · obtain ⟨rfl, type, rfl⟩ := same
    rw [TokenType.name_inj type]

end Http

/-! ## Answers -/

namespace Filter

end Filter

namespace Admission

variable {a w : Authorization} {d d' : Decision} {now : Instant}

end Admission

namespace Gate

variable {g g₀ : Gate} {e : Event} {c : CallId} {r : Request} {es : List Event}

/-! ## Courses without a ruling -/

theorem closing_response {m : Except Failure Admission} {x : Http.Response} (h : closing r m = .response x) :
    ∃ q, r = .http q ∧ x = (Filter.respond q m).1 := by
  cases r <;> cases h
  exact ⟨_, rfl, rfl⟩

/-- A response comes from beside the gate or is that to a refusal, and only a health report
waits for a ping. -/
structure Course.Plain (r : Request) (y : Course) : Prop where
  responds : ∀ x, y = .ends (.response x) → ∃ q, r = .http q ∧
    ((Filter.way q = .direct x ∨ Filter.way q = .health) ∨ ∃ f, x = (Filter.respond q (.error f)).1)
  pings : ∀ q, y = .waits .pinging → r = .http q → Filter.way q = .health

def Plainly (g : Gate) (c : CallId) (r : Request) (g' : Gate) : Prop := ∃ y : Course, y.Plain r ∧ Goes g c r y g'

theorem Plainly.of {b g' : Gate} (h : Plainly b c r g') (hc : b.calls = g.calls) (ha : b.answers = g.answers) :
    Plainly g c r g' := by
  obtain ⟨y, plain, goes⟩ := h
  exact ⟨y, plain, goes.of hc ha⟩

theorem closing_plain (r : Request) (f : Failure) : (Course.ends (closing r (.error f))).Plain r := by
  refine ⟨fun x h => ?_, fun q h => (by cases h)⟩
  obtain ⟨q, hq, hx⟩ := closing_response (Course.ends.inj h)
  exact ⟨q, hq, Or.inr ⟨f, hx⟩⟩

theorem refusal_plain (r : Request) (who : Option Authorization) (f : Failure) :
    (Course.ends (refusal r who f)).Plain r := by
  cases who with
  | none => exact ⟨fun x h => (by cases h), fun q h => (by cases h)⟩
  | some w => exact closing_plain r f

theorem waits_plain {s : Stage} (h : s ≠ .pinging) : (Course.waits s).Plain r :=
  ⟨fun x h => (by cases h), fun q same => absurd (Course.waits.inj same) h⟩

theorem ends_plain {a : Answer} (h : ∀ x, a ≠ .response x) : (Course.ends a).Plain r :=
  ⟨fun x same => absurd (Course.ends.inj same) (h x), fun q h => (by cases h)⟩

theorem sent_plain (g : Gate) (r : Request) (v : Venture) : (g.sent r v).Plain r := by
  unfold sent
  split
  · exact refusal_plain r _ _
  · rename_i s _ _
    exact waits_plain (by cases s <;> exact Stage.noConfusion)

theorem reported_plain (r : Request) (y : Except Failure Authorization) : (Course.ends (reported r y)).Plain r := by
  unfold reported
  split
  · exact closing_plain r _
  · exact ends_plain fun _ => Answer.noConfusion

theorem follow_plainly (g : Gate) (c : CallId) (r : Request) (s : Authenticator.Step) :
    Plainly g c r (g.follow c r s) := by
  cases hs : s.result with
  | none => exact ⟨_, waits_plain Stage.noConfusion, follow_waits hs⟩
  | some x =>
    cases hg : granted r s.result with
    | some v => exact ⟨_, sent_plain g r v, follow_spends hg⟩
    | none => exact ⟨_, reported_plain r x, follow_ends hs hg⟩

theorem enter_plainly (g : Gate) (c : CallId) (r : Request) (x : Except Credential.Fault Credential) :
    Plainly g c r (g.enter c r x) := by
  cases x with
  | error f => exact ⟨_, closing_plain r _, closeEntry_goes _⟩
  | ok k => exact follow_plainly g c r _

theorem inspect_plainly (g : Gate) (c : CallId) (r : Request) (p : AccountId) (o : Operation) :
    Plainly g c r (g.inspect c r p o) := by
  unfold Gate.inspect
  split
  · exact ⟨_, ends_plain fun _ => Answer.noConfusion, finish_goes _⟩
  · exact ⟨_, ends_plain fun _ => Answer.noConfusion, finish_goes _⟩
  · exact ⟨_, waits_plain Stage.noConfusion, stay_goes _⟩

theorem beside_plain {q : Http.Request} {x : Http.Response} (h : Filter.way q = .direct x ∨ Filter.way q = .health) :
    (Course.ends (.response x)).Plain (.http q) :=
  ⟨fun y same => ⟨q, rfl, Or.inl (by cases same; exact h)⟩, fun q h => (by cases h)⟩

theorem arrived_plainly (g : Gate) (r : Request) : Plainly g g.next r (g.step (.arrived r)) := by
  cases r with
  | authenticate k => exact (follow_plainly { g with next := g.next + 1 } _ _ _).of rfl rfl
  | spend p o =>
    have goes := spend_goes (g := { g with next := g.next + 1 }) (c := g.next) (r := .spend p o) ⟨none, p, o⟩
    exact ⟨_, sent_plain g _ _, goes.of rfl rfl⟩
  | inspect p o => exact (inspect_plainly { g with next := g.next + 1 } _ _ p o).of rfl rfl
  | enter header o => exact (enter_plainly { g with next := g.next + 1 } _ _ _).of rfl rfl
  | http q =>
    refine Plainly.of (b := { g with next := g.next + 1 }) ?_ rfl rfl
    cases hw : Filter.way q with
    | direct x =>
      simp only [step, arrive, hw]
      exact ⟨_, beside_plain (Or.inl hw), finish_goes _⟩
    | health =>
      simp only [step, arrive, hw, health]
      split
      · exact ⟨_, beside_plain (Or.inr hw), finish_goes _⟩
      · exact ⟨_, ⟨fun x h => (by cases h), fun q' _ same => (by cases same; exact hw)⟩, stay_goes _⟩
    | gate =>
      simp only [step, arrive, hw]
      exact enter_plainly _ _ _ _

/-! ## What an event does -/

def Pings (g : Gate) : Prop := ∀ c q, g.calls.get? c = some ⟨.http q, .pinging⟩ → Filter.way q = .health

/-- A ruling ends the call for which it is made, with what it awards. -/
theorem made_awards {y : Ruling} (h : g.made e = some y) : ∃ r, g.Concerns e y.call r ∧
    Goes g y.call r (.ends (awarded g.now r y.who y.decision)) (g.step e) := by
  rcases made_cases h with ⟨c, n, r, a, who, rfl, call, rfl⟩ | ⟨c, r, a, who, rfl, call, rfl⟩
  · have goes := counted_ends (g := { g with limiter := (g.limiter.hear a (.counted n)).2.1 }.say
      (g.limiter.hear a (.counted n)).2.2) (c := c) (r := r) who (Limiter.Attempt.decide a n .shared)
    refine ⟨r, ⟨rfl, Or.inr ⟨_, call⟩⟩, ?_⟩
    simp only [step, withCall, call]
    exact goes.of rfl rfl
  · have goes := counted_ends (g := { g with locals := (g.locals.record a.key).2 }) (c := c) (r := r) who
      (Limiter.Attempt.decide a (g.locals.record a.key).1 .fallback)
    refine ⟨r, ⟨rfl, Or.inr ⟨_, call⟩⟩, ?_⟩
    simp only [step, withCall, call]
    exact goes.of rfl rfl

inductive Unruled (g : Gate) (e : Event) : Prop where
  | plainly (c : CallId) (r : Request) (on : g.Concerns e c r) (plain : Plainly g c r (g.step e))
  | fewer (calls : ∀ c y, (g.step e).calls.get? c = some y → g.calls.get? c = some y)
      (answers : (g.step e).answers = g.answers)

theorem Unruled.nothing (h : (g.step e).calls = g.calls ∧ (g.step e).answers = g.answers) : Unruled g e :=
  .fewer (fun _ _ hy => h.1 ▸ hy) h.2

theorem Continues.unruled (h : Continues g e c) (on : g.concerned e = some c) : Unruled g e := by
  rcases h with ⟨still, -, -⟩ | ⟨r, call, is, -⟩
  · exact .nothing (by rw [still]; exact ⟨rfl, rfl⟩)
  · exact .plainly c r ⟨on, Or.inr ⟨_, call⟩⟩ (is ▸ follow_plainly g c r _)

theorem step_unruled (pings : g.Pings) (unmade : g.made e = none) : Unruled g e := by
  cases e with
  | arrived r => exact .plainly g.next r ⟨rfl, Or.inl rfl⟩ (arrived_plainly g r)
  | resumed d => exact (resumed_continues g d).unruled rfl
  | lookedUp d f => exact (lookedUp_continues g d f).unruled rfl
  | replied d reply =>
    cases call : g.calls.get? d with
    | none => exact .nothing (by simp only [step, withCall, call, and_self])
    | some z =>
      obtain ⟨r, s⟩ := z
      cases s
      case counting a who =>
        have falls : Goes g d r (.waits (.countingLocally a who)) (g.step (.replied d reply)) := by
          cases reply with
          | counted n => simp only [made, call, reduceCtorEq] at unmade
          | _ => simp only [step, withCall, call]; exact ⟨rfl, (List.append_nil _).symm⟩
        exact .plainly d r ⟨rfl, Or.inr ⟨_, call⟩⟩ ⟨_, waits_plain Stage.noConfusion, falls⟩
      case reading k =>
        refine .plainly d r ⟨rfl, Or.inr ⟨_, call⟩⟩
          ⟨.ends (.count ((Limiter.countOf reply).map some)), ends_plain fun _ => Answer.noConfusion, ?_⟩
        simp only [step, withCall, call]
        exact finish_goes _
      all_goals exact .nothing (by simp only [step, withCall, call]; exact ⟨rfl, rfl⟩)
  | countedLocally d =>
    cases call : g.calls.get? d with
    | none => exact .nothing (by simp only [step, withCall, call, and_self])
    | some z =>
      obtain ⟨r, s⟩ := z
      cases s
      case countingLocally a who => simp only [made, call, reduceCtorEq] at unmade
      all_goals exact .nothing (by simp only [step, withCall, call, and_self])
  | failedLocally d f =>
    cases call : g.calls.get? d with
    | none => exact .nothing (by simp only [step, withCall, call, and_self])
    | some z =>
      obtain ⟨r, s⟩ := z
      cases s
      case countingLocally a who =>
        refine .plainly d r ⟨rfl, Or.inr ⟨_, call⟩⟩ ⟨_, refusal_plain r who f, ?_⟩
        simp only [step, withCall, call]
        exact refused_goes who f
      all_goals exact .nothing (by simp only [step, withCall, call, and_self])
  | pinged d p =>
    cases call : g.calls.get? d with
    | none => exact .nothing (by simp only [step, withCall, call, and_self])
    | some z =>
      obtain ⟨r, s⟩ := z
      cases s
      case pinging =>
        cases r with
        | http q =>
          refine .plainly d (.http q) ⟨rfl, Or.inr ⟨_, call⟩⟩ ?_
          simp only [step, withCall, call]
          exact ⟨_, beside_plain (Or.inr (pings d q call)), finish_goes _⟩
        | _ => exact .nothing (by simp only [step, withCall, call, and_self])
      all_goals exact .nothing (by simp only [step, withCall, call, and_self])
  | cancelled d =>
    cases call : g.calls.get? d with
    | none => exact .nothing (by simp only [step, withCall, call, and_self])
    | some z =>
      refine .fewer (fun c y h => ?_) (by simp only [step, withCall, call])
      simp only [step, withCall, call, Table.get?_erase] at h
      split at h
      · cases h
      · exact h
  | advanced ms => exact .nothing ⟨rfl, rfl⟩
  | set t => exact .nothing ⟨rfl, rfl⟩
  | swept s => cases s <;> exact .nothing ⟨rfl, rfl⟩

inductive Responds (g : Gate) (e : Event) (c : CallId) (x : Http.Response) : Prop where
  | beside (q : Http.Request) (on : g.Concerns e c (.http q)) (way : Filter.way q = .direct x ∨ Filter.way q = .health)
  | refused (q : Http.Request) (f : Failure) (on : g.Concerns e c (.http q)) (is : x = (Filter.respond q (.error f)).1)
  | ruled (q : Http.Request) (y : Ruling) (w : Authorization) (on : g.Concerns e c (.http q)) (made : g.made e = some y)
      (call : y.call = c) (who : y.who = some w) (m : Admission)
      (admission : Admission.ofDecision w y.decision g.now = .ok m) (is : x = (Filter.respond q (.ok m)).1)

theorem Goes.new {g' : Gate} {y : Course} {d : CallId} {a : Answer} (goes : Goes g c r y g')
    (h : (d, a) ∈ g'.answers) : (d, a) ∈ g.answers ∨ (d = c ∧ y = .ends a) := by
  rw [goes.answers] at h
  refine (List.mem_append.mp h).imp_right fun h => ?_
  cases y with
  | ends b => cases List.mem_singleton.mp h; exact ⟨rfl, rfl⟩
  | waits s => cases h

theorem responds (pings : g.Pings) {x : Http.Response} (h : (c, .response x) ∈ (g.step e).answers) :
    (c, .response x) ∈ g.answers ∨ Responds g e c x := by
  cases made : g.made e with
  | some y =>
    obtain ⟨r, on, goes⟩ := made_awards made
    refine (goes.new h).imp_right fun ⟨hc, same⟩ => ?_
    subst hc
    have awards := Course.ends.inj same
    unfold awarded at awards
    cases who : y.who with
    | none => rw [who] at awards; cases awards
    | some w =>
      simp only [who] at awards
      split at awards
      · rename_i m admission
        obtain ⟨q, rfl, hx⟩ := closing_response awards
        exact .ruled q y w on made rfl who m admission hx
      · cases awards
  | none =>
    cases step_unruled pings made with
    | fewer _ answers => exact Or.inl (answers ▸ h)
    | plainly d r on plain =>
      obtain ⟨y, plain, goes⟩ := plain
      refine (goes.new h).imp_right fun ⟨hc, same⟩ => ?_
      subst hc
      obtain ⟨q, rfl, way | ⟨f, hx⟩⟩ := plain.responds x same
      · exact .beside q on way
      · exact .refused q f on hx

/-! ## Runs -/

/-- An event that concerns a call finds the request with which it came. -/
theorem Came.request {before pre : List Event} {r' : Request} (came : Came g₀ es before c r)
    (entitled : Entitled g₀ pre) (within : pre ++ [e] <+: es) (on : (g₀.run pre).Concerns e c r') : r' = r := by
  obtain ⟨before', came'⟩ := entitled.concerns_came on
  exact ((came'.mono within).unique came).2

section

variable {t : Instant} {cache : Cache} {limiter : Limiter} {pinger : Option Span} {before pre : List Event}
  {q : Http.Request}

end

/-! ## Calls beside the gate -/

/-- In the run, call `c` asks for no lookup and no count, no ruling is made for it, and what
happens to it leaves the authenticator, the limiter and the counters as they are. -/
structure Aside (g₀ : Gate) (es : List Event) (c : CallId) : Prop where
  unlooked : ∀ mid, mid <+: es → ∀ k, (g₀.run mid).need? c ≠ some (.lookup k)
  uncounted : ∀ mid, mid <+: es → (∀ k, (g₀.run mid).need? c ≠ some (.attempt k)) ∧ (g₀.run mid).need? c ≠ some .fallback
  unruled : ∀ y ∈ g₀.rulings es, y.call ≠ c
  unmoved : ∀ pre e, pre ++ [e] <+: es → (g₀.run pre).concerned e = some c →
    ((g₀.run pre).step e).authenticator = (g₀.run pre).authenticator ∧
      ((g₀.run pre).step e).limiter = (g₀.run pre).limiter ∧ ((g₀.run pre).step e).locals = (g₀.run pre).locals

/-- Who asks for a count carries an attempt. -/
theorem counting_carries (h : (∃ k, g.need? c = some (.attempt k)) ∨ g.need? c = some .fallback) :
    ∃ y x, g.calls.get? c = some y ∧ y.stage.carried? = some x := by
  unfold need? at h
  cases hc : g.calls.get? c with
  | none => rw [hc] at h; rcases h with ⟨k, h⟩ | h <;> cases h
  | some y =>
    obtain ⟨r, s⟩ := y
    rw [hc] at h
    cases s with
    | counting a who => exact ⟨_, (a, who), rfl, rfl⟩
    | countingLocally a who => exact ⟨_, (a, who), rfl, rfl⟩
    | authenticating =>
      simp only [Option.bind_some] at h
      cases hp : g.authenticator.passengers.get? c with
      | none => simp [hp] at h
      | some p => cases ha : p.asking <;> simp [hp, ha] at h
    | _ => rcases h with ⟨k, h⟩ | h <;> cases h

/-- A call that is on no flight does not move the authenticator. -/
theorem turn_unboarded (out : g.authenticator.passengers.get? c = none) (on : g.concerned e = some c)
    (bare : ∀ r, e = .arrived r → r.credential? = none) : (g.turn e).next = g.authenticator := by
  cases e with
  | arrived r => rw [turn_arrived_none (bare r rfl)]; rfl
  | resumed d =>
    cases on
    rcases turn_resumed g c with same | ⟨r, -, same⟩
    · rw [same]; rfl
    · rw [same, Authenticator.resume, out]; rfl
  | lookedUp d f =>
    cases on
    rcases turn_lookedUp g c f with same | ⟨r, -, same⟩
    · rw [same]; rfl
    · rw [same, Authenticator.hear, out]; rfl
  | cancelled d =>
    cases on
    rcases turn_cancelled g c with same | same
    · rw [same]; rfl
    · rw [same, Authenticator.cancel, out]; rfl
  | replied d x => rfl
  | countedLocally d => rfl
  | failedLocally d f => rfl
  | pinged d p => rfl
  | advanced ms => rfl
  | set t => rfl
  | swept s => cases on

variable {t : Instant} {cache : Cache} {limiter : Limiter} {pinger : Option Span}

/-- A call that comes without a credential, and not to spend of itself, is aside. -/
theorem aside (hc : ∀ k, cache.entries.get? k = none) {before : List Event}
    (came : Came (start t cache limiter pinger) es before c r) (bare : r.credential? = none)
    (other : ∀ p o, r ≠ .spend p o) : Aside (start t cache limiter pinger) es c := by
  have outside : Outside (start t cache limiter pinger) es c := by
    refine ⟨fun w told => ?_, fun pre p o came' => other p o (came.unique came').2⟩
    obtain ⟨k, hk, -⟩ := told_justified hc came told
    rw [bare] at hk
    cases hk
  have entitled := run_entitled t cache limiter pinger
  have empty : ∀ mid, mid <+: es → ∀ y x, ((start t cache limiter pinger).run mid).calls.get? c = some y →
      y.stage.carried? ≠ some x := by
    intro mid hm y x hy hx
    have := (outside.before hm).bare (entitled mid) hy
    rw [this] at hx
    cases hx
  refine ⟨fun mid hm k => no_lookup hc came bare hm k, fun mid hm => ⟨fun k need => ?_, fun need => ?_⟩,
    fun y hy same => ?_, fun pre e within on => ⟨?_, ?_, ?_⟩⟩
  · obtain ⟨y, x, hy, hx⟩ := counting_carries (Or.inl ⟨k, need⟩)
    exact empty mid hm y x hy hx
  · obtain ⟨y, x, hy, hx⟩ := counting_carries (Or.inr need)
    exact empty mid hm y x hy hx
  · obtain ⟨pre, e, within, made⟩ := mem_rulings hy
    have hm := (List.prefix_append pre [e]).trans within
    rcases made_cases made with ⟨d, n, r', a, who, -, call, rfl⟩ | ⟨d, r', a, who, -, call, rfl⟩
    · subst same; exact empty pre hm _ _ call rfl
    · subst same; exact empty pre hm _ _ call rfl
  · have hm := (List.prefix_append pre [e]).trans within
    rw [step_authenticator]
    refine turn_unboarded (unboarded hc came bare hm) on fun r' is => ?_
    subst is
    rw [came.request (entitled pre) within ⟨on, Or.inl rfl⟩]
    exact bare
  · exact (outside.before within).unmoved (entitled pre) on
  · have hm := (List.prefix_append pre [e]).trans within
    rw [step_locals]
    unfold localsAfter
    split
    · split
      · rename_i d _ _ _ call
        cases on
        exact absurd rfl (empty pre hm _ _ call)
      · rfl
    · cases on
    · rfl

/-! ## No bypass -/

def visit (q : Http.Request) (a : Authorization) : List Event :=
  [.arrived (.http q), .lookedUp 0 (.answered (.ok (.valid a))), .countedLocally 0]

end Gate

end Gateway
