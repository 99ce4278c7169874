/-
  Gateway.Proofs.Settings — what the rules of accepted settings make the instance do.

  A rule needs a window of a millisecond at least, and that is all that is asked of a
  window when settings are read. A key counts the milliseconds of its window in a signed
  word. So a rule may have a window that no key has: one of more milliseconds than the
  word holds, or one that is no whole number of them.

  Proved:
  (1) The rule in force for a class is the one that the two variables of this class give
      (`read_rule`), and its window is a whole number of milliseconds (`read_whole`).
  (2) An accepted rule has keys exactly if its milliseconds fit in a signed word, and they
      have the rule's window exactly if that is a whole number of milliseconds
      (`key_of_make`, `window_of_make`).
  (3) In any run of an instance with accepted settings, an attempt that begins is refused
      for its window exactly if that does not fit (`enforced_iff`).
  Trace: a window of 2^63 ms is accepted, and every attempt of its class is refused
  (`an_accepted_window_has_no_key`).
-/

import Gateway.Config
import Gateway.Proofs.Provenance
import Gateway.Proofs.Ventures

namespace Gateway

/-! ## (1) Settings -/

namespace Rule

def Fits (r : Rule) : Prop := (r.window.millis : Int) ≤ Word.greatest

def Whole (r : Rule) : Prop := r.window = Span.ofMillis r.window.millis

instance (r : Rule) : Decidable r.Fits := inferInstanceAs (Decidable (_ ≤ _))

instance (r : Rule) : Decidable r.Whole := inferInstanceAs (Decidable (_ = _))

theorem make_eq_ok {o : Operation} {limit : Nat} {w : Span} {r : Rule} :
    make o limit w = .ok r ↔ 0 < limit ∧ 0 < w.millis ∧ r = ⟨o, limit, w⟩ := by
  unfold make
  by_cases none : limit = 0
  · rw [if_pos none]
    exact iff_of_false (fun h => by cases h) fun h => by omega
  · rw [if_neg none]
    by_cases narrow : w.millis = 0
    · rw [if_pos narrow]
      exact iff_of_false (fun h => by cases h) fun h => by omega
    · rw [if_neg narrow, Except.ok.injEq]
      constructor
      · intro h
        exact ⟨by omega, by omega, h.symm⟩
      · intro h
        exact h.2.2.symm

end Rule

namespace Config

variable {vars : Variables} {c : Config} {p : Policy} {o : Operation} {r : Rule}

/-- The rule of a class says what its two variables say. -/
theorem rule_eq_ok : rule vars p o = .ok r ↔ ∃ limit n,
    number vars (limitName o) Word.halfTop (p.rule o).limit = .ok limit ∧
      number vars (windowName o) Word.top (p.rule o).window.millisWord = .ok n ∧
      Rule.make o limit (Span.ofMillis n) = .ok r := by
  simp only [rule, bind_eq_ok, mapError_eq_ok]
  constructor
  · intro w
    obtain ⟨limit, hl, n, hn, hr⟩ := w
    exact ⟨limit, n, hl, hn, hr⟩
  · intro w
    obtain ⟨limit, n, hl, hn, hr⟩ := w
    exact ⟨limit, hl, n, hn, hr⟩

theorem rule_operation (h : rule vars p o = .ok r) : r.operation = o := by
  obtain ⟨limit, n, -, -, made⟩ := rule_eq_ok.mp h
  rw [(Rule.make_eq_ok.mp made).2.2]

/-- Of the policy so far, only the rule of the class itself matters. -/
theorem rule_congr {q : Policy} (h : p.rule o = q.rule o) : rule vars p o = rule vars q o := by
  unfold rule
  rw [h]

theorem set_other (h : rule vars p o = .ok r) {x : Operation} (other : x ≠ o) : (p.set r).rule x = p.rule x := by
  rw [Policy.set, rule_operation h]
  exact if_neg other

theorem set_self (h : rule vars p o = .ok r) : (p.set r).rule o = r := by
  rw [Policy.set, rule_operation h]
  exact if_pos rfl

/-- Each class that is read has its rule in force, and the others keep theirs. -/
theorem rules_in_force {l : List Operation} (once : l.Nodup) {p q : Policy}
    (h : l.foldlM (fun p o => (rule vars p o).map p.set) p = .ok q) :
    (∀ o ∈ l, rule vars p o = .ok (q.rule o)) ∧ ∀ o, o ∉ l → q.rule o = p.rule o := by
  induction l generalizing p with
  | nil =>
    cases h
    exact ⟨fun _ ho => (nomatch ho), fun _ _ => rfl⟩
  | cons o l ih =>
    obtain ⟨fresh, rest⟩ := List.nodup_cons.mp once
    rw [List.foldlM_cons, bind_eq_ok] at h
    obtain ⟨p', hp, h⟩ := h
    obtain ⟨r, hr, rfl⟩ := map_eq_ok.mp hp
    obtain ⟨read, kept⟩ := ih rest h
    refine ⟨fun x hx => ?_, fun x hx => ?_⟩
    · rcases List.mem_cons.mp hx with rfl | hx
      · rw [hr, kept x fresh, set_self hr]
      · have other : x ≠ o := fun same => fresh (same ▸ hx)
        rw [← rule_congr (set_other hr other)]
        exact read x hx
    · obtain ⟨other, out⟩ := not_or.mp (List.mem_cons.not.mp hx)
      rw [kept x out, set_other hr other]

/-- The rule in force for a class is the one that is read for it. -/
theorem read_rule (h : read vars = .ok c) (o : Operation) : rule vars Policy.standard o = .ok (c.policy.rule o) := by
  simp only [read, bind_eq_ok] at h
  obtain ⟨_, -, _, -, _, -, _, -, _, -, _, -, _, -, policy, hp, _, -, h⟩ := h
  cases h
  exact (rules_in_force (by decide) hp).1 o (by cases o <;> decide)

/-- Windows are set in milliseconds. -/
theorem read_whole (h : read vars = .ok c) (o : Operation) : (c.policy.rule o).Whole := by
  obtain ⟨limit, n, -, -, made⟩ := rule_eq_ok.mp (read_rule h o)
  rw [Rule.Whole, (Rule.make_eq_ok.mp made).2.2, Span.millis_ofMillis]

end Config

/-! ## (2) Keys -/

section

variable {o : Operation} {limit : Nat} {w : Span} {r : Rule}

theorem key_of_make (h : Rule.make o limit w = .ok r) (p : AccountId) (q : Operation) (now : Instant) :
    (∃ k, WindowKey.containing p q r.window now = .ok k) ↔ r.Fits := by
  obtain ⟨-, wide, rfl⟩ := Rule.make_eq_ok.mp h
  constructor
  · intro w
    obtain ⟨k, hk⟩ := w
    exact (WindowKey.containing_ok.mp hk).2.1
  · intro fits
    exact ⟨_, WindowKey.containing_ok.mpr ⟨wide, fits, rfl⟩⟩

theorem window_of_make {p : AccountId} {q : Operation} {now : Instant} {k : WindowKey}
    (h : WindowKey.containing p q r.window now = .ok k) : k.window = r.window ↔ r.Whole := by
  rw [(WindowKey.containing_ok.mp h).2.2]
  exact eq_comm

/-- A rule whose window does not fit has no key at any instant. -/
theorem tooWide_of_not_fits (wide : ¬ r.Fits) (p : AccountId) (q : Operation) (now : Instant) :
    WindowKey.containing p q r.window now = .error .tooWide := by
  rw [WindowKey.containing, if_pos (Int.not_le.mp wide)]

end

/-! ## (3) Attempts -/

namespace Gate

def refused (g : Gate) (e : Event) : Option Failure :=
  (g.venture e).bind fun v => match g.limiter.begin v.account v.operation g.now with
    | .error f => some f
    | .ok _ => none

theorem begin_refused {l : Limiter} {p : AccountId} {o : Operation} {now : Instant} {x : WindowKey.Fault}
    (h : WindowKey.containing p o (l.policy.rule o).window now = .error x) : l.begin p o now = .error x.failure := by
  simp only [Limiter.begin, h]

theorem sent_of_error {g : Gate} {r : Request} {v : Venture} {f : Failure}
    (h : g.limiter.begin v.account v.operation g.now = .error f) : g.sent r v = .ends (refusal r v.who f) := by
  unfold sent
  rw [h]

/-- A call that comes to spend and is refused is answered so at once. -/
theorem spend_refused {g : Gate} {p : AccountId} {o : Operation} {f : Failure}
    (h : g.limiter.begin p o g.now = .error f) :
    (g.step (.arrived (.spend p o))).answers = g.answers ++ [(g.next, .decision (.error f))] := by
  have goes := spend_goes (g := { g with next := g.next + 1 }) (c := g.next) (r := .spend p o) ⟨none, p, o⟩
  have ends : ({ g with next := g.next + 1 } : Gate).sent (.spend p o) ⟨none, p, o⟩ = .ends (.decision (.error f)) :=
    sent_of_error h
  rw [ends] at goes
  exact goes.answers

/-- An attempt whose window has a key is sent to a counter, with that key. -/
theorem begin_sent {l : Limiter} {p : AccountId} {o : Operation} {now : Instant} {k : WindowKey}
    (h : WindowKey.containing p o (l.policy.rule o).window now = .ok k) :
    ∃ a s l', l.begin p o now = .ok (a, s, l') ∧ a.key = k := by
  simp only [Limiter.begin, h]
  cases l.shared with
  | true => exact ⟨_, _, _, rfl, rfl⟩
  | false => exact ⟨_, _, _, rfl, rfl⟩

theorem run_policy (g : Gate) (es : List Event) : (g.run es).limiter.policy = g.limiter.policy := by
  induction es generalizing g with
  | nil => rfl
  | cons e es ih => exact (ih (g.step e)).trans (step_policy g e)

variable {vars : Variables} {c : Config} {g : Gate} {e : Event} {v : Venture}

/-- With accepted settings, an attempt goes to a counter for the window of its rule, or is
refused since that window does not fit. -/
theorem venture_of_read (accepted : Config.read vars = .ok c) (policy : g.limiter.policy = c.policy)
    (begins : g.venture e = some v) :
    ((c.policy.rule v.operation).Fits ∧ g.refused e = none ∧
        ∃ a s l, g.begun e = some (a, s, l) ∧ a.key.window = (c.policy.rule v.operation).window) ∨
      (¬ (c.policy.rule v.operation).Fits ∧ g.refused e = some WindowKey.Fault.tooWide.failure ∧ g.begun e = none) := by
  obtain ⟨limit, n, -, -, made⟩ := Config.rule_eq_ok.mp (Config.read_rule accepted v.operation)
  by_cases fits : (c.policy.rule v.operation).Fits
  · obtain ⟨k, hk⟩ := (key_of_make made v.account v.operation g.now).mpr fits
    have window := (window_of_make hk).mpr (Config.read_whole accepted v.operation)
    rw [← policy] at hk
    obtain ⟨a, s, l, sent, key⟩ := begin_sent hk
    refine Or.inl ⟨fits, ?_, a, s, l, ?_, by rw [key]; exact window⟩
    · simp only [refused, begins, Option.bind_some, sent]
    · simp only [begun, begins, Option.bind_some]
      exact send_eq_some.mpr sent
  · have none := tooWide_of_not_fits fits v.account v.operation g.now
    rw [← policy] at none
    have stopped := begin_refused none
    refine Or.inr ⟨fits, ?_, ?_⟩
    · simp only [refused, begins, Option.bind_some, stopped]
    · simp only [begun, begins, Option.bind_some, send, stopped]
      rfl

/-- What the rules of accepted settings come to. An accepted rule has keys exactly if its
window fits, and they have its window exactly if that is whole; the windows of accepted
settings are. So in any run of an instance with these settings an attempt is refused as
invalid exactly if the window of its class does not fit, and goes to a counter for that
very window if it does. A call that comes to spend is answered the refusal. None is ever
refused exactly if the windows of all classes fit. -/
theorem enforced_iff (accepted : Config.read vars = .ok c) (limiter : Limiter) (policy : limiter.policy = c.policy)
    (t : Instant) (cache : Cache) (pinger : Option Span) :
    let run := (start t cache limiter pinger).run
    (∀ o limit w r, Rule.make o limit w = .ok r → ∀ p q now,
      ((∃ k, WindowKey.containing p q r.window now = .ok k) ↔ r.Fits) ∧
        ∀ k, WindowKey.containing p q r.window now = .ok k → (k.window = r.window ↔ r.Whole)) ∧
      (∀ o, (c.policy.rule o).Whole) ∧
      (∀ es e v, (run es).venture e = some v →
        (((run es).refused e).map Failure.kind = some .validation ↔ ¬ (c.policy.rule v.operation).Fits) ∧
        ((c.policy.rule v.operation).Fits → ∃ a s l, (run es).begun e = some (a, s, l) ∧
          a.key.window = (c.policy.rule v.operation).window)) ∧
      (∀ es p o, ¬ (c.policy.rule o).Fits → ((run es).step (.arrived (.spend p o))).answers =
        (run es).answers ++ [((run es).next, .decision (.error WindowKey.Fault.tooWide.failure))]) ∧
      ((∀ es e, (run es).refused e = none) ↔ ∀ o, (c.policy.rule o).Fits) := by
  intro run
  have same : ∀ es, (run es).limiter.policy = c.policy := fun es => (run_policy _ es).trans policy
  refine ⟨fun o limit w r made p q now => ⟨key_of_make made p q now, fun k hk => window_of_make hk⟩,
    Config.read_whole accepted, fun es e v begins => ?_, fun es p o wide => ?_, fun never o => ?_, fun all es e => ?_⟩
  · rcases venture_of_read accepted (same es) begins with ⟨fits, goes, sent⟩ | ⟨wide, stops, -⟩
    · exact ⟨by simp [goes, fits], fun _ => sent⟩
    · exact ⟨by simp [stops, wide, WindowKey.Fault.failure], fun fits => absurd fits wide⟩
  · have none := tooWide_of_not_fits wide p o (run es).now
    rw [← same es] at none
    exact spend_refused (begin_refused none)
  · -- a call that comes at once to spend shows it
    rcases venture_of_read accepted (same []) (e := .arrived (.spend ⟨"a"⟩ o)) rfl with ⟨fits, -⟩ | ⟨-, stops, -⟩
    · exact fits
    · rw [never] at stops
      cases stops
  · cases begins : (run es).venture e with
    | none => simp only [refused, begins, Option.bind_none]
    | some v =>
      rcases venture_of_read accepted (same es) begins with ⟨-, goes, -⟩ | ⟨wide, -⟩
      · exact goes
      · exact absurd (all v.operation) wide

/-! ## A window that is too wide -/

/-- Settings in which requests that create are counted by windows of 2^63 ms. -/
def wideWindow : Variables := fun name =>
  if name = "AUTH_SERVICE_URL" then some "http://auth"
  else if name = "RATE_LIMIT_CREATE_WINDOW_MS" then some "9223372036854775808"
  else none

theorem wideWindow_accepted : ∃ c, Config.read wideWindow = .ok c ∧
    c.policy.rule .create = ⟨.create, 20, Span.ofMillis 9223372036854775808⟩ := by
  have create : (Config.read wideWindow).toOption.map (fun c => c.policy.rule .create) =
      some ⟨.create, 20, Span.ofMillis 9223372036854775808⟩ := by decide +kernel
  obtain ⟨c, hc, hr⟩ := Option.map_eq_some_iff.mp create
  refine ⟨c, ?_, hr⟩
  cases h : Config.read wideWindow with
  | error f => rw [h] at hc; cases hc
  | ok d => rw [h] at hc; cases hc; rfl

/-- The settings are accepted, and not all windows fit: some attempt is refused. -/
theorem wideWindow_enforced_iff : ∃ c, Config.read wideWindow = .ok c ∧ (Limiter.localOnly c.policy).policy = c.policy ∧
    ¬ ∀ es e, ((start 0 ⟨Span.zero, Span.ofMillis 1, Table.empty⟩ (Limiter.localOnly c.policy) none).run es).refused e =
      none := by
  obtain ⟨c, accepted, rule⟩ := wideWindow_accepted
  refine ⟨c, accepted, rfl, fun never => ?_⟩
  have fits := (enforced_iff accepted (Limiter.localOnly c.policy) rfl 0
    ⟨Span.zero, Span.ofMillis 1, Table.empty⟩ none).2.2.2.2.mp never .create
  rw [rule] at fits
  exact absurd fits (by decide)

/-- A window of 2^63 ms is accepted, as a rule and as a setting, and no attempt of its class is
ever let through: it is refused as invalid. A window of a millisecond and a half is accepted
as a rule, and counted as one of a millisecond. -/
theorem an_accepted_window_has_no_key :
    (∃ c, Config.read wideWindow = .ok c ∧ Rule.make .create 20 (c.policy.rule .create).window = .ok (c.policy.rule .create) ∧
      ((start 0 ⟨Span.zero, Span.ofMillis 1, Table.empty⟩ (Limiter.localOnly c.policy) none).step
        (.arrived (.spend ⟨"acct"⟩ .create))).answers = [(0, .decision (.error ⟨.validation,
          "rate limit window is too large: number too large to fit in target type"⟩))]) ∧
      Rule.make .create 1 ⟨1500000⟩ = .ok ⟨.create, 1, ⟨1500000⟩⟩ ∧
      ∃ k, WindowKey.containing ⟨"acct"⟩ .create ⟨1500000⟩ 0 = .ok k ∧ k.window = Span.ofMillis 1 := by
  refine ⟨?_, rfl, _, rfl, rfl⟩
  obtain ⟨c, accepted, rule⟩ := wideWindow_accepted
  refine ⟨c, accepted, by rw [rule]; rfl, ?_⟩
  have wide : WindowKey.containing ⟨"acct"⟩ .create ((Limiter.localOnly c.policy).policy.rule .create).window 0 =
      .error .tooWide := by
    rw [show (Limiter.localOnly c.policy).policy = c.policy from rfl, rule]
    rfl
  exact spend_refused (begin_refused wide)

end Gate

end Gateway
