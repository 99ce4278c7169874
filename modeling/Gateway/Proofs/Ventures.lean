/-
  Gateway.Proofs.Ventures — where attempts begin, and what becomes of the calls that make them.

  An attempt begins when a request that spends arrives, or when the authenticator has an
  authorization for a request to be let in (`venture`). The limiter then sends it to the
  shared store or to the instance's own counters (`begun`). `Passage` says all that an event
  can do to a call and to what it carries, and `step_limiter` all that it can do to the
  limiter: it changes where an attempt begins and where the shared store replies to one.
-/

import Gateway.Proofs.Rulings

namespace Gateway

/-- Budget that a call begins to spend; `who` as in the call's stage. -/
structure Venture where
  who : Option Authorization
  account : AccountId
  operation : Operation
  deriving DecidableEq, Repr

def Source.stage (s : Source) (a : Attempt) (who : Option Authorization) : Stage :=
  match s with
  | .shared => .counting a who
  | .fallback => .countingLocally a who

def Stage.carried? : Stage → Option (Attempt × Option Authorization)
  | .counting a who => some (a, who)
  | .countingLocally a who => some (a, who)
  | _ => none

@[simp] theorem Source.carried?_stage (s : Source) (a : Attempt) (who : Option Authorization) :
    (s.stage a who).carried? = some (a, who) := by
  cases s <;> rfl

def Answer.admission? : Answer → Option Admission
  | .admission (.ok m) => some m
  | _ => none

namespace Gate

/-! ## Attempts that begin -/

/-- What a request begins to spend when the authenticator has this result for it. -/
def granted (r : Request) (x : Option (Except Failure Authorization)) : Option Venture :=
  match operation? r, x with
  | some o, some (.ok a) => some ⟨some a, a.account, o⟩
  | _, _ => none

@[simp] theorem granted_none (r : Request) : granted r none = none := by
  unfold granted
  cases operation? r <;> rfl

def venture (g : Gate) : Event → Option Venture
  | .arrived (.spend p o) => some ⟨none, p, o⟩
  | .arrived r => granted r (g.turn (.arrived r)).result
  | .resumed c => (g.calls.get? c).bind fun x => granted x.request (g.turn (.resumed c)).result
  | .lookedUp c f => (g.calls.get? c).bind fun x => granted x.request (g.turn (.lookedUp c f)).result
  | _ => none

def send (g : Gate) (v : Venture) : Option (Attempt × Source × Limiter) :=
  (g.limiter.begin v.account v.operation g.now).toOption

/-- The attempt that begins with an event, the counter it goes to, and the limiter then. -/
def begun (g : Gate) (e : Event) : Option (Attempt × Source × Limiter) := (g.venture e).bind g.send

/-- The attempt is that of the window around this instant. It goes to the shared store if there
is one and its health lets it. -/
theorem begin_spec {l l' : Limiter} {p : AccountId} {o : Operation} {now : Instant} {a : Attempt} {s : Source}
    (h : l.begin p o now = .ok (a, s, l')) :
    WindowKey.containing p o (l.policy.rule o).window now = .ok a.key ∧ a.limit = (l.policy.rule o).limit ∧
      a.began = now ∧ if l.shared
        then s = (if (l.health.probe now).1 then .shared else .fallback) ∧
          l' = { l with health := (l.health.probe now).2 }
        else s = .fallback ∧ l' = l := by
  simp only [Limiter.begin] at h
  cases hk : WindowKey.containing p o (l.policy.rule o).window now with
  | error f => rw [hk] at h; cases h
  | ok k =>
    rw [hk] at h
    cases hs : l.shared <;> simp only [hs, if_true, Bool.false_eq_true, if_false] at h <;> cases h
    · exact ⟨rfl, rfl, rfl, rfl, rfl⟩
    · exact ⟨rfl, rfl, rfl, rfl, rfl⟩

theorem send_eq_some {g : Gate} {v : Venture} {x : Attempt × Source × Limiter} :
    g.send v = some x ↔ g.limiter.begin v.account v.operation g.now = .ok x := by
  unfold send
  cases g.limiter.begin v.account v.operation g.now <;> simp [Except.toOption]

/-! ## The limiter -/

def heard (g : Gate) : Event → Limiter
  | .replied c reply => match g.calls.get? c with
    | some ⟨_, .counting a _⟩ => (g.limiter.hear a reply).2.1
    | _ => g.limiter
  | _ => g.limiter

def limiterAfter (g : Gate) (e : Event) : Limiter := ((g.begun e).map (·.2.2)).getD (g.heard e)

@[simp] theorem limiter_say (g : Gate) (l : List Log.Event) : (g.say l).limiter = g.limiter := rfl
@[simp] theorem limiter_stay (g : Gate) (c : CallId) (r : Request) (s : Stage) :
    (g.stay c r s).limiter = g.limiter := rfl
@[simp] theorem limiter_finish (g : Gate) (c : CallId) (x : Answer) : (g.finish c x).limiter = g.limiter := rfl

@[simp] theorem limiter_closeEntry (g : Gate) (c : CallId) (r : Request) (x : Except Failure Admission) :
    (g.closeEntry c r x).limiter = g.limiter := by
  cases r <;> rfl

@[simp] theorem limiter_decided (g : Gate) (c : CallId) (r : Request) (who : Option Authorization)
    (x : Except Failure Decision) : (g.decided c r who x).limiter = g.limiter := by
  unfold decided
  split
  · rfl
  · exact limiter_closeEntry _ _ _ _
  · split
    · exact limiter_closeEntry _ _ _ _
    · rfl

@[simp] theorem limiter_counted (g : Gate) (c : CallId) (r : Request) (who : Option Authorization)
    (d : Decision) : (g.counted c r who d).limiter = g.limiter := by
  simp [counted]

theorem limiter_spend (g : Gate) (c : CallId) (r : Request) (v : Venture) :
    (g.spend c r v.who v.account v.operation).limiter = ((g.send v).map (·.2.2)).getD g.limiter := by
  unfold spend send
  cases h : g.limiter.begin v.account v.operation g.now with
  | error f => simp [Except.toOption]
  | ok x =>
    obtain ⟨a, s, l⟩ := x
    cases s <;> simp [Except.toOption]

theorem limiter_follow (g : Gate) (c : CallId) (r : Request) (s : Authenticator.Step) :
    (g.follow c r s).limiter = (((granted r s.result).bind g.send).map (·.2.2)).getD g.limiter := by
  unfold follow authorized granted
  cases s.result with
  | none => cases operation? r <;> rfl
  | some x =>
    cases operation? r with
    | none => rfl
    | some o =>
      cases x with
      | error f => exact limiter_closeEntry _ _ _ _
      | ok a => exact limiter_spend _ c r ⟨some a, a.account, o⟩

/-! ## The course of a call -/

def closing (r : Request) (x : Except Failure Admission) : Answer :=
  match r with
  | .http h => .response (Filter.respond h x).1
  | _ => .admission x

def refusal (r : Request) (who : Option Authorization) (f : Failure) : Answer :=
  match who with
  | none => .decision (.error f)
  | some _ => closing r (.error f)

def reported (r : Request) (x : Except Failure Authorization) : Answer :=
  match operation? r, x with
  | some _, .error f => closing r (.error f)
  | _, x => .authorization x

/-- The answer to a call whose attempt has been counted. -/
def awarded (now : Instant) (r : Request) (who : Option Authorization) (d : Decision) : Answer :=
  match who with
  | none => .decision (.ok d)
  | some a =>
    match Admission.ofDecision a d now with
    | .ok m => closing r (.ok m)
    | .error .overflow => .broken

def sent (g : Gate) (r : Request) (v : Venture) : Course :=
  match g.limiter.begin v.account v.operation g.now with
  | .error f => .ends (refusal r v.who f)
  | .ok (a, s, _) => .waits (s.stage a v.who)

variable {g : Gate} {c : CallId} {r : Request} {e : Event}

/-- Parts other than the calls and the answers do not matter. -/
theorem Goes.of {g₁ g' : Gate} {x : Course} (h : Goes g₁ c r x g') (hc : g₁.calls = g.calls)
    (ha : g₁.answers = g.answers) : Goes g c r x g' :=
  ⟨hc ▸ h.calls, ha ▸ h.answers⟩

theorem closeEntry_goes (x : Except Failure Admission) : Goes g c r (.ends (closing r x)) (g.closeEntry c r x) := by
  cases r <;> exact ⟨rfl, rfl⟩

theorem refused_goes (who : Option Authorization) (f : Failure) :
    Goes g c r (.ends (refusal r who f)) (g.decided c r who (.error f)) := by
  cases who with
  | none => exact finish_goes _
  | some a => exact closeEntry_goes _

theorem spend_goes (v : Venture) : Goes g c r (g.sent r v) (g.spend c r v.who v.account v.operation) := by
  unfold spend sent
  cases g.limiter.begin v.account v.operation g.now with
  | error f => exact refused_goes v.who f
  | ok x =>
    obtain ⟨a, s, l⟩ := x
    cases s <;> exact ⟨rfl, (List.append_nil _).symm⟩

theorem follow_waits {s : Authenticator.Step} (h : s.result = none) :
    Goes g c r (.waits .authenticating) (g.follow c r s) := by
  unfold follow
  rw [h]
  exact ⟨rfl, (List.append_nil _).symm⟩

theorem follow_spends {s : Authenticator.Step} {v : Venture} (h : granted r s.result = some v) :
    Goes g c r (g.sent r v) (g.follow c r s) := by
  unfold granted at h
  split at h
  · rename_i o a ho hs
    cases h
    unfold follow authorized
    rw [hs, ho]
    have goes := spend_goes (g := { g with authenticator := s.next }.say s.events) (c := c) (r := r)
      ⟨some a, a.account, o⟩
    exact goes.of rfl rfl
  · cases h

/-- A result that is not spent on is answered. -/
theorem follow_ends {s : Authenticator.Step} {x : Except Failure Authorization} (hs : s.result = some x)
    (h : granted r s.result = none) : Goes g c r (.ends (reported r x)) (g.follow c r s) := by
  unfold granted at h
  unfold follow authorized reported
  rw [hs] at h ⊢
  cases ho : operation? r with
  | none => exact ⟨rfl, rfl⟩
  | some o =>
    cases x with
    | error f =>
      have goes := closeEntry_goes (g := { g with authenticator := s.next }.say s.events) (c := c) (r := r) (.error f)
      exact goes.of rfl rfl
    | ok a => rw [ho] at h; cases h

theorem counted_ends (who : Option Authorization) (d : Decision) :
    Goes g c r (.ends (awarded g.now r who d)) (g.counted c r who d) := by
  cases who with
  | none => exact ⟨rfl, rfl⟩
  | some w =>
    simp only [counted, decided, awarded, show (g.say [Limiter.decisionEvent d]).now = g.now from rfl]
    cases Admission.ofDecision w d g.now with
    | ok m => cases r <;> exact ⟨rfl, rfl⟩
    | error f => cases f; exact ⟨rfl, rfl⟩

theorem admission?_closing_error (r : Request) (f : Failure) : (closing r (.error f)).admission? = none := by
  cases r <;> rfl

theorem admission?_refusal (r : Request) (who : Option Authorization) (f : Failure) :
    (refusal r who f).admission? = none := by
  cases who with
  | none => rfl
  | some a => exact admission?_closing_error r f

theorem admission?_reported (r : Request) (x : Except Failure Authorization) : (reported r x).admission? = none := by
  unfold reported
  split
  · exact admission?_closing_error r _
  · rfl

theorem admission?_awarded {now : Instant} {who : Option Authorization} {d : Decision} {m : Admission}
    (h : (awarded now r who d).admission? = some m) : ∃ w, who = some w ∧ Admission.ofDecision w d now = .ok m := by
  cases who with
  | none => cases h
  | some w =>
    refine ⟨w, rfl, ?_⟩
    unfold awarded at h
    simp only at h
    split at h
    · rename_i m' hm
      rw [hm]
      cases r <;> cases h <;> rfl
    · cases h

/-! ## What an event does to a call -/

structure Concerns (g : Gate) (e : Event) (c : CallId) (r : Request) : Prop where
  on : g.concerned e = some c
  comes : e = .arrived r ∨ ∃ s, g.calls.get? c = some ⟨r, s⟩

structure Enters (g : Gate) (e : Event) (c : CallId) (r : Request) : Prop where
  on : g.concerned e = some c
  comes : e = .arrived r ∨ g.calls.get? c = some ⟨r, .authenticating⟩

theorem Enters.concerns (h : Enters g e c r) : Concerns g e c r := ⟨h.on, h.comes.imp_right fun call => ⟨_, call⟩⟩

/-- Why a request begins to spend: it asks for that alone, or is let in with this result. -/
def Warrants (r : Request) (x : Option (Except Failure Authorization)) (v : Venture) : Prop :=
  (∃ p o, r = .spend p o ∧ v = ⟨none, p, o⟩) ∨ granted r x = some v

inductive Passage (g : Gate) (e : Event) : Prop where
  | idle (calls : (g.step e).calls = g.calls) (answers : (g.step e).answers = g.answers)
      (mute : (g.turn e).result = none)
  | dropped (c : CallId) (is : e = .cancelled c) (calls : (g.step e).calls = g.calls.erase c)
      (answers : (g.step e).answers = g.answers)
  /-- A call waits for its flight, a reading or a ping. -/
  | waits (c : CallId) (r : Request) (s : Stage) (enters : g.Enters e c r) (bare : s.carried? = none)
      (mute : (g.turn e).result = none) (goes : Goes g c r (.waits s) (g.step e))
  /-- An attempt begins, and the call waits for its counter. -/
  | begins (c : CallId) (r : Request) (v : Venture) (a : Attempt) (s : Source) (l : Limiter)
      (enters : g.Enters e c r) (ventured : g.venture e = some v) (why : Warrants r (g.turn e).result v)
      (sent : g.send v = some (a, s, l)) (goes : Goes g c r (.waits (s.stage a v.who)) (g.step e))
  /-- The shared store fails an attempt. -/
  | falls (c : CallId) (r : Request) (a : Attempt) (who : Option Authorization) (reply : Limiter.Reply)
      (is : e = .replied c reply) (call : g.calls.get? c = some ⟨r, .counting a who⟩)
      (goes : Goes g c r (.waits (.countingLocally a who)) (g.step e))
  /-- Only a call whose attempt is counted is answered an admission, and a result of the
  authenticator that is not spent on is reported. -/
  | ends (c : CallId) (r : Request) (x : Answer) (on : g.Concerns e c r)
      (reports : ∀ y, (g.turn e).result = some y → granted r (some y) = none → x = reported r y)
      (admits : ∀ m, x.admission? = some m → ∃ y w, g.made e = some y ∧ y.call = c ∧ y.who = some w ∧
        Admission.ofDecision w y.decision g.now = .ok m)
      (goes : Goes g c r (.ends x) (g.step e))

/-- A call that is answered something else than an admission, and not on a result. -/
theorem Passage.plain {x : Answer} (on : g.Concerns e c r) (mute : (g.turn e).result = none)
    (h : x.admission? = none) (goes : Goes g c r (.ends x) (g.step e)) : Passage g e := by
  refine .ends c r x on (fun y hy => ?_) (fun m hm => ?_) goes
  · rw [mute] at hy
    cases hy
  · rw [h] at hm
    cases hm

/-- A call that begins to spend, with what it has been told or of itself. -/
theorem Passage.sent {v : Venture} (enters : g.Enters e c r) (hv : g.venture e = some v)
    (why : Warrants r (g.turn e).result v)
    (grants : ∀ y, (g.turn e).result = some y → granted r (some y) = some v)
    (goes : Goes g c r (g.sent r v) (g.step e)) : Passage g e := by
  unfold Gate.sent at goes
  cases h : g.limiter.begin v.account v.operation g.now with
  | error f =>
    rw [h] at goes
    refine .ends c r (refusal r v.who f) enters.concerns (fun y hy hn => ?_) (fun m hm => ?_) goes
    · rw [grants y hy] at hn
      cases hn
    · rw [admission?_refusal] at hm
      cases hm
  | ok x =>
    obtain ⟨a, s, l⟩ := x
    rw [h] at goes
    exact .begins c r v a s l enters hv why (send_eq_some.mpr h) goes

/-- Whatever the authenticator has for a call, the call goes on with it; `b` is the gate
with a number taken, if the call has just come. -/
theorem Passage.follow {b : Gate} (enters : g.Enters e c r) (hv : g.venture e = granted r (g.turn e).result)
    (hc : b.calls = g.calls) (ha : b.answers = g.answers) (hs : b.sent r = g.sent r)
    (is : g.step e = b.follow c r (g.turn e)) : Passage g e := by
  have moved : ∀ {x}, Goes b c r x (b.follow c r (g.turn e)) → Goes g c r x (g.step e) := by
    intro x goes
    rw [is]
    exact goes.of hc ha
  cases ht : (g.turn e).result with
  | none => exact .waits c r .authenticating enters rfl ht (moved (follow_waits ht))
  | some x =>
    cases hg : granted r (g.turn e).result with
    | some v =>
      have goes := moved (follow_spends hg)
      rw [hs] at goes
      exact .sent enters (hv.trans hg) (Or.inr hg) (fun y hy => by rw [← hy, hg]) goes
    | none =>
      refine .ends c r (reported r x) enters.concerns (fun y hy _ => ?_) (fun m hm => ?_) (moved (follow_ends ht hg))
      · rw [ht] at hy
        cases hy
        rfl
      · rw [admission?_reported] at hm
        cases hm

/-- A request that asks nothing of the authenticator. -/
theorem mute_arrived (h : r.credential? = none) : (g.turn (.arrived r)).result = none := by
  rw [turn_arrived_none h]
  rfl

theorem unventured_arrived (h : r.credential? = none) (hr : ∀ p o, r ≠ .spend p o) :
    g.venture (.arrived r) = none := by
  have mute := mute_arrived (g := g) h
  cases r with
  | spend p o => exact absurd rfl (hr p o)
  | _ => simp only [venture, mute, granted_none]

/-- A call that spends nothing: it is answered, or waits for a reading or a ping. -/
def Spares (g : Gate) (c : CallId) (r : Request) (g' : Gate) : Prop :=
  (∃ x : Answer, x.admission? = none ∧ Goes g c r (.ends x) g') ∨
    ∃ s : Stage, s.carried? = none ∧ Goes g c r (.waits s) g'

theorem inspect_spares (p : AccountId) (o : Operation) : Spares g c r (g.inspect c r p o) := by
  unfold Gate.inspect
  split
  · exact Or.inl ⟨_, rfl, finish_goes _⟩
  · exact Or.inl ⟨_, rfl, finish_goes _⟩
  · exact Or.inr ⟨_, rfl, stay_goes _⟩

theorem health_spares (m : String) : Spares g c r (g.health c r m) := by
  unfold health
  split
  · exact Or.inl ⟨_, rfl, finish_goes _⟩
  · exact Or.inr ⟨_, rfl, stay_goes _⟩

/-- A request that asks nothing of the authenticator and does not spend. -/
theorem Passage.spares {b : Gate} (h : r.credential? = none)
    (hc : b.calls = g.calls) (ha : b.answers = g.answers) (goes : Spares b g.next r (g.step (.arrived r))) :
    Passage g (.arrived r) := by
  have enters : g.Enters (.arrived r) g.next r := ⟨rfl, Or.inl rfl⟩
  rcases goes with ⟨x, hx, goes⟩ | ⟨s, hs, goes⟩
  · exact .plain enters.concerns (mute_arrived h) hx (goes.of hc ha)
  · exact .waits g.next r s enters hs (mute_arrived h) (goes.of hc ha)

/-- A request without a credential is refused; with one, the authenticator is asked. -/
theorem Passage.entry {x : Except Credential.Fault Credential} (hr : ∀ p o, r ≠ .spend p o)
    (hk : r.credential? = x.toOption) (is : g.step (.arrived r) = { g with next := g.next + 1 }.enter g.next r x) :
    Passage g (.arrived r) := by
  cases x with
  | error f =>
    refine .spares (b := { g with next := g.next + 1 }) hk rfl rfl (Or.inl ⟨_, admission?_closing_error r f.failure, ?_⟩)
    rw [is]
    exact closeEntry_goes _
  | ok k =>
    have asked : g.turn (.arrived r) = g.authenticator.ask g.next k g.now := turn_arrived hk
    refine .follow (b := { g with next := g.next + 1 }) ⟨rfl, Or.inl rfl⟩ ?_ rfl rfl rfl ?_
    · cases r with
      | spend p o => exact absurd rfl (hr p o)
      | _ => rfl
    · rw [is, asked]
      rfl

theorem arrived_passage (g : Gate) (r : Request) : Passage g (.arrived r) := by
  cases r with
  | authenticate k => exact .entry (x := .ok k) (fun _ _ => Request.noConfusion) rfl rfl
  | spend p o =>
    have goes := spend_goes (g := { g with next := g.next + 1 }) (c := g.next) (r := .spend p o) ⟨none, p, o⟩
    exact .sent ⟨rfl, Or.inl rfl⟩ rfl (Or.inl ⟨p, o, rfl, rfl⟩) (fun y hy => by cases hy) (goes.of rfl rfl)
  | inspect p o =>
    exact .spares (b := { g with next := g.next + 1 }) rfl rfl rfl (inspect_spares p o)
  | enter header o => exact .entry (fun _ _ => Request.noConfusion) rfl rfl
  | http q =>
    cases hw : Filter.way q with
    | direct x =>
      refine .spares (b := { g with next := g.next + 1 }) ?_ rfl rfl ?_
      · simp only [Request.credential?, hw]
      · simp only [step, arrive, hw]
        exact Or.inl ⟨_, rfl, finish_goes (.response x)⟩
    | health =>
      refine .spares (b := { g with next := g.next + 1 }) ?_ rfl rfl ?_
      · simp only [Request.credential?, hw]
      · simp only [step, arrive, hw]
        exact health_spares q.method
    | gate =>
      refine .entry (x := q.credential) (fun _ _ => Request.noConfusion) ?_ ?_
      · simp only [Request.credential?, hw]
      · simp only [step, arrive, hw]

/-- An event that does not apply. -/
theorem Passage.nothing (h : g.step e = g) (mute : (g.turn e).result = none) : Passage g e :=
  .idle (by rw [h]) (by rw [h]) mute

/-- A call that waits for its flight goes on with what the authenticator has for it, or the
event does not apply. -/
def Continues (g : Gate) (e : Event) (c : CallId) : Prop :=
  (g.step e = g ∧ (g.turn e).result = none ∧ g.venture e = none) ∨
    ∃ r, g.calls.get? c = some ⟨r, .authenticating⟩ ∧ g.step e = g.follow c r (g.turn e) ∧
      g.venture e = granted r (g.turn e).result

theorem resumed_continues (g : Gate) (c : CallId) : Continues g (.resumed c) c := by
  cases h : g.calls.get? c with
  | none => exact Or.inl ⟨by simp only [step, withCall, h], by simp only [turn, h]; rfl, by simp only [venture, h]; rfl⟩
  | some x =>
    obtain ⟨r, s⟩ := x
    have hv : g.venture (.resumed c) = granted r (g.turn (.resumed c)).result := by
      simp only [venture, h, Option.bind_some]
    cases s
    case authenticating => exact Or.inr ⟨r, h, by simp only [step, withCall, turn, h], hv⟩
    all_goals
      have mute : (g.turn (.resumed c)).result = none := by simp only [turn, h]; rfl
      exact Or.inl ⟨by simp only [step, withCall, h], mute, by rw [hv, mute, granted_none]⟩

theorem lookedUp_continues (g : Gate) (c : CallId) (f : Cache.Finding) : Continues g (.lookedUp c f) c := by
  cases h : g.calls.get? c with
  | none => exact Or.inl ⟨by simp only [step, withCall, h], by simp only [turn, h]; rfl, by simp only [venture, h]; rfl⟩
  | some x =>
    obtain ⟨r, s⟩ := x
    have hv : g.venture (.lookedUp c f) = granted r (g.turn (.lookedUp c f)).result := by
      simp only [venture, h, Option.bind_some]
    cases s
    case authenticating => exact Or.inr ⟨r, h, by simp only [step, withCall, turn, h], hv⟩
    all_goals
      have mute : (g.turn (.lookedUp c f)).result = none := by simp only [turn, h]; rfl
      exact Or.inl ⟨by simp only [step, withCall, h], mute, by rw [hv, mute, granted_none]⟩

theorem Continues.passage (h : Continues g e c) (on : g.concerned e = some c) : Passage g e := by
  rcases h with ⟨still, mute, -⟩ | ⟨r, hc, is, hv⟩
  · exact .nothing still mute
  · exact .follow (b := g) ⟨on, Or.inr hc⟩ hv rfl rfl rfl is

theorem replied_passage (g : Gate) (c : CallId) (reply : Limiter.Reply) : Passage g (.replied c reply) := by
  cases h : g.calls.get? c with
  | none => exact .nothing (by simp only [step, withCall, h]) rfl
  | some x =>
    obtain ⟨r, s⟩ := x
    have on : g.Concerns (.replied c reply) c r := ⟨rfl, Or.inr ⟨s, h⟩⟩
    cases s
    case counting a who =>
      cases reply with
      | counted n =>
        have goes := counted_ends (g := { g with limiter := (g.limiter.hear a (.counted n)).2.1 }.say
          (g.limiter.hear a (.counted n)).2.2) (c := c) (r := r) who (Limiter.Attempt.decide a n .shared)
        refine .ends c r (awarded g.now r who (Limiter.Attempt.decide a n .shared)) on (fun y hy => by cases hy)
          (fun m hm => ?_) ?_
        · obtain ⟨w, hw, hm⟩ := admission?_awarded hm
          exact ⟨⟨c, who, Limiter.Attempt.decide a n .shared⟩, w, by simp only [made, h], rfl, hw, hm⟩
        · simp only [step, withCall, h]
          exact goes.of rfl rfl
      | failed f =>
        refine .falls c r a who _ rfl h ?_
        simp only [step, withCall, h]
        exact ⟨rfl, (List.append_nil _).symm⟩
      | silent =>
        refine .falls c r a who _ rfl h ?_
        simp only [step, withCall, h]
        exact ⟨rfl, (List.append_nil _).symm⟩
    case reading k =>
      refine .plain (x := .count ((Limiter.countOf reply).map some)) on rfl rfl ?_
      simp only [step, withCall, h]
      exact finish_goes _
    all_goals exact .nothing (by simp only [step, withCall, h]; rfl) rfl

theorem countedLocally_passage (g : Gate) (c : CallId) : Passage g (.countedLocally c) := by
  cases h : g.calls.get? c with
  | none => exact .nothing (by simp only [step, withCall, h]) rfl
  | some x =>
    obtain ⟨r, s⟩ := x
    cases s
    case countingLocally a who =>
      have goes := counted_ends (g := { g with locals := (g.locals.record a.key).2 }) (c := c) (r := r) who
        (Limiter.Attempt.decide a (g.locals.record a.key).1 .fallback)
      refine .ends c r (awarded g.now r who (Limiter.Attempt.decide a (g.locals.record a.key).1 .fallback))
        ⟨rfl, Or.inr ⟨_, h⟩⟩ (fun y hy => by cases hy) (fun m hm => ?_) ?_
      · obtain ⟨w, hw, hm⟩ := admission?_awarded hm
        exact ⟨⟨c, who, Limiter.Attempt.decide a (g.locals.record a.key).1 .fallback⟩, w,
          by simp only [made, h], rfl, hw, hm⟩
      · simp only [step, withCall, h]
        exact goes.of rfl rfl
    all_goals exact .nothing (by simp only [step, withCall, h]) rfl

/-- An event does one of these. -/
theorem step_passage (g : Gate) (e : Event) : Passage g e := by
  cases e with
  | arrived r => exact arrived_passage g r
  | resumed c => exact (resumed_continues g c).passage rfl
  | lookedUp c f => exact (lookedUp_continues g c f).passage rfl
  | replied c reply => exact replied_passage g c reply
  | countedLocally c => exact countedLocally_passage g c
  | failedLocally c f =>
    cases h : g.calls.get? c with
    | none => exact .nothing (by simp only [step, withCall, h]) rfl
    | some x =>
      obtain ⟨r, s⟩ := x
      cases s
      case countingLocally a who =>
        refine .plain ⟨rfl, Or.inr ⟨_, h⟩⟩ rfl (admission?_refusal r who f) ?_
        simp only [step, withCall, h]
        exact refused_goes who f
      all_goals exact .nothing (by simp only [step, withCall, h]) rfl
  | pinged c p =>
    cases h : g.calls.get? c with
    | none => exact .nothing (by simp only [step, withCall, h]) rfl
    | some x =>
      obtain ⟨r, s⟩ := x
      cases s
      case pinging =>
        cases r with
        | http q =>
          refine .plain (r := .http q) (x := .response (Filter.health
            (Filter.storeReport (g.pinger.getD Span.zero) (some p)) g.limiter.mode
            g.authenticator.cache.size q.method)) ⟨rfl, Or.inr ⟨_, h⟩⟩ rfl rfl ?_
          simp only [step, withCall, h]
          exact finish_goes _
        | _ => exact .nothing (by simp only [step, withCall, h]) rfl
      all_goals exact .nothing (by simp only [step, withCall, h]) rfl
  | cancelled c =>
    cases h : g.calls.get? c with
    | none => exact .nothing (by simp only [step, withCall, h]) (by simp only [turn, h]; rfl)
    | some x => exact .dropped c rfl (by simp only [step, withCall, h]) (by simp only [step, withCall, h])
  | advanced ms => exact .idle rfl rfl rfl
  | set t => exact .idle rfl rfl rfl
  | swept x => cases x <;> exact .idle rfl rfl rfl

/-! ## What an event does to the limiter -/

@[simp] theorem limiter_inspect (g : Gate) (c : CallId) (r : Request) (p : AccountId) (o : Operation) :
    (g.inspect c r p o).limiter = g.limiter := by
  unfold Gate.inspect
  split <;> rfl

@[simp] theorem limiter_health (g : Gate) (c : CallId) (r : Request) (m : String) :
    (g.health c r m).limiter = g.limiter := by
  unfold health
  split <;> rfl

theorem limiter_hear (g : Gate) (c : CallId) (x : Call) (reply : Limiter.Reply) :
    (g.hear c x reply).limiter = match x.stage with
      | .counting a _ => (g.limiter.hear a reply).2.1
      | _ => g.limiter := by
  obtain ⟨r, s⟩ := x
  cases s
  case counting a who =>
    cases reply with
    | counted n => exact limiter_counted _ _ _ _ _
    | failed f => rfl
    | silent => rfl
  all_goals rfl

/-- A request with a fault in its header is refused, and the limiter does not learn of it. -/
theorem limiter_enter (g : Gate) (x : Except Credential.Fault Credential)
    (hk : r.credential? = x.toOption) : ({ g with next := g.next + 1 }.enter g.next r x).limiter =
      (((granted r (g.turn (.arrived r)).result).bind g.send).map (·.2.2)).getD g.limiter := by
  cases x with
  | error f =>
    rw [mute_arrived hk, granted_none]
    exact limiter_closeEntry _ _ _ _
  | ok k =>
    rw [turn_arrived hk]
    exact limiter_follow _ _ _ _

theorem limiter_arrive (g : Gate) (r : Request) : (g.arrive r).limiter = g.limiterAfter (.arrived r) := by
  cases r with
  | authenticate k => exact limiter_follow _ _ _ _
  | spend p o => exact limiter_spend _ _ _ ⟨none, p, o⟩
  | inspect p o =>
    have quiet : g.venture (.arrived (.inspect p o)) = none := unventured_arrived rfl fun _ _ => Request.noConfusion
    rw [limiterAfter, begun, quiet]
    exact limiter_inspect _ _ _ _ _
  | enter header o => exact limiter_enter g _ rfl
  | http q =>
    cases hw : Filter.way q with
    | gate =>
      have entered : g.arrive (.http q) = { g with next := g.next + 1 }.enter g.next (.http q) q.credential := by
        simp only [arrive, hw]
      rw [entered]
      exact limiter_enter g _ (by simp only [Request.credential?, hw])
    | _ =>
      have quiet : g.venture (.arrived (.http q)) = none :=
        unventured_arrived (by simp only [Request.credential?, hw]) fun _ _ => Request.noConfusion
      simp only [limiterAfter, begun, quiet, arrive, hw, heard, limiter_finish, limiter_health]
      rfl

theorem Continues.limiter (h : Continues g e c) (unheard : g.heard e = g.limiter) :
    (g.step e).limiter = g.limiterAfter e := by
  unfold limiterAfter begun
  rw [unheard]
  rcases h with ⟨still, -, quiet⟩ | ⟨r, -, is, hv⟩
  · rw [still, quiet]
    rfl
  · rw [is, hv]
    exact limiter_follow _ _ _ _

/-- The limiter changes where an attempt begins, and where the shared store replies to one. -/
theorem step_limiter (g : Gate) (e : Event) : (g.step e).limiter = g.limiterAfter e := by
  cases e with
  | arrived r => exact limiter_arrive g r
  | resumed c => exact (resumed_continues g c).limiter rfl
  | lookedUp c f => exact (lookedUp_continues g c f).limiter rfl
  | replied c reply =>
    show _ = g.heard (.replied c reply)
    cases h : g.calls.get? c with
    | none => simp only [step, withCall, heard, h]
    | some x =>
      simp only [step, withCall, heard, h, limiter_hear]
      obtain ⟨r, s⟩ := x
      cases s <;> rfl
  | countedLocally c =>
    show _ = g.limiter
    simp only [step, withCall]
    split
    · split <;> simp [countLocally]
    · rfl
  | failedLocally c f =>
    show _ = g.limiter
    simp only [step, withCall]
    split
    · split <;> simp
    · rfl
  | pinged c p =>
    show _ = g.limiter
    simp only [step, withCall]
    split
    · split <;> simp [report]
    · rfl
  | cancelled c =>
    show _ = g.limiter
    simp only [step, withCall]
    split <;> rfl
  | advanced ms => rfl
  | set t => rfl
  | swept x => cases x <;> rfl

/-- An instance has a shared store or has none. -/
theorem step_shared (g : Gate) (e : Event) : (g.step e).limiter.shared = g.limiter.shared := by
  rw [step_limiter]
  unfold limiterAfter
  cases h : g.begun e with
  | some x =>
    obtain ⟨a, s, l⟩ := x
    obtain ⟨v, -, sent⟩ := Option.bind_eq_some_iff.mp h
    obtain ⟨-, -, -, goes⟩ := begin_spec (send_eq_some.mp sent)
    by_cases hs : g.limiter.shared = true
    · rw [if_pos hs] at goes
      simp only [goes.2, Option.map_some, Option.getD_some]
    · rw [if_neg hs] at goes
      simp only [goes.2, Option.map_some, Option.getD_some]
  | none =>
    simp only [Option.map_none, Option.getD_none]
    unfold heard
    split
    · rename_i c reply
      split
      · cases reply <;> rfl
      · rfl
    · rfl

/-! ## What a call waits for where its attempt begins -/

section Begins

variable {v : Venture} {a : Attempt} {s : Source} {l : Limiter}

def Awaits (g : Gate) (e : Event) (a : Attempt) (s : Source) : Prop :=
  ∃ c r who, g.concerned e = some c ∧ (g.step e).calls.get? c = some ⟨r, s.stage a who⟩

theorem Goes.begins {g' : Gate} (goes : Goes g c r (g.sent r v) g') (hs : g.send v = some (a, s, l)) :
    g'.calls.get? c = some ⟨r, s.stage a v.who⟩ := by
  unfold Gate.sent at goes
  rw [send_eq_some.mp hs] at goes
  rw [goes.calls]
  exact Table.get?_insert_self ..

theorem Continues.awaits (h : Continues g e c) (on : g.concerned e = some c) (hv : g.venture e = some v)
    (hs : g.send v = some (a, s, l)) : Awaits g e a s := by
  rcases h with ⟨-, -, quiet⟩ | ⟨r, -, is, grants⟩
  · rw [quiet] at hv
    cases hv
  · refine ⟨c, r, v.who, on, ?_⟩
    rw [is]
    exact (follow_spends (grants.symm.trans hv)).begins hs

/-- A request that is let in begins to spend when the authenticator knows its credential. -/
theorem entry_awaits {x : Except Credential.Fault Credential} (hk : r.credential? = x.toOption)
    (grants : g.venture (.arrived r) = granted r (g.turn (.arrived r)).result)
    (is : g.step (.arrived r) = { g with next := g.next + 1 }.enter g.next r x) (hv : g.venture (.arrived r) = some v)
    (hs : g.send v = some (a, s, l)) : Awaits g (.arrived r) a s := by
  rw [hv] at grants
  cases x with
  | error f =>
    rw [mute_arrived hk, granted_none] at grants
    cases grants
  | ok k =>
    refine ⟨g.next, r, v.who, rfl, ?_⟩
    rw [is]
    rw [turn_arrived hk] at grants
    exact (follow_spends (g := { g with next := g.next + 1 }) grants.symm).begins hs

/-- Where an attempt begins, its call waits for the counter that the attempt goes to. -/
theorem begun_awaits (h : g.begun e = some (a, s, l)) : Awaits g e a s := by
  obtain ⟨v, hv, hs⟩ := Option.bind_eq_some_iff.mp h
  cases e with
  | arrived r =>
    cases r with
    | authenticate k => cases hv
    | spend p o =>
      cases hv
      have goes := spend_goes (g := { g with next := g.next + 1 }) (c := g.next) (r := .spend p o) ⟨none, p, o⟩
      exact ⟨g.next, .spend p o, none, rfl, goes.begins hs⟩
    | inspect p o => cases hv
    | enter header o => exact entry_awaits rfl rfl rfl hv hs
    | http q =>
      cases hw : Filter.way q with
      | gate =>
        refine entry_awaits (x := q.credential) ?_ rfl ?_ hv hs
        · simp only [Request.credential?, hw]
        · simp only [step, arrive, hw]
      | _ =>
        have mute : g.venture (.arrived (.http q)) = none :=
          unventured_arrived (by simp only [Request.credential?, hw]) fun _ _ => Request.noConfusion
        rw [mute] at hv
        cases hv
  | resumed c => exact (resumed_continues g c).awaits rfl hv hs
  | lookedUp c f => exact (lookedUp_continues g c f).awaits rfl hv hs
  | _ => cases hv

end Begins

/-! ## Where a call in progress comes from -/

/-- How a call in progress after an event came to be so. -/
inductive Since (g : Gate) (e : Event) (d : CallId) (y : Call) : Prop where
  | same (call : g.calls.get? d = some y)
  | waits (enters : g.Enters e d y.request) (bare : y.stage.carried? = none) (mute : (g.turn e).result = none)
  | begins (v : Venture) (a : Attempt) (s : Source) (l : Limiter) (enters : g.Enters e d y.request)
      (ventured : g.venture e = some v) (why : Warrants y.request (g.turn e).result v)
      (sent : g.send v = some (a, s, l)) (stage : y.stage = s.stage a v.who)
  | falls (a : Attempt) (who : Option Authorization) (call : g.calls.get? d = some ⟨y.request, .counting a who⟩)
      (stage : y.stage = .countingLocally a who)

theorem since {d : CallId} {y : Call} (h : (g.step e).calls.get? d = some y) : Since g e d y := by
  by_cases same : g.calls.get? d = some y
  · exact .same same
  cases step_passage g e with
  | idle calls => exact absurd (calls ▸ h) same
  | dropped c _ calls =>
    rw [calls, Table.get?_erase] at h
    split at h
    · cases h
    · exact absurd h same
  | waits c r s enters bare mute goes =>
    obtain ⟨rfl, s, hs, rfl⟩ := goes.call h same
    cases hs
    exact .waits enters bare mute
  | begins c r v a s l enters ventured why sent goes =>
    obtain ⟨rfl, s, hs, rfl⟩ := goes.call h same
    cases hs
    exact .begins v a _ l enters ventured why sent rfl
  | falls c r a who reply _ call goes =>
    obtain ⟨rfl, s, hs, rfl⟩ := goes.call h same
    cases hs
    exact .falls a who call rfl
  | ends c r x _ _ _ goes =>
    obtain ⟨-, s, hs, -⟩ := goes.call h same
    cases hs

/-- An attempt that is carried was carried before, or begins now. -/
theorem carried_since {d : CallId} {y : Call} {a : Attempt} {who : Option Authorization}
    (h : (g.step e).calls.get? d = some y) (carried : y.stage.carried? = some (a, who)) :
    (∃ z, g.calls.get? d = some z ∧ z.request = y.request ∧ z.stage.carried? = some (a, who)) ∨
      ∃ v s l, g.Enters e d y.request ∧ g.venture e = some v ∧ Warrants y.request (g.turn e).result v ∧
        g.send v = some (a, s, l) ∧ v.who = who := by
  cases since h with
  | same call => exact Or.inl ⟨y, call, rfl, carried⟩
  | waits _ bare => rw [bare] at carried; cases carried
  | begins v b s l enters ventured why sent stage =>
    rw [stage, Source.carried?_stage] at carried
    cases carried
    exact Or.inr ⟨v, s, l, enters, ventured, why, sent, rfl⟩
  | falls b who' call stage =>
    rw [stage] at carried
    cases carried
    exact Or.inl ⟨_, call, rfl, rfl⟩

/-- It was in progress before, or has just come. -/
theorem Since.comes {d : CallId} {y : Call} (h : Since g e d y) : (∃ z, g.calls.get? d = some z) ∨ d = g.next := by
  have entered : ∀ {r}, g.Enters e d r → (∃ z, g.calls.get? d = some z) ∨ d = g.next := by
    intro r enters
    rcases enters.comes with rfl | call
    · exact Or.inr (Option.some.inj enters.on).symm
    · exact Or.inl ⟨_, call⟩
  cases h with
  | same call => exact Or.inl ⟨y, call⟩
  | waits enters => exact entered enters
  | begins _ _ _ _ enters => exact entered enters
  | falls _ _ call => exact Or.inl ⟨_, call⟩

/-- A call that has ended does not come back. -/
theorem ended_stays {d : CallId} (h : g.calls.get? d = none) (hd : d < g.next) : (g.step e).calls.get? d = none := by
  cases hy : (g.step e).calls.get? d with
  | none => rfl
  | some y =>
    rcases (since hy).comes with ⟨z, hz⟩ | same
    · rw [h] at hz
      cases hz
    · rw [same] at hd
      exact absurd hd (Nat.lt_irrefl _)

end Gate

end Gateway
