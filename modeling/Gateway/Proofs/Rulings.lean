/-
  Gateway.Proofs.Rulings — what an event does to the calls, and the decisions it makes.

  An event concerns one call at most. It ends that call with an answer, lets it wait, or
  drops it (`step_effect` says all that can happen). Of that follow: other calls are left
  as they are (`step_calls_ne`); an attempt on its way carries the limit of its rule
  (`Fits`); and the decisions answered to calls that spend are exactly the rulings made
  for them, in order (`run_told`).
-/

import Gateway.Proofs.Frames

namespace Gateway

def Stage.attempt? : Stage → Option Attempt
  | .counting a _ => some a
  | .countingLocally a _ => some a
  | _ => none

def Attempt.Fits (policy : Policy) (a : Attempt) : Prop := a.limit = (policy.rule a.key.operation).limit

def Answer.decision? : Answer → Option Decision
  | .decision (.ok d) => some d
  | _ => none

/-- A decision made for a call; `who` as in the call's stage. -/
structure Ruling where
  call : CallId
  who : Option Authorization
  decision : Decision

/-- The decision, if it is the answer itself. -/
def Ruling.told? (r : Ruling) : Option (CallId × Decision) :=
  if r.who = none then some (r.call, r.decision) else none

def Ruling.on (k : WindowKey) (s : Source) (r : Ruling) : Bool := r.decision.key = k && r.decision.source = s

def Ruling.grants (k : WindowKey) (s : Source) (r : Ruling) : Bool := r.on k s && r.decision.admitted

namespace Gate

/-! ## Rulings -/

def made (g : Gate) : Event → Option Ruling
  | .replied c (.counted n) => match g.calls.get? c with
    | some ⟨_, .counting a who⟩ => some ⟨c, who, Limiter.Attempt.decide a n .shared⟩
    | _ => none
  | .countedLocally c => match g.calls.get? c with
    | some ⟨_, .countingLocally a who⟩ =>
      some ⟨c, who, Limiter.Attempt.decide a (g.locals.record a.key).1 .fallback⟩
    | _ => none
  | _ => none

/-- The decisions of a run, in order. -/
def rulings (g : Gate) : List Event → List Ruling
  | [] => []
  | e :: es => (g.made e).toList ++ (g.step e).rulings es

def told (g : Gate) : List (CallId × Decision) :=
  g.answers.filterMap fun x => x.2.decision?.map fun d => (x.1, d)

/-- Decisions are made when the shared store replies with a count, and when an attempt is
counted by the instance itself. -/
theorem made_cases {g : Gate} {e : Event} {x : Ruling} (h : g.made e = some x) :
    (∃ c n r a who, e = .replied c (.counted n) ∧ g.calls.get? c = some ⟨r, .counting a who⟩ ∧
      x = ⟨c, who, Limiter.Attempt.decide a n .shared⟩) ∨
    ∃ c r a who, e = .countedLocally c ∧ g.calls.get? c = some ⟨r, .countingLocally a who⟩ ∧
      x = ⟨c, who, Limiter.Attempt.decide a (g.locals.record a.key).1 .fallback⟩ := by
  unfold made at h
  split at h
  · split at h
    · rename_i hc
      exact Or.inl ⟨_, _, _, _, _, rfl, hc, (Option.some.inj h).symm⟩
    · cases h
  · split at h
    · rename_i hc
      exact Or.inr ⟨_, _, _, _, rfl, hc, (Option.some.inj h).symm⟩
    · cases h
  · cases h

/-! ## The course of a call -/

inductive Course where
  | ends (a : Answer)
  | waits (s : Stage)

def Course.calls (c : CallId) (r : Request) (t : Table CallId Call) : Course → Table CallId Call
  | .ends _ => t.erase c
  | .waits s => t.insert c ⟨r, s⟩

def Course.answers (c : CallId) : Course → List (CallId × Answer)
  | .ends a => [(c, a)]
  | .waits _ => []

/-- From `g` to `g'`, call `c` takes the course `x` and nothing else happens to calls. -/
structure Goes (g : Gate) (c : CallId) (r : Request) (x : Course) (g' : Gate) : Prop where
  calls : g'.calls = x.calls c r g.calls
  answers : g'.answers = g.answers ++ x.answers c

/-- No decision is answered, and an attempt that begins carries its rule's limit. -/
def Course.Quiet (policy : Policy) : Course → Prop
  | .ends a => a.decision? = none
  | .waits s => ∀ a, s.attempt? = some a → a.Fits policy

def Quietly (g : Gate) (c : CallId) (r : Request) (g' : Gate) : Prop :=
  ∃ x : Course, x.Quiet g.limiter.policy ∧ Goes g c r x g'

def direct (who : Option Authorization) (d : Decision) : Option Decision :=
  if who = none then some d else none

variable {g : Gate} {c : CallId} {r : Request}

/-- Parts other than the calls, the answers and the policy do not matter. -/
theorem Quietly.of {g₁ g' : Gate} (h : Quietly g₁ c r g') (hc : g₁.calls = g.calls) (ha : g₁.answers = g.answers)
    (hp : g₁.limiter.policy = g.limiter.policy) : Quietly g c r g' := by
  obtain ⟨x, hx, calls, answers⟩ := h
  exact ⟨x, hp ▸ hx, hc ▸ calls, ha ▸ answers⟩

theorem finish_goes (a : Answer) : Goes g c r (.ends a) (g.finish c a) := ⟨rfl, rfl⟩

theorem stay_goes (s : Stage) : Goes g c r (.waits s) (g.stay c r s) :=
  ⟨rfl, (List.append_nil _).symm⟩

theorem finish_quietly {a : Answer} (h : a.decision? = none) : Quietly g c r (g.finish c a) :=
  ⟨.ends a, h, finish_goes a⟩

theorem stay_quietly {s : Stage} (h : s.attempt? = none) : Quietly g c r (g.stay c r s) := by
  refine ⟨.waits s, fun a ha => ?_, stay_goes s⟩
  rw [h] at ha
  cases ha

theorem closeEntry_quietly (x : Except Failure Admission) : Quietly g c r (g.closeEntry c r x) := by
  cases r with
  | http h => exact ⟨.ends (.response (Filter.respond h x).1), rfl, rfl, rfl⟩
  | _ => exact finish_quietly (a := .admission x) rfl

theorem refused_quietly (who : Option Authorization) (f : Failure) : Quietly g c r (g.decided c r who (.error f)) := by
  cases who with
  | none => exact finish_quietly rfl
  | some a => exact closeEntry_quietly _

theorem counted_goes (who : Option Authorization) (d : Decision) :
    ∃ a, a.decision? = direct who d ∧ Goes g c r (.ends a) (g.counted c r who d) := by
  cases who with
  | none => exact ⟨.decision (.ok d), rfl, rfl, rfl⟩
  | some w =>
    unfold counted decided
    simp only
    split
    · rename_i m _
      cases r with
      | http h => exact ⟨.response (Filter.respond h (.ok m)).1, rfl, rfl, rfl⟩
      | _ => exact ⟨.admission (.ok m), rfl, rfl, rfl⟩
    · exact ⟨.broken, rfl, rfl, rfl⟩

theorem containing_operation {p : AccountId} {o : Operation} {w : Span} {now : Instant} {k : WindowKey}
    (h : WindowKey.containing p o w now = .ok k) : k.operation = o := by
  unfold WindowKey.containing at h
  split at h
  · cases h
  · split at h <;> cases h
    rfl

theorem begin_fits {l l' : Limiter} {p : AccountId} {o : Operation} {now : Instant} {a : Attempt}
    {s : Source} (h : l.begin p o now = .ok (a, s, l')) : a.Fits l.policy := by
  simp only [Limiter.begin] at h
  split at h
  · cases h
  · rename_i k hk
    have ho := containing_operation hk
    have fits : Attempt.Fits l.policy ⟨k, (l.policy.rule o).limit, now⟩ := by rw [← ho]; rfl
    split at h <;> cases h <;> exact fits

theorem spend_quietly (who : Option Authorization) (p : AccountId) (o : Operation) :
    Quietly g c r (g.spend c r who p o) := by
  unfold spend
  split
  · exact refused_quietly who _
  · rename_i a l h
    refine ⟨.waits (.counting a who), fun b hb => ?_, rfl, (List.append_nil _).symm⟩
    cases hb
    exact begin_fits h
  · rename_i a l h
    refine ⟨.waits (.countingLocally a who), fun b hb => ?_, rfl, (List.append_nil _).symm⟩
    cases hb
    exact begin_fits h

theorem authorized_quietly (x : Except Failure Authorization) : Quietly g c r (g.authorized c r x) := by
  unfold authorized
  split
  · exact finish_quietly rfl
  · exact closeEntry_quietly _
  · exact spend_quietly _ _ _

theorem follow_quietly (s : Authenticator.Step) : Quietly g c r (g.follow c r s) := by
  unfold follow
  simp only
  split
  · exact (stay_quietly (s := .authenticating) rfl).of rfl rfl rfl
  · exact (authorized_quietly _).of rfl rfl rfl

theorem enter_quietly (x : Except Credential.Fault Credential) : Quietly g c r (g.enter c r x) := by
  cases x with
  | error f => exact closeEntry_quietly _
  | ok k => exact follow_quietly _

theorem inspect_quietly (p : AccountId) (o : Operation) : Quietly g c r (g.inspect c r p o) := by
  unfold Gate.inspect
  split
  · exact finish_quietly rfl
  · exact finish_quietly rfl
  · exact stay_quietly rfl

theorem health_quietly (m : String) : Quietly g c r (g.health c r m) := by
  unfold health
  split
  · exact finish_quietly rfl
  · exact stay_quietly rfl

theorem arrive_quietly (g : Gate) (r : Request) : Quietly g g.next r (g.arrive r) := by
  cases r with
  | authenticate k => exact (follow_quietly (r := .authenticate k) _).of rfl rfl rfl
  | spend p o => exact (spend_quietly (r := .spend p o) _ _ _).of rfl rfl rfl
  | inspect p o => exact (inspect_quietly (r := .inspect p o) p o).of rfl rfl rfl
  | enter header o => exact (enter_quietly (r := .enter header o) _).of rfl rfl rfl
  | http h =>
    unfold arrive
    simp only
    split
    · rename_i x _
      exact (finish_quietly (a := .response x) rfl).of rfl rfl rfl
    · exact (health_quietly _).of rfl rfl rfl
    · exact (enter_quietly _).of rfl rfl rfl

/-! ## What an event does -/

/-- The call that an event concerns. -/
def concerned (g : Gate) : Event → Option CallId
  | .arrived _ => some g.next
  | .resumed c => some c
  | .lookedUp c _ => some c
  | .replied c _ => some c
  | .countedLocally c => some c
  | .failedLocally c _ => some c
  | .pinged c _ => some c
  | .cancelled c => some c
  | _ => none

/-- All that an event can do to the calls and to what they are answered. -/
inductive Effect (g : Gate) (e : Event) : Prop where
  | idle (calls : (g.step e).calls = g.calls) (answers : (g.step e).answers = g.answers) (unmade : g.made e = none)
  | dropped (c : CallId) (is : e = .cancelled c) (calls : (g.step e).calls = g.calls.erase c)
      (answers : (g.step e).answers = g.answers)
  | quiet (c : CallId) (r : Request) (on : g.concerned e = some c) (unmade : g.made e = none)
      (comes : e = .arrived r ∨ ∃ s, g.calls.get? c = some ⟨r, s⟩) (goes : Quietly g c r (g.step e))
  /-- The shared store fails an attempt. -/
  | failed (c : CallId) (r : Request) (a : Attempt) (who : Option Authorization) (on : g.concerned e = some c)
      (unmade : g.made e = none) (call : g.calls.get? c = some ⟨r, .counting a who⟩)
      (goes : Goes g c r (.waits (.countingLocally a who)) (g.step e))
  | ruled (x : Ruling) (r : Request) (s : Stage) (a : Answer) (on : g.concerned e = some x.call)
      (made : g.made e = some x) (call : g.calls.get? x.call = some ⟨r, s⟩)
      (speaks : a.decision? = direct x.who x.decision) (goes : Goes g x.call r (.ends a) (g.step e))

theorem idle_effect {e : Event} (h : g.step e = g) (hm : g.made e = none) : Effect g e :=
  .idle (by rw [h]) (by rw [h]) hm

theorem replied_effect (g : Gate) (c : CallId) (reply : Limiter.Reply) : Effect g (.replied c reply) := by
  cases h : g.calls.get? c with
  | none => exact idle_effect (by simp only [step, withCall, h]) (by cases reply <;> simp only [made, h])
  | some x =>
    obtain ⟨r, s⟩ := x
    cases s
    case counting a who =>
      cases reply with
      | counted n =>
        obtain ⟨y, hy, calls, answers⟩ := counted_goes (c := c) (r := r) who (Limiter.Attempt.decide a n .shared)
          (g := { g with limiter := (g.limiter.hear a (.counted n)).2.1 }.say (g.limiter.hear a (.counted n)).2.2)
        refine .ruled ⟨c, who, Limiter.Attempt.decide a n .shared⟩ r _ y rfl (by simp only [made, h]) h hy ?_
        simp only [step, withCall, h]
        exact ⟨calls, answers⟩
      | failed f =>
        refine .failed c r a who rfl rfl h ?_
        simp only [step, withCall, h]
        exact ⟨rfl, (List.append_nil _).symm⟩
      | silent =>
        refine .failed c r a who rfl rfl h ?_
        simp only [step, withCall, h]
        exact ⟨rfl, (List.append_nil _).symm⟩
    case reading k =>
      refine .quiet c r rfl (by cases reply <;> simp only [made, h]) (Or.inr ⟨_, h⟩) ?_
      simp only [step, withCall, h]
      exact finish_quietly rfl
    all_goals
      exact idle_effect (by simp only [step, withCall, h]; rfl) (by cases reply <;> simp only [made, h])

theorem countedLocally_effect (g : Gate) (c : CallId) : Effect g (.countedLocally c) := by
  cases h : g.calls.get? c with
  | none => exact idle_effect (by simp only [step, withCall, h]) (by simp only [made, h])
  | some x =>
    obtain ⟨r, s⟩ := x
    cases s
    case countingLocally a who =>
      obtain ⟨y, hy, calls, answers⟩ := counted_goes (c := c) (r := r) who
        (Limiter.Attempt.decide a (g.locals.record a.key).1 .fallback)
        (g := { g with locals := (g.locals.record a.key).2 })
      refine .ruled ⟨c, who, Limiter.Attempt.decide a (g.locals.record a.key).1 .fallback⟩ r _ y rfl
        (by simp only [made, h]) h hy ?_
      simp only [step, withCall, h]
      exact ⟨calls, answers⟩
    all_goals exact idle_effect (by simp only [step, withCall, h]) (by simp only [made, h])

/-- An event does one of these. -/
theorem step_effect (g : Gate) (e : Event) : Effect g e := by
  cases e with
  | arrived r => exact .quiet g.next r rfl rfl (Or.inl rfl) (arrive_quietly g r)
  | resumed c =>
    cases h : g.calls.get? c with
    | none => exact idle_effect (by simp only [step, withCall, h]) rfl
    | some x =>
      obtain ⟨r, s⟩ := x
      cases s
      case authenticating =>
        refine .quiet c r rfl rfl (Or.inr ⟨_, h⟩) ?_
        simp only [step, withCall, h]
        exact follow_quietly _
      all_goals exact idle_effect (by simp only [step, withCall, h]) rfl
  | lookedUp c f =>
    cases h : g.calls.get? c with
    | none => exact idle_effect (by simp only [step, withCall, h]) rfl
    | some x =>
      obtain ⟨r, s⟩ := x
      cases s
      case authenticating =>
        refine .quiet c r rfl rfl (Or.inr ⟨_, h⟩) ?_
        simp only [step, withCall, h]
        exact follow_quietly _
      all_goals exact idle_effect (by simp only [step, withCall, h]) rfl
  | replied c reply => exact replied_effect g c reply
  | countedLocally c => exact countedLocally_effect g c
  | failedLocally c f =>
    cases h : g.calls.get? c with
    | none => exact idle_effect (by simp only [step, withCall, h]) rfl
    | some x =>
      obtain ⟨r, s⟩ := x
      cases s
      case countingLocally a who =>
        refine .quiet c r rfl rfl (Or.inr ⟨_, h⟩) ?_
        simp only [step, withCall, h]
        exact refused_quietly who f
      all_goals exact idle_effect (by simp only [step, withCall, h]) rfl
  | pinged c p =>
    cases h : g.calls.get? c with
    | none => exact idle_effect (by simp only [step, withCall, h]) rfl
    | some x =>
      obtain ⟨r, s⟩ := x
      cases s
      case pinging =>
        cases r with
        | http q =>
          refine .quiet c (.http q) rfl rfl (Or.inr ⟨_, h⟩) ?_
          simp only [step, withCall, h]
          exact finish_quietly rfl
        | _ => exact idle_effect (by simp only [step, withCall, h]) rfl
      all_goals exact idle_effect (by simp only [step, withCall, h]) rfl
  | cancelled c =>
    cases h : g.calls.get? c with
    | none => exact idle_effect (by simp only [step, withCall, h]) rfl
    | some x => exact .dropped c rfl (by simp only [step, withCall, h]) (by simp only [step, withCall, h])
  | advanced ms => exact .idle rfl rfl rfl
  | set t => exact .idle rfl rfl rfl
  | swept x => cases x <;> exact .idle rfl rfl rfl

/-! ## Other calls -/

theorem course_ne {d : CallId} (h : d ≠ c) (t : Table CallId Call) (x : Course) :
    (x.calls c r t).get? d = t.get? d := by
  cases x with
  | ends a => exact (Table.get?_erase _ _ _).trans (if_neg h)
  | waits s => exact Table.get?_insert_of_ne _ _ h

/-- A call in progress that is new is the one that goes. -/
theorem Goes.call {g' : Gate} {x : Course} {d : CallId} {y : Call} (goes : Goes g c r x g')
    (h : g'.calls.get? d = some y) (new : g.calls.get? d ≠ some y) : d = c ∧ ∃ s, x = .waits s ∧ y = ⟨r, s⟩ := by
  rw [goes.calls] at h
  by_cases hd : d = c
  · subst hd
    cases x with
    | ends b => simp [Course.calls, Table.get?_erase] at h
    | waits s =>
      simp only [Course.calls, Table.get?_insert_self, Option.some.injEq] at h
      exact ⟨rfl, s, rfl, h.symm⟩
  · rw [course_ne hd] at h
    exact absurd h new

/-- An event leaves every call alone but the one it concerns. -/
theorem step_calls_ne (g : Gate) {e : Event} {d : CallId} (h : g.concerned e ≠ some d) :
    (g.step e).calls.get? d = g.calls.get? d := by
  have apart : ∀ {c}, g.concerned e = some c → d ≠ c := fun on hd => h (hd ▸ on)
  cases step_effect g e with
  | idle calls => rw [calls]
  | dropped c is calls => rw [calls, Table.get?_erase, if_neg (apart (by rw [is]; rfl))]
  | quiet c r on _ _ goes =>
    obtain ⟨x, -, goes⟩ := goes
    rw [goes.calls, course_ne (apart on)]
  | failed c r a who on _ _ goes => rw [goes.calls, course_ne (apart on)]
  | ruled x r s a on _ _ _ goes => rw [goes.calls, course_ne (apart on)]

def Numbered (g : Gate) : Prop := ∀ c x, g.calls.get? c = some x → c < g.next

theorem start_numbered (t : Instant) (cache : Cache) (limiter : Limiter) (pinger : Option Span) :
    (start t cache limiter pinger).Numbered := fun _ _ h => by cases h

/-- A call in progress after an event was in progress before or has just come, and its
attempt is the one it carried or begins with the limit of its rule. -/
theorem call_after {e : Event} {d : CallId} {y : Call} (hy : (g.step e).calls.get? d = some y) :
    ((∃ z, g.calls.get? d = some z) ∨ d < (g.step e).next) ∧ ∀ a, y.stage.attempt? = some a →
      a.Fits g.limiter.policy ∨ ∃ z, g.calls.get? d = some z ∧ z.stage.attempt? = some a := by
  by_cases same : g.calls.get? d = some y
  · exact ⟨Or.inl ⟨y, same⟩, fun a ha => Or.inr ⟨y, same, ha⟩⟩
  cases step_effect g e with
  | idle calls => exact absurd (calls ▸ hy) same
  | dropped c _ calls =>
    rw [calls, Table.get?_erase] at hy
    split at hy
    · cases hy
    · exact absurd hy same
  | quiet c r on _ comes goes =>
    obtain ⟨x, quiet, goes⟩ := goes
    obtain ⟨rfl, s, rfl, rfl⟩ := goes.call hy same
    refine ⟨?_, fun a ha => Or.inl (quiet a ha)⟩
    rcases comes with rfl | ⟨z, hz⟩
    · cases on
      rw [step_next]
      exact Or.inr (Nat.lt_succ_self _)
    · exact Or.inl ⟨_, hz⟩
  | failed c r a who _ _ call goes =>
    obtain ⟨rfl, s, hs, rfl⟩ := goes.call hy same
    cases hs
    exact ⟨Or.inl ⟨_, call⟩, fun b hb => Or.inr ⟨_, call, hb⟩⟩
  | ruled x r s a _ _ _ _ goes =>
    obtain ⟨-, s, hs, -⟩ := goes.call hy same
    cases hs

theorem step_numbered (h : g.Numbered) (e : Event) : (g.step e).Numbered := by
  intro d y hy
  rcases (call_after hy).1 with ⟨z, hz⟩ | hd
  · exact Nat.lt_of_lt_of_le (h d z hz) (step_next_le g e)
  · exact hd

/-- A call that a decision is made for ends. -/
theorem made_ends {e : Event} {x : Ruling} (h : g.made e = some x) : (g.step e).calls.get? x.call = none := by
  cases step_effect g e with
  | idle _ _ unmade => rw [unmade] at h; cases h
  | dropped c is => rw [is] at h; cases h
  | quiet _ _ _ unmade => rw [unmade] at h; cases h
  | failed _ _ _ _ _ unmade => rw [unmade] at h; cases h
  | ruled y r s a _ made _ _ goes =>
    rw [made] at h
    cases h
    rw [goes.calls]
    simp only [Course.calls, Table.get?_erase, if_true]

/-- A call that waits for the shared store waits on until it is replied to or cancelled. -/
theorem counting_stays (h : g.Numbered) {a : Attempt} {who : Option Authorization}
    (hc : g.calls.get? c = some ⟨r, .counting a who⟩) {e : Event} (hr : ∀ x, e ≠ .replied c x)
    (hx : e ≠ .cancelled c) : (g.step e).calls.get? c = some ⟨r, .counting a who⟩ := by
  by_cases on : g.concerned e = some c
  · cases e with
    | arrived r => exact absurd (h c _ hc) (by rw [← Option.some.inj on]; exact Nat.lt_irrefl _)
    | replied d x => cases on; exact absurd rfl (hr x)
    | cancelled d => cases on; exact absurd rfl hx
    | resumed d => cases on; simp only [step, withCall, hc]
    | lookedUp d f => cases on; simp only [step, withCall, hc]
    | countedLocally d => cases on; simp only [step, withCall, hc]
    | failedLocally d f => cases on; simp only [step, withCall, hc]
    | pinged d p => cases on; simp only [step, withCall, hc]
    | advanced ms => cases on
    | set t => cases on
    | swept s => cases on
  · rw [step_calls_ne g on, hc]

/-! ## Limits -/

def Fits (g : Gate) : Prop :=
  ∀ c x a, g.calls.get? c = some x → x.stage.attempt? = some a → a.Fits g.limiter.policy

theorem start_fits (t : Instant) (cache : Cache) (limiter : Limiter) (pinger : Option Span) :
    (start t cache limiter pinger).Fits := fun _ _ _ h => by cases h

theorem step_fits (h : g.Fits) (e : Event) : (g.step e).Fits := by
  intro d y a hy ha
  rw [step_policy]
  rcases (call_after hy).2 a ha with fits | ⟨z, hz, ha⟩
  · exact fits
  · exact h d z a hz ha

/-- Decisions are made against the limit of the rule. -/
theorem made_limit (h : g.Fits) {e : Event} {x : Ruling} (hx : g.made e = some x) :
    x.decision.limit = (g.limiter.policy.rule x.decision.key.operation).limit := by
  rcases made_cases hx with ⟨c, n, r, a, who, -, hc, rfl⟩ | ⟨c, r, a, who, -, hc, rfl⟩
  · exact h c _ a hc rfl
  · exact h c _ a hc rfl

/-- Where a ruling was made. -/
theorem mem_rulings {es : List Event} {x : Ruling} (h : x ∈ g.rulings es) :
    ∃ pre e, pre ++ [e] <+: es ∧ (g.run pre).made e = some x := by
  induction es generalizing g with
  | nil => cases h
  | cons e es ih =>
    rcases List.mem_append.mp h with h | h
    · exact ⟨[], e, List.prefix_append [e] es, Option.mem_toList.mp h⟩
    · obtain ⟨pre, d, within, made⟩ := ih h
      exact ⟨e :: pre, d, (List.prefix_cons_inj e).mpr within, made⟩

/-! ## Answers -/

theorem step_told (g : Gate) (e : Event) :
    (g.step e).told = g.told ++ (g.made e).toList.filterMap Ruling.told? := by
  have course : ∀ {c r} {y : Course}, Goes g c r y (g.step e) → (g.step e).told = g.told ++
      (y.answers c).filterMap fun x => x.2.decision?.map fun d => (x.1, d) := by
    intro c r y goes
    simp only [told, goes.answers, List.filterMap_append]
  cases step_effect g e with
  | idle _ answers unmade => simp [told, answers, unmade]
  | dropped c is _ answers => subst is; simp [told, answers, made]
  | quiet c r _ unmade _ goes =>
    obtain ⟨y, quiet, goes⟩ := goes
    rw [course goes, unmade]
    cases y with
    | ends a => simp [Course.answers, show a.decision? = none from quiet]
    | waits s => rfl
  | failed c r a who _ unmade _ goes => rw [course goes, unmade]; rfl
  | ruled x r s a _ hm _ speaks goes =>
    rw [course goes, hm]
    by_cases hw : x.who = none <;> simp [Course.answers, speaks, direct, Ruling.told?, hw]

/-- The decisions that calls are answered are the rulings made for them, in order. -/
theorem run_told (g : Gate) (es : List Event) :
    (g.run es).told = g.told ++ (g.rulings es).filterMap Ruling.told? := by
  induction es generalizing g with
  | nil => simp [rulings]
  | cons e es ih => simp [run_cons, ih, step_told, rulings]

end Gate

end Gateway
