/-
  Gateway.Proofs.Frames — what an event leaves alone.

  `ground` is the part of a gate that ends and waits of calls do not touch: the clock, the
  authenticator, the instance's counters, the policy, the number of the next call and the
  authorizations answered so far. Every helper keeps it but `follow`, which puts the
  authenticator's next state in place and may answer an authorization. `turn` is what an
  event asks of the authenticator, and the `step_…` lemmas say what each part of the ground
  is after any event.
-/

import Gateway.Gate

namespace Gateway

def Request.credential? : Request → Option Credential
  | .authenticate k => some k
  | .enter header _ => (Credential.ofHeader? header).toOption
  | .http h => match Filter.way h with
    | .gate => h.credential.toOption
    | _ => none
  | _ => none

namespace Gate

def authorizations (g : Gate) : List (CallId × Except Failure Authorization) :=
  g.answers.filterMap fun x => match x with
    | (c, .authorization r) => some (c, r)
    | _ => none

theorem mem_authorizations {g : Gate} {c : CallId} {x : Except Failure Authorization} :
    (c, x) ∈ g.authorizations ↔ (c, .authorization x) ∈ g.answers := by
  simp only [authorizations, List.mem_filterMap]
  constructor
  · intro w
    obtain ⟨⟨d, a⟩, hm, ha⟩ := w
    cases a <;> simp at ha
    obtain ⟨rfl, rfl⟩ := ha
    exact hm
  · intro h
    exact ⟨_, h, rfl⟩

structure Ground where
  clock : Clock
  authenticator : Authenticator
  locals : Counters
  policy : Policy
  next : CallId
  authorizations : List (CallId × Except Failure Authorization)

def ground (g : Gate) : Ground :=
  ⟨g.clock, g.authenticator, g.locals, g.limiter.policy, g.next, g.authorizations⟩

/-! ## Ends and waits -/

@[simp] theorem ground_say (g : Gate) (l : List Log.Event) : (g.say l).ground = g.ground := rfl
@[simp] theorem ground_stay (g : Gate) (c : CallId) (r : Request) (s : Stage) :
    (g.stay c r s).ground = g.ground := rfl

@[simp] theorem ground_decision (g : Gate) (c : CallId) (x : Except Failure Decision) :
    (g.finish c (.decision x)).ground = g.ground := by simp [ground, finish, authorizations]
@[simp] theorem ground_count (g : Gate) (c : CallId) (x : Except Failure (Option Nat)) :
    (g.finish c (.count x)).ground = g.ground := by simp [ground, finish, authorizations]
@[simp] theorem ground_admission (g : Gate) (c : CallId) (x : Except Failure Admission) :
    (g.finish c (.admission x)).ground = g.ground := by simp [ground, finish, authorizations]
@[simp] theorem ground_response (g : Gate) (c : CallId) (x : Http.Response) :
    (g.finish c (.response x)).ground = g.ground := by simp [ground, finish, authorizations]
@[simp] theorem ground_broken (g : Gate) (c : CallId) : (g.finish c .broken).ground = g.ground := by
  simp [ground, finish, authorizations]

@[simp] theorem ground_closeEntry (g : Gate) (c : CallId) (r : Request) (x : Except Failure Admission) :
    (g.closeEntry c r x).ground = g.ground := by
  cases r <;> simp [closeEntry]

@[simp] theorem ground_decided (g : Gate) (c : CallId) (r : Request) (who : Option Authorization)
    (x : Except Failure Decision) : (g.decided c r who x).ground = g.ground := by
  unfold decided
  split
  · simp
  · simp
  · split <;> simp

@[simp] theorem ground_counted (g : Gate) (c : CallId) (r : Request) (who : Option Authorization)
    (d : Decision) : (g.counted c r who d).ground = g.ground := by
  simp [counted]

theorem begin_policy {l l' : Limiter} {p : AccountId} {o : Operation} {now : Instant} {a : Attempt}
    {s : Source} (h : l.begin p o now = .ok (a, s, l')) : l'.policy = l.policy := by
  simp only [Limiter.begin] at h
  split at h
  · cases h
  · split at h <;> cases h <;> rfl

theorem hear_policy (l : Limiter) (a : Attempt) (r : Limiter.Reply) :
    (l.hear a r).2.1.policy = l.policy := by
  cases r <;> rfl

theorem ground_limiter (g : Gate) {l : Limiter} (h : l.policy = g.limiter.policy) :
    ({ g with limiter := l } : Gate).ground = g.ground := by
  simp [ground, h, authorizations]

@[simp] theorem ground_spend (g : Gate) (c : CallId) (r : Request) (who : Option Authorization)
    (p : AccountId) (o : Operation) : (g.spend c r who p o).ground = g.ground := by
  unfold spend
  split
  · simp
  · rename_i h
    simp [ground_limiter g (begin_policy h)]
  · rename_i h
    simp [ground_limiter g (begin_policy h)]

@[simp] theorem ground_hearShared (g : Gate) (c : CallId) (r : Request) (a : Attempt)
    (who : Option Authorization) (x : Limiter.Reply) : (g.hearShared c r a who x).ground = g.ground := by
  have h := ground_limiter g (hear_policy g.limiter a x)
  simp only [hearShared]
  split <;> simp [h]

@[simp] theorem ground_inspect (g : Gate) (c : CallId) (r : Request) (p : AccountId) (o : Operation) :
    (g.inspect c r p o).ground = g.ground := by
  unfold inspect
  split <;> simp

@[simp] theorem ground_report (g : Gate) (c : CallId) (m s : String) : (g.report c m s).ground = g.ground := by
  simp [report]

@[simp] theorem ground_health (g : Gate) (c : CallId) (r : Request) (m : String) :
    (g.health c r m).ground = g.ground := by
  unfold health
  split <;> simp

theorem ground_hear (g : Gate) (c : CallId) (x : Call) (r : Limiter.Reply) :
    (g.hear c x r).ground = g.ground := by
  unfold hear
  split <;> simp

/-! ## Authenticating -/

def verdict (c : CallId) (r : Request) (s : Authenticator.Step) :
    List (CallId × Except Failure Authorization) :=
  match operation? r, s.result with
  | none, some x => [(c, x)]
  | _, _ => []

@[simp] theorem verdict_still (c : CallId) (r : Request) (a : Authenticator) :
    verdict c r (Authenticator.still a) = [] := by
  unfold verdict Authenticator.still
  cases operation? r <;> rfl

theorem ground_follow (g : Gate) (c : CallId) (r : Request) (s : Authenticator.Step) :
    (g.follow c r s).ground =
      { g.ground with authenticator := s.next, authorizations := g.authorizations ++ verdict c r s } := by
  have placed : ({ g with authenticator := s.next }.say s.events).ground =
      { g.ground with authenticator := s.next, authorizations := g.authorizations ++ [] } := by
    rw [List.append_nil]; rfl
  unfold follow authorized verdict
  cases s.result with
  | none => cases operation? r <;> exact (ground_stay _ _ _ _).trans placed
  | some x =>
    cases operation? r with
    | none => simp [ground, authorizations, finish, say]
    | some o =>
      cases x with
      | error e => exact (ground_closeEntry _ _ _ _).trans placed
      | ok a => exact (ground_spend _ _ _ _ _ _).trans placed

/-! ## A step -/

/-- What an event asks of the authenticator. -/
def turn (g : Gate) : Event → Authenticator.Step
  | .arrived r => match r.credential? with
    | some k => g.authenticator.ask g.next k g.now
    | none => Authenticator.still g.authenticator
  | .resumed c => match g.calls.get? c with
    | some ⟨_, .authenticating⟩ => g.authenticator.resume c g.now
    | _ => Authenticator.still g.authenticator
  | .lookedUp c f => match g.calls.get? c with
    | some ⟨_, .authenticating⟩ => g.authenticator.hear c f g.now
    | _ => Authenticator.still g.authenticator
  | .cancelled c => match g.calls.get? c with
    | some _ => Authenticator.still (g.authenticator.cancel c)
    | none => Authenticator.still g.authenticator
  | .swept .credentials => Authenticator.still (g.authenticator.sweep g.now)
  | _ => Authenticator.still g.authenticator

theorem turn_arrived {g : Gate} {r : Request} {k : Credential} (h : r.credential? = some k) :
    g.turn (.arrived r) = g.authenticator.ask g.next k g.now := by
  simp only [turn, h]

theorem turn_arrived_none {g : Gate} {r : Request} (h : r.credential? = none) :
    g.turn (.arrived r) = Authenticator.still g.authenticator := by
  simp only [turn, h]

theorem turn_resumed (g : Gate) (c : CallId) : g.turn (.resumed c) = Authenticator.still g.authenticator ∨
    ∃ r, g.calls.get? c = some ⟨r, .authenticating⟩ ∧ g.turn (.resumed c) = g.authenticator.resume c g.now := by
  cases h : g.calls.get? c with
  | none => exact Or.inl (by simp only [turn, h])
  | some x =>
    obtain ⟨r, s⟩ := x
    cases s
    case authenticating => exact Or.inr ⟨r, rfl, by simp only [turn, h]⟩
    all_goals exact Or.inl (by simp only [turn, h])

theorem turn_lookedUp (g : Gate) (c : CallId) (f : Cache.Finding) :
    g.turn (.lookedUp c f) = Authenticator.still g.authenticator ∨
      ∃ r, g.calls.get? c = some ⟨r, .authenticating⟩ ∧ g.turn (.lookedUp c f) = g.authenticator.hear c f g.now := by
  cases h : g.calls.get? c with
  | none => exact Or.inl (by simp only [turn, h])
  | some x =>
    obtain ⟨r, s⟩ := x
    cases s
    case authenticating => exact Or.inr ⟨r, rfl, by simp only [turn, h]⟩
    all_goals exact Or.inl (by simp only [turn, h])

theorem turn_cancelled (g : Gate) (c : CallId) : g.turn (.cancelled c) = Authenticator.still g.authenticator ∨
    g.turn (.cancelled c) = Authenticator.still (g.authenticator.cancel c) := by
  cases h : g.calls.get? c with
  | none => exact Or.inl (by simp only [turn, h])
  | some x => exact Or.inr (by simp only [turn, h])

def verdicts (g : Gate) (e : Event) : List (CallId × Except Failure Authorization) :=
  match e with
  | .arrived r => verdict g.next r (g.turn e)
  | .resumed c => ((g.calls.get? c).map fun x => verdict c x.request (g.turn e)).getD []
  | .lookedUp c _ => ((g.calls.get? c).map fun x => verdict c x.request (g.turn e)).getD []
  | _ => []

def clockAfter (g : Gate) : Event → Clock
  | .advanced ms => g.clock.advance ms
  | .set t => g.clock.set t
  | _ => g.clock

def localsAfter (g : Gate) : Event → Counters
  | .countedLocally c => match g.calls.get? c with
    | some ⟨_, .countingLocally a _⟩ => (g.locals.record a.key).2
    | _ => g.locals
  | .swept .windows => g.locals.sweep g.now
  | _ => g.locals

def nextAfter (g : Gate) : Event → CallId
  | .arrived _ => g.next + 1
  | _ => g.next

/-- A request that asks nothing of the authenticator only takes a number. -/
theorem ground_numbered {g g' : Gate} {r : Request} (hr : r.credential? = none)
    (h : g'.ground = ({ g with next := g.next + 1 } : Gate).ground) :
    g'.ground = ⟨g.clock, (g.turn (.arrived r)).next, g.locals, g.limiter.policy, g.next + 1,
      g.authorizations ++ verdict g.next r (g.turn (.arrived r))⟩ := by
  simp only [h, turn, hr, verdict_still, List.append_nil]
  rfl

theorem ground_arrive (g : Gate) (r : Request) :
    (g.arrive r).ground = ⟨g.clock, (g.turn (.arrived r)).next, g.locals, g.limiter.policy, g.next + 1,
      g.authorizations ++ verdict g.next r (g.turn (.arrived r))⟩ := by
  cases r with
  | authenticate k => exact ground_follow _ _ _ _
  | spend p o => exact ground_numbered rfl (ground_spend _ _ _ _ _ _)
  | inspect p o => exact ground_numbered rfl (ground_inspect _ _ _ _ _)
  | enter header o =>
    cases h : Credential.ofHeader? header with
    | error f =>
      refine ground_numbered (by simp [Request.credential?, h, Except.toOption]) ?_
      simp [arrive, enter, h]
    | ok k =>
      have hr : (Request.enter header o).credential? = some k := by simp [Request.credential?, h, Except.toOption]
      simp only [arrive, enter, h, turn, hr]
      exact ground_follow _ _ _ _
  | http q =>
    cases hw : Filter.way q with
    | direct x =>
      refine ground_numbered (by simp [Request.credential?, hw]) ?_
      simp [arrive, hw]
    | health =>
      refine ground_numbered (by simp [Request.credential?, hw]) ?_
      simp [arrive, hw]
    | gate =>
      cases h : q.credential with
      | error f =>
        refine ground_numbered (by simp [Request.credential?, hw, h, Except.toOption]) ?_
        simp [arrive, hw, enter, h]
      | ok k =>
        have hr : (Request.http q).credential? = some k := by simp [Request.credential?, hw, h, Except.toOption]
        simp only [arrive, hw, enter, h, turn, hr]
        exact ground_follow _ _ _ _

/-- What an event leaves of the ground. -/
theorem ground_step (g : Gate) (e : Event) :
    (g.step e).ground = ⟨g.clockAfter e, (g.turn e).next, g.localsAfter e, g.limiter.policy, g.nextAfter e,
      g.authorizations ++ g.verdicts e⟩ := by
  have same : g.ground = ⟨g.clock, g.authenticator, g.locals, g.limiter.policy, g.next, g.authorizations ++ []⟩ := by
    rw [List.append_nil]; rfl
  cases e with
  | arrived r => exact ground_arrive g r
  | resumed c =>
    cases h : g.calls.get? c with
    | none =>
      simp only [step, withCall, turn, verdicts, h, Option.map_none, Option.getD_none]
      exact same
    | some x =>
      obtain ⟨r, s⟩ := x
      cases s <;> simp only [step, withCall, turn, verdicts, h, Option.map_some, Option.getD_some, verdict_still]
      case authenticating => exact ground_follow _ _ _ _
      all_goals exact same
  | lookedUp c f =>
    cases h : g.calls.get? c with
    | none =>
      simp only [step, withCall, turn, verdicts, h, Option.map_none, Option.getD_none]
      exact same
    | some x =>
      obtain ⟨r, s⟩ := x
      cases s <;> simp only [step, withCall, turn, verdicts, h, Option.map_some, Option.getD_some, verdict_still]
      case authenticating => exact ground_follow _ _ _ _
      all_goals exact same
  | replied c x =>
    refine Eq.trans ?_ same
    simp only [step, withCall]
    split
    · exact ground_hear _ _ _ _
    · rfl
  | countedLocally c =>
    cases h : g.calls.get? c with
    | none =>
      simp only [step, withCall, localsAfter, h]
      exact same
    | some x =>
      obtain ⟨r, s⟩ := x
      cases s <;> simp only [step, withCall, localsAfter, h]
      case countingLocally a who =>
        simp only [countLocally, ground_counted, verdicts, List.append_nil]
        rfl
      all_goals exact same
  | failedLocally c f =>
    refine Eq.trans ?_ same
    simp only [step, withCall]
    split
    · split <;> simp
    · rfl
  | pinged c p =>
    refine Eq.trans ?_ same
    simp only [step, withCall]
    split
    · split <;> simp
    · rfl
  | cancelled c =>
    cases h : g.calls.get? c <;> simp only [step, withCall, turn, h, verdicts, List.append_nil] <;> rfl
  | advanced ms => simp only [verdicts, List.append_nil]; rfl
  | set t => simp only [verdicts, List.append_nil]; rfl
  | swept x => cases x <;> (simp only [verdicts, List.append_nil]; rfl)

theorem step_authenticator (g : Gate) (e : Event) : (g.step e).authenticator = (g.turn e).next :=
  congrArg Ground.authenticator (ground_step g e)

theorem step_locals (g : Gate) (e : Event) : (g.step e).locals = g.localsAfter e :=
  congrArg Ground.locals (ground_step g e)

theorem step_policy (g : Gate) (e : Event) : (g.step e).limiter.policy = g.limiter.policy :=
  congrArg Ground.policy (ground_step g e)

theorem step_next (g : Gate) (e : Event) : (g.step e).next = g.nextAfter e :=
  congrArg Ground.next (ground_step g e)

theorem step_next_le (g : Gate) (e : Event) : g.next ≤ (g.step e).next := by
  rw [step_next]
  cases e <;> first | exact Nat.le_succ _ | exact Nat.le_refl _

theorem step_authorizations (g : Gate) (e : Event) :
    (g.step e).authorizations = g.authorizations ++ g.verdicts e :=
  congrArg Ground.authorizations (ground_step g e)

/-- Whoever needs a lookup is on a flight, and asks. -/
theorem passenger_of_lookup {g : Gate} {c : CallId} {k : Credential} (h : g.need? c = some (.lookup k)) :
    ∃ p, g.authenticator.passengers.get? c = some p ∧ p.asking = true ∧ p.credential = k := by
  unfold need? at h
  obtain ⟨⟨r, s⟩, -, h⟩ := Option.bind_eq_some_iff.mp h
  cases s with
  | authenticating =>
    obtain ⟨p, hp, h⟩ := Option.bind_eq_some_iff.mp h
    split at h
    · rename_i asking
      cases h
      exact ⟨p, hp, asking, rfl⟩
    · cases h
  | _ => cases h

/-! ## A run -/

@[simp] theorem run_nil (g : Gate) : g.run [] = g := rfl

theorem run_cons (g : Gate) (e : Event) (es : List Event) : g.run (e :: es) = (g.step e).run es := rfl

theorem run_append (g : Gate) (es es' : List Event) : g.run (es ++ es') = (g.run es).run es' :=
  List.foldl_append

theorem run_snoc (g : Gate) (es : List Event) (e : Event) : g.run (es ++ [e]) = (g.run es).step e := by
  simp [run]

end Gate

end Gateway
