/-
  Gateway.Proofs.Entitlement — what a call has been told when it spends.

  A call in progress keeps the request with which it came. While it waits for its flight
  it has been told nothing yet, and it is told once at most. An attempt that it carries is
  one of its own class and principal: those it named itself, if it came to spend, or the
  class that it asks for and the account that it was told (`Owns`). All events keep this
  (`Entitled`). So a call that is never let in carries no attempt, and nothing that
  happens to it touches the limiter; and whoever is answered an admission has had its
  attempt counted, for the authorization that it was told. An attempt that a call makes of
  itself begins when the call comes (`began_on_arrival`).
-/

import Gateway.Proofs.Provenance
import Gateway.Proofs.Ventures

namespace Gateway.Gate

section

variable (g₀ : Gate)

/-- Call `c` comes right after `pre`, with request `r`. -/
def Came (es pre : List Event) (c : CallId) (r : Request) : Prop :=
  pre ++ [.arrived r] <+: es ∧ c = (g₀.run pre).next

/-- The call with this request may spend the attempt: on its own account of what it names, or
for the authorization that it has been told. -/
def Owns (es : List Event) (c : CallId) (r : Request) (a : Attempt) : Option Authorization → Prop
  | none => ∃ p, r = .spend p a.key.operation ∧ a.key.principal = p.text
  | some w => operation? r = some a.key.operation ∧ a.key.principal = w.account.text ∧ Told g₀ es c (.ok w)

structure Entitled (es : List Event) : Prop where
  came : ∀ c y, (g₀.run es).calls.get? c = some y → ∃ pre, Came g₀ es pre c y.request
  untold : ∀ c r, (g₀.run es).calls.get? c = some ⟨r, .authenticating⟩ → ∀ x, ¬ Told g₀ es c x
  owns : ∀ c y a who, (g₀.run es).calls.get? c = some y → y.stage.carried? = some (a, who) →
    Owns g₀ es c y.request a who
  told : ∀ c x, Told g₀ es c x → c < (g₀.run es).next

end

variable {g g₀ : Gate} {es es' pre : List Event} {c : CallId} {r : Request} {e : Event}

/-! ## What lasts -/

theorem Came.mono (hs : es <+: es') : Came g₀ es pre c r → Came g₀ es' pre c r
  | ⟨h, hc⟩ => ⟨h.trans hs, hc⟩

theorem Told.mono (hs : es <+: es') {x : Except Failure Authorization} : Told g₀ es c x → Told g₀ es' c x
  | ⟨pre, e, h, rest⟩ => ⟨pre, e, h.trans hs, rest⟩

theorem Owns.mono (hs : es <+: es') {a : Attempt} {who : Option Authorization} (h : Owns g₀ es c r a who) :
    Owns g₀ es' c r a who := by
  cases who with
  | none => exact h
  | some w => exact ⟨h.1, h.2.1, h.2.2.mono hs⟩

theorem Came.lt (h : Came g₀ es pre c r) : c < (g₀.run es).next := by
  obtain ⟨came, rfl⟩ := h
  exact next_lt_of_arrived came

/-- No call comes twice. -/
theorem Came.unique {pre' : List Event} {r' : Request} (h : Came g₀ es pre c r) (h' : Came g₀ es pre' c r') :
    pre = pre' ∧ r = r' := by
  obtain ⟨hp, he⟩ := arrived_once h.1 h'.1 (h.2.symm.trans h'.2)
  exact ⟨hp, by cases he; rfl⟩

/-! ## Being told -/

/-- Only a call that comes with a credential, or waits for its flight, is told anything. -/
theorem told_cases {x : Except Failure Authorization} (h : (g.turn e).result = some x) :
    (∃ r k, e = .arrived r ∧ r.credential? = some k) ∨
      (∃ r, g.calls.get? (g.speaker e) = some ⟨r, .authenticating⟩) ∧ ((∃ c, e = .resumed c) ∨ ∃ c f, e = .lookedUp c f) := by
  cases e with
  | arrived r =>
    cases hr : r.credential? with
    | none => rw [mute_arrived hr] at h; cases h
    | some k => exact Or.inl ⟨r, k, rfl, hr⟩
  | resumed c =>
    rcases turn_resumed g c with ht | ⟨r, hc, -⟩
    · rw [ht] at h; cases h
    · exact Or.inr ⟨⟨r, hc⟩, Or.inl ⟨c, rfl⟩⟩
  | lookedUp c f =>
    rcases turn_lookedUp g c f with ht | ⟨r, hc, -⟩
    · rw [ht] at h; cases h
    · exact Or.inr ⟨⟨r, hc⟩, Or.inr ⟨c, f, rfl⟩⟩
  | cancelled c => rcases turn_cancelled g c with ht | ht <;> (rw [ht] at h; cases h)
  | swept s => cases s <;> cases h
  | replied c x => cases h
  | countedLocally c => cases h
  | failedLocally c f => cases h
  | pinged c p => cases h
  | advanced ms => cases h
  | set t => cases h

/-- Whoever is told something is the one that the event concerns. -/
theorem told_concerned {x : Except Failure Authorization} (h : (g.turn e).result = some x) :
    g.concerned e = some (g.speaker e) := by
  rcases told_cases h with ⟨r, k, rfl, -⟩ | ⟨-, ⟨c, rfl⟩ | ⟨c, f, rfl⟩⟩ <;> rfl

/-- Whoever is told something waits for its flight no more. -/
theorem told_moves {x : Except Failure Authorization} (h : (g.turn e).result = some x) :
    (g.step e).calls.get? (g.speaker e) ≠ some ⟨r, .authenticating⟩ := by
  have on := told_concerned h
  intro waits
  cases step_passage g e with
  | idle _ _ mute => rw [mute] at h; cases h
  | dropped c is => rcases told_cases h with ⟨r, k, he, -⟩ | ⟨-, ⟨c, he⟩ | ⟨c, f, he⟩⟩ <;> (rw [is] at he; cases he)
  | waits _ _ _ _ _ mute => rw [mute] at h; cases h
  | begins c r' v a s l enters _ _ _ goes =>
    have same : c = g.speaker e := Option.some.inj (enters.on.symm.trans on)
    rw [goes.calls, same] at waits
    simp only [Course.calls, Table.get?_insert_self, Option.some.injEq, Call.mk.injEq] at waits
    cases s <;> cases waits.2
  | falls c _ _ _ _ is =>
    rcases told_cases h with ⟨r, k, he, -⟩ | ⟨-, ⟨c, he⟩ | ⟨c, f, he⟩⟩ <;> (rw [is] at he; cases he)
  | ends c r' x concerns _ _ goes =>
    have same : c = g.speaker e := Option.some.inj (concerns.on.symm.trans on)
    rw [goes.calls, same] at waits
    simp [Course.calls, Table.get?_erase] at waits

/-- What is told in a longer run was told before, or is told by the last event. -/
theorem told_snoc {x : Except Failure Authorization} (h : Told g₀ (es ++ [e]) c x) :
    Told g₀ es c x ∨ ((g₀.run es).speaker e = c ∧ ((g₀.run es).turn e).result = some x) := by
  obtain ⟨pre, e', came, hc, hx⟩ := h
  rcases before_or_same came with before | ⟨rfl, rfl⟩
  · exact Or.inl ⟨pre, e', before, hc, hx⟩
  · exact Or.inr ⟨hc, hx⟩

theorem start_entitled (t : Instant) (cache : Cache) (limiter : Limiter) (pinger : Option Span) :
    Entitled (start t cache limiter pinger) [] := by
  have untold : ∀ c x, ¬ Told (start t cache limiter pinger) [] c x := by
    intro c x told
    obtain ⟨pre, e, came, -⟩ := told
    exact absurd (List.prefix_nil.mp came) (by simp)
  have empty : ∀ c y, ((start t cache limiter pinger).run []).calls.get? c ≠ some y := by
    intro c y h
    cases h
  exact ⟨fun c y h => absurd h (empty c y), fun c r h => absurd h (empty c _),
    fun c y _ _ h => absurd h (empty c y), fun c x told => absurd told (untold c x)⟩

/-- The call that an event concerns came with its request. -/
theorem Entitled.concerns_came (h : Entitled g₀ es) (he : (g₀.run es).Concerns e c r) :
    ∃ pre, Came g₀ (es ++ [e]) pre c r := by
  rcases he.comes with rfl | ⟨s, hc⟩
  · exact ⟨es, List.prefix_refl _, (Option.some.inj he.on).symm⟩
  · obtain ⟨pre, came⟩ := h.came c _ hc
    exact ⟨pre, came.mono (List.prefix_append _ _)⟩

/-- Whoever enters has been told nothing before. -/
theorem Entitled.enters_untold (h : Entitled g₀ es) (he : (g₀.run es).Enters e c r)
    {x : Except Failure Authorization} : ¬ Told g₀ es c x := by
  intro told
  rcases he.comes with rfl | hc
  · have := h.told c x told
    rw [← Option.some.inj he.on] at this
    exact absurd this (Nat.lt_irrefl _)
  · exact h.untold c r hc x told

/-- A call that begins an attempt may spend it. -/
theorem begins_owns {v : Venture} {a : Attempt} {s : Source} {l : Limiter} (he : (g₀.run es).Enters e c r)
    (why : Warrants r ((g₀.run es).turn e).result v) (sent : (g₀.run es).send v = some (a, s, l)) :
    Owns g₀ (es ++ [e]) c r a v.who := by
  have key := (WindowKey.containing_ok.mp (begin_spec (send_eq_some.mp sent)).1).2.2
  have operation : a.key.operation = v.operation := by rw [key]
  have principal : a.key.principal = v.account.text := by rw [key]
  rcases why with ⟨p, o, rfl, rfl⟩ | why
  · exact ⟨p, by rw [operation], principal⟩
  · unfold granted at why
    split at why
    · rename_i o w ho hw
      cases why
      refine ⟨by rw [operation]; exact ho, principal, es, e, List.prefix_refl _, ?_, hw⟩
      exact Option.some.inj ((told_concerned hw).symm.trans he.on)
    · cases why

theorem step_entitled (h : Entitled g₀ es) (e : Event) : Entitled g₀ (es ++ [e]) := by
  have later : es <+: es ++ [e] := List.prefix_append _ _
  refine ⟨fun c y hy => ?_, fun c r hc x told => ?_, fun c y a who hy hc => ?_, fun c x told => ?_⟩
  · rw [run_snoc] at hy
    cases since hy with
    | same call =>
      obtain ⟨pre, came⟩ := h.came c y call
      exact ⟨pre, came.mono later⟩
    | waits enters => exact h.concerns_came enters.concerns
    | begins _ _ _ _ enters => exact h.concerns_came enters.concerns
    | falls a who call =>
      obtain ⟨pre, came⟩ := h.came c _ call
      exact ⟨pre, came.mono later⟩
  · rw [run_snoc] at hc
    rcases told_snoc told with told | ⟨rfl, now⟩
    · cases since hc with
      | same call => exact h.untold c r call x told
      | waits enters => exact h.enters_untold enters told
      | begins _ _ _ _ enters => exact h.enters_untold enters told
      | falls _ _ _ stage => cases stage
    · exact told_moves now hc
  · rw [run_snoc] at hy
    rcases carried_since hy hc with ⟨z, call, same, before⟩ | ⟨v, s, l, enters, -, why, sent, rfl⟩
    · exact same ▸ (h.owns c z a who call before).mono later
    · exact begins_owns enters why sent
  · have moved : (g₀.run es).next ≤ (g₀.run (es ++ [e])).next := by
      rw [run_snoc]
      exact step_next_le _ _
    rcases told_snoc told with told | ⟨rfl, now⟩
    · exact Nat.lt_of_lt_of_le (h.told c x told) moved
    · rcases told_cases now with ⟨r, k, rfl, -⟩ | ⟨⟨r, hc⟩, -⟩
      · exact next_lt_of_arrived (List.prefix_refl _)
      · obtain ⟨pre, came⟩ := h.came _ _ hc
        exact Nat.lt_of_lt_of_le came.lt moved

theorem run_entitled (t : Instant) (cache : Cache) (limiter : Limiter) (pinger : Option Span) (es : List Event) :
    Entitled (start t cache limiter pinger) es := by
  induction es using List.reverseRecOn with
  | nil => exact start_entitled t cache limiter pinger
  | append_singleton es e ih => exact step_entitled ih e

/-- An attempt begins for a call that comes to spend, or that is let in. -/
theorem venture_cases {v : Venture} (h : g.venture e = some v) :
    (∃ p o, e = .arrived (.spend p o)) ∨ ∃ w, (g.turn e).result = some (.ok w) ∧ v.who = some w := by
  have granted_ok : ∀ {r x}, granted r x = some v → ∃ w, x = some (.ok w) ∧ v.who = some w := by
    intro r x hg
    unfold granted at hg
    split at hg
    · cases hg
      exact ⟨_, rfl, rfl⟩
    · cases hg
  unfold venture at h
  split at h
  · exact Or.inl ⟨_, _, rfl⟩
  · exact Or.inr (granted_ok h)
  · obtain ⟨x, -, h⟩ := Option.bind_eq_some_iff.mp h
    exact Or.inr (granted_ok h)
  · obtain ⟨x, -, h⟩ := Option.bind_eq_some_iff.mp h
    exact Or.inr (granted_ok h)
  · cases h

/-- An attempt that a call makes of itself begins at the instant at which the call comes. -/
theorem began_on_arrival (hg : g₀.calls = Table.empty) {y : Call} {a : Attempt} (hy : (g₀.run es).calls.get? c = some y)
    (hc : y.stage.carried? = some (a, none)) : ∃ pre p o, Came g₀ es pre c (.spend p o) ∧ a.began = (g₀.run pre).now := by
  induction es using List.reverseRecOn generalizing y with
  | nil => rw [run_nil, hg] at hy; cases hy
  | append_singleton es e ih =>
    have later : es <+: es ++ [e] := List.prefix_append _ _
    rw [run_snoc] at hy
    rcases carried_since hy hc with ⟨z, call, -, before⟩ | ⟨v, s, l, enters, ventured, -, sent, unnamed⟩
    · obtain ⟨pre, p, o, came, began⟩ := ih call before
      exact ⟨pre, p, o, came.mono later, began⟩
    · rcases venture_cases ventured with ⟨p, o, rfl⟩ | ⟨w, -, named⟩
      · exact ⟨es, p, o, ⟨List.prefix_refl _, (Option.some.inj enters.on).symm⟩,
          (begin_spec (send_eq_some.mp sent)).2.2.1⟩
      · rw [unnamed] at named
        cases named

structure Outside (g₀ : Gate) (es : List Event) (c : CallId) : Prop where
  untold : ∀ w, ¬ Told g₀ es c (.ok w)
  other : ∀ pre p o, ¬ Came g₀ es pre c (.spend p o)

theorem Outside.before (h : Outside g₀ es' c) (hs : es <+: es') : Outside g₀ es c :=
  ⟨fun w told => h.untold w (told.mono hs), fun pre p o came => h.other pre p o (came.mono hs)⟩

/-- It carries no attempt. -/
theorem Outside.bare (h : Outside g₀ es c) (entitled : Entitled g₀ es) {y : Call}
    (hy : (g₀.run es).calls.get? c = some y) : y.stage.carried? = none := by
  cases hc : y.stage.carried? with
  | none => rfl
  | some x =>
    obtain ⟨a, who⟩ := x
    have owns := entitled.owns c y a who hy hc
    cases who with
    | none =>
      obtain ⟨p, hp, -⟩ := owns
      obtain ⟨pre, came⟩ := entitled.came c y hy
      rw [hp] at came
      exact absurd came (h.other pre p _)
    | some w => exact absurd owns.2.2 (h.untold w)

/-- Nothing that happens to it touches the limiter. -/
theorem Outside.unmoved (h : Outside g₀ (es ++ [e]) c) (entitled : Entitled g₀ es)
    (on : (g₀.run es).concerned e = some c) : ((g₀.run es).step e).limiter = (g₀.run es).limiter := by
  have unventured : (g₀.run es).venture e = none := by
    cases hv : (g₀.run es).venture e with
    | none => rfl
    | some v =>
      rcases venture_cases hv with ⟨p, o, rfl⟩ | ⟨w, hw, -⟩
      · exact absurd ⟨List.prefix_refl _, (Option.some.inj on).symm⟩ (h.other es p o)
      · have speaks := (told_concerned hw).symm.trans on
        exact absurd ⟨es, e, List.prefix_refl _, Option.some.inj speaks, hw⟩ (h.untold w)
  rw [step_limiter]
  unfold limiterAfter begun
  rw [unventured]
  show (g₀.run es).heard e = _
  unfold heard
  split
  · split
    · rename_i d reply r a who hd
      cases on
      have bare := (h.before (List.prefix_append es _)).bare entitled hd
      cases bare
    · rfl
  · rfl

/-! ## Answers -/

end Gateway.Gate
