/-
  Gateway.Proofs.Cooldown — how long a store that has failed is kept away from.

  The mark is set from the instant at which the failed attempt began, by whichever failure
  is noted last. So the store is kept away from until a cool-down after that beginning,
  not after the failure.

  Proved, for any run of an instance with a shared store and a clock that never goes back,
  and any failure at an instant `t` after which the store answers no attempt:
  (1) No attempt that begins before `t` plus the cool-down goes to the store, exactly if
      none begins when a cool-down has passed since the beginning of the attempt that
      failed last (`shields_iff`).
  (2) So none does if the store fails every attempt at the instant at which it began
      (`shields_of_prompt`).
  Traces: an attempt that fails slowly (`a_slow_failure_is_not_shielded`), and one that
  fails after a later one did (`a_late_failure_ends_the_cooldown_early`).
-/

import Gateway.Proofs.LocalCeiling
import Gateway.Proofs.Marks
import Gateway.Proofs.Ventures

namespace Gateway.Gate

/-! ## Attempts and failures -/

def attempts (g : Gate) (e : Event) : Bool := (g.begun e).isSome

def contacts (g : Gate) (e : Event) : Bool := (g.begun e).any fun x => x.2.1 = .shared

/-- The beginning of the attempt that the shared store fails. -/
def fault (g : Gate) : Event → Option Instant
  | .replied _ (.counted _) => none
  | .replied c _ => match g.calls.get? c with
    | some ⟨_, .counting a _⟩ => some a.began
    | _ => none
  | _ => none

def Unanswered (g : Gate) (es : List Event) : Prop := ∀ x ∈ g.rulings es, x.decision.source ≠ .shared

/-- No attempt that begins from `t` on and before `u` goes to the shared store. -/
def Shields (t u : Instant) (g : Gate) : List Event → Prop
  | [] => True
  | e :: es => (t ≤ g.now → g.now < u → g.contacts e = false) ∧ (g.step e).Shields t u es

/-- Before `u`, an attempt begins that finds the cool-down `d` over since the beginning of
the attempt that failed last; `b` is that of the last one so far. -/
def Lapses (d : Nat) (u b : Instant) (g : Gate) : List Event → Prop
  | [] => False
  | e :: es => (g.now < u ∧ g.attempts e = true ∧ b + d ≤ g.now) ∨
      (g.step e).Lapses d u ((g.fault e).getD b) es

variable {g : Gate} {c : CallId} {e : Event} {es : List Event} {d : Nat} {b t u : Instant}

/-! ## The health of the shared store -/

inductive Pulse (g : Gate) (e : Event) : Prop where
  | probed (attempts : g.attempts e = true) (contacts : g.contacts e = (g.limiter.health.probe g.now).1)
      (faultless : g.fault e = none)
      (limiter : (g.step e).limiter = { g.limiter with health := (g.limiter.health.probe g.now).2 })
  | failed (b : Instant) (quiet : g.attempts e = false) (fault : g.fault e = some b)
      (limiter : (g.step e).limiter = { g.limiter with health := (g.limiter.health.failed b).2 })
  | answered (x : Ruling) (quiet : g.attempts e = false) (faultless : g.fault e = none)
      (made : g.made e = some x) (source : x.decision.source = .shared)
      (limiter : (g.step e).limiter = { g.limiter with health := g.limiter.health.succeeded.2 })
  | same (quiet : g.attempts e = false) (faultless : g.fault e = none) (limiter : (g.step e).limiter = g.limiter)

theorem pulse_of_begun (hs : g.limiter.shared = true) {x : Attempt × Source × Limiter} (h : g.begun e = some x)
    (faultless : g.fault e = none) : Pulse g e := by
  obtain ⟨a, s, l⟩ := x
  obtain ⟨v, -, sent⟩ := Option.bind_eq_some_iff.mp h
  obtain ⟨-, -, -, goes⟩ := begin_spec (send_eq_some.mp sent)
  rw [if_pos hs] at goes
  refine .probed (by simp only [attempts, h, Option.isSome_some]) ?_ faultless ?_
  · simp only [contacts, h, Option.any_some, goes.1]
    cases (g.limiter.health.probe g.now).1 <;> rfl
  · rw [step_limiter]
    simp only [limiterAfter, h, Option.map_some, Option.getD_some, goes.2]

theorem replied_pulse (g : Gate) (c : CallId) (reply : Limiter.Reply) : Pulse g (.replied c reply) := by
  have moved : (g.step (.replied c reply)).limiter = g.heard (.replied c reply) := step_limiter _ _
  cases h : g.calls.get? c with
  | none =>
    refine .same rfl ?_ ?_
    · cases reply <;> simp only [fault, h]
    · simp only [moved, heard, h]
  | some x =>
    obtain ⟨r, s⟩ := x
    cases s
    case counting a who =>
      simp only [heard, h] at moved
      cases reply with
      | counted n => exact .answered ⟨c, who, Limiter.Attempt.decide a n .shared⟩ rfl rfl (by simp only [made, h]) rfl moved
      | failed f => exact .failed a.began rfl (by simp only [fault, h]) moved
      | silent => exact .failed a.began rfl (by simp only [fault, h]) moved
    all_goals
      refine .same rfl ?_ ?_
      · cases reply <;> simp only [fault, h]
      · simp only [moved, heard, h]

theorem pulse (hs : g.limiter.shared = true) (e : Event) : Pulse g e := by
  by_cases hr : ∃ c reply, e = .replied c reply
  · obtain ⟨c, reply, rfl⟩ := hr
    exact replied_pulse g c reply
  · have faultless : g.fault e = none := by
      unfold fault
      split
      · rfl
      · exact absurd ⟨_, _, rfl⟩ hr
      · rfl
    cases h : g.begun e with
    | some x => exact pulse_of_begun hs h faultless
    | none =>
      refine .same (by simp only [attempts, h, Option.isSome_none]) faultless ?_
      rw [step_limiter]
      simp only [limiterAfter, h, Option.map_none, Option.getD_none]
      unfold heard
      split
      · exact absurd ⟨_, _, rfl⟩ hr
      · rfl

/-! ## Instants of the calendar -/

structure OnCalendar (g : Gate) : Prop where
  now : g.now.InRange
  began : ∀ c x a who, g.calls.get? c = some x → x.stage.carried? = some (a, who) → a.began.InRange

/-- The clock is set to instants of the calendar only. -/
def Settable (es : List Event) : Prop := ∀ t, .set t ∈ es → t.InRange

theorem start_onCalendar (ht : t.InRange) (cache : Cache) (limiter : Limiter) (pinger : Option Span) :
    (start t cache limiter pinger).OnCalendar := ⟨ht, fun _ _ _ _ h => by cases h⟩

theorem step_clock (g : Gate) (e : Event) : (g.step e).clock = g.clockAfter e :=
  congrArg Ground.clock (ground_step g e)

theorem step_onCalendar (h : g.OnCalendar) (he : ∀ t, e = .set t → t.InRange) : (g.step e).OnCalendar := by
  refine ⟨?_, fun c y a who hy hc => ?_⟩
  · show (g.step e).clock.now.InRange
    have now : g.clock.now.InRange := h.now
    rw [step_clock]
    cases e with
    | advanced ms => exact Clock.advance_inRange now ms
    | set t =>
      simp only [clockAfter, Clock.set]
      split
      · exact now
      · exact he t rfl
    | _ => exact now
  · rcases carried_since hy hc with ⟨z, call, -, before⟩ | ⟨v, s, l, -, -, -, sent, -⟩
    · exact h.began c z a who call before
    · rw [(begin_spec (send_eq_some.mp sent)).2.2.1]
      exact h.now

theorem run_onCalendar (h : g.OnCalendar) (hs : Settable es) : (g.run es).OnCalendar := by
  induction es generalizing g with
  | nil => exact h
  | cons e es ih =>
    refine ih (step_onCalendar h fun t ht => ?_) fun t ht => hs t (List.mem_cons_of_mem _ ht)
    exact hs t (by rw [ht]; exact List.mem_cons_self)

theorem fault_inRange (h : g.OnCalendar) (hf : g.fault e = some b) : b.InRange := by
  unfold fault at hf
  split at hf
  · cases hf
  · split at hf
    · rename_i hc
      cases hf
      exact h.began _ _ _ _ hc rfl
    · cases hf
  · cases hf

/-! ## A store that is kept away from -/

/-- The store has failed, and the mark stands where the attempt that began at `b` puts it. -/
structure Shut (d : Nat) (b : Instant) (g : Gate) : Prop where
  shared : g.limiter.shared = true
  cooldown : g.limiter.health.cooldown = Word.clamp d
  mark : g.limiter.health.mark = g.limiter.health.deadline b
  inRange : b.InRange

theorem quiet_contacts (h : g.attempts e = false) : g.contacts e = false := by
  unfold attempts at h
  unfold contacts
  cases hb : g.begun e with
  | none => rfl
  | some x => rw [hb] at h; cases h

theorem shut_of_fault (hs : g.limiter.shared = true) (hc : g.limiter.health.cooldown = Word.clamp d)
    (hg : g.OnCalendar) (hf : g.fault e = some b) : Shut d b (g.step e) := by
  cases pulse hs e with
  | probed _ _ faultless => rw [faultless] at hf; cases hf
  | failed b' _ fault limiter =>
    rw [fault] at hf
    cases hf
    exact ⟨by rw [limiter]; exact hs, by rw [limiter]; exact hc, by rw [limiter]; rfl, fault_inRange hg fault⟩
  | answered _ _ faultless => rw [faultless] at hf; cases hf
  | same _ faultless => rw [faultless] at hf; cases hf

/-- An attempt that finds the cool-down over goes to the store; until then none does, and the
mark moves with the failures only. -/
theorem step_shut (h : Shut d b g) (hg : g.OnCalendar)
    (hu : ∀ x, g.made e = some x → x.decision.source ≠ .shared) :
    (g.contacts e = true ∧ g.attempts e = true ∧ b + d ≤ g.now) ∨
      (g.contacts e = false ∧ (g.attempts e = true → ¬ b + d ≤ g.now) ∧ Shut d ((g.fault e).getD b) (g.step e)) := by
  cases pulse h.shared e with
  | probed attempts contacts faultless limiter =>
    rw [Health.probe_marked h.cooldown h.mark h.inRange hg.now] at contacts limiter
    by_cases past : b + d ≤ g.now
    · rw [if_pos past] at contacts
      exact Or.inl ⟨contacts, attempts, past⟩
    · rw [if_neg past] at contacts limiter
      refine Or.inr ⟨contacts, fun _ => past, ?_⟩
      rw [faultless]
      exact ⟨by rw [limiter]; exact h.shared, by rw [limiter]; exact h.cooldown, by rw [limiter]; exact h.mark, h.inRange⟩
  | failed b' quiet fault limiter =>
    refine Or.inr ⟨quiet_contacts quiet, fun begins => absurd begins (by rw [quiet]; exact Bool.false_ne_true), ?_⟩
    rw [fault]
    exact shut_of_fault h.shared h.cooldown hg fault
  | answered x _ _ made source => exact absurd source (hu x made)
  | same quiet faultless limiter =>
    refine Or.inr ⟨quiet_contacts quiet, fun begins => absurd begins (by rw [quiet]; exact Bool.false_ne_true), ?_⟩
    rw [faultless]
    exact ⟨by rw [limiter]; exact h.shared, by rw [limiter]; exact h.cooldown, by rw [limiter]; exact h.mark, h.inRange⟩

/-! ## (1) The time that is shielded -/

/-- Nothing begins before `u` any more. -/
theorem shields_over (ho : g.Onward es) (hu : u ≤ g.now) : g.Shields t u es ∧ ¬ g.Lapses d u b es := by
  induction es generalizing g b with
  | nil => exact ⟨trivial, fun h => h⟩
  | cons e es ih =>
    have rest := fun b => ih (b := b) ho.2 (Int.le_trans hu ho.1)
    refine ⟨⟨fun _ before => absurd before (Int.not_lt.mpr hu), (rest b).1⟩, fun w => ?_⟩
    rcases w with ⟨before, -⟩ | w
    · exact absurd before (Int.not_lt.mpr hu)
    · exact (rest _).2 w

/-- The induction is on the run; `b` is where the attempt that failed last began. -/
theorem Shut.shields_unless (h : Shut d b g) (hg : g.OnCalendar) (hs : Settable es) (ho : g.Onward es)
    (hu : g.Unanswered es) (ht : t ≤ g.now) : g.Shields t u es ↔ ¬ g.Lapses d u b es := by
  induction es generalizing g b with
  | nil => exact iff_of_true trivial fun w => w
  | cons e es ih =>
    by_cases hn : u ≤ g.now
    · have past := shields_over (t := t) (d := d) (b := b) ho hn
      exact iff_of_true past.1 past.2
    · have before : g.now < u := Int.not_le.mp hn
      have unmade : ∀ x, g.made e = some x → x.decision.source ≠ .shared := fun x hx =>
        hu x (List.mem_append_left _ (Option.mem_toList.mpr hx))
      rcases step_shut h hg unmade with ⟨contacts, attempts, past⟩ | ⟨away, early, shut⟩
      · refine iff_of_false (fun shields => ?_) fun w => w (Or.inl ⟨before, attempts, past⟩)
        have away := shields.1 ht before
        rw [contacts] at away
        cases away
      · have rest := ih shut (step_onCalendar hg fun s he => hs s (by rw [he]; exact List.mem_cons_self))
          (fun s he => hs s (List.mem_cons_of_mem _ he)) ho.2
          (fun x hx => hu x (List.mem_append_right _ hx)) (Int.le_trans ht ho.1)
        constructor
        · intro shields w
          rcases w with ⟨-, attempts, past⟩ | w
          · exact early attempts past
          · exact rest.mp shields.2 w
        · intro w
          exact ⟨fun _ _ => away, rest.mpr fun lapses => w (Or.inr lapses)⟩

theorem step_sharing (hs : g.limiter.shared = true) (hc : g.limiter.health.cooldown = Word.clamp d) (e : Event) :
    (g.step e).limiter.shared = true ∧ (g.step e).limiter.health.cooldown = Word.clamp d := by
  refine ⟨(step_shared g e).trans hs, ?_⟩
  cases pulse hs e with
  | probed _ _ _ limiter => rw [limiter]; exact (Health.probe_cooldown _ _).trans hc
  | failed b _ _ limiter => rw [limiter]; exact hc
  | answered _ _ _ _ _ limiter => rw [limiter]; exact hc
  | same _ _ limiter => rw [limiter]; exact hc

theorem run_sharing (hs : g.limiter.shared = true) (hc : g.limiter.health.cooldown = Word.clamp d) (es : List Event) :
    (g.run es).limiter.shared = true ∧ (g.run es).limiter.health.cooldown = Word.clamp d := by
  induction es generalizing g with
  | nil => exact ⟨hs, hc⟩
  | cons e es ih =>
    obtain ⟨hs, hc⟩ := step_sharing hs hc e
    exact ih hs hc

theorem onward_append {es' : List Event} (h : g.Onward (es ++ es')) : (g.run es).Onward es' := by
  induction es generalizing g with
  | nil => exact h
  | cons e es ih => exact ih h.2

/-- What a failure leaves in a run of an instance that shares a store. -/
theorem shut_after {cache : Cache} {policy : Policy} {settings : StoreSettings} {pinger : Option Span}
    {pre later : List Event} (hg : g = start t cache (Limiter.sharing policy settings) pinger) (ht : t.InRange)
    (hs : Settable (pre ++ e :: later)) (ho : g.Onward (pre ++ e :: later)) (hf : (g.run pre).fault e = some b) :
    Shut settings.cooldown.millis b ((g.run pre).step e) ∧ ((g.run pre).step e).OnCalendar ∧ Settable later ∧
      (g.run pre).now ≤ ((g.run pre).step e).now ∧ ((g.run pre).step e).Onward later := by
  have onCalendar : (g.run pre).OnCalendar := by
    refine run_onCalendar ?_ fun s hm => hs s (List.mem_append_left _ hm)
    rw [hg]
    exact start_onCalendar ht _ _ _
  have sharing := run_sharing (g := g) (d := settings.cooldown.millis) (by rw [hg]; rfl) (by rw [hg]; rfl) pre
  have on : (g.run pre).Onward (e :: later) := onward_append ho
  have rest : Settable (e :: later) := fun s hm => hs s (List.mem_append_right _ hm)
  have moved := step_onCalendar onCalendar (e := e) fun s he => rest s (by rw [he]; exact List.mem_cons_self)
  exact ⟨shut_of_fault sharing.1 sharing.2 onCalendar hf, moved, fun s hm => rest s (List.mem_cons_of_mem _ hm), on⟩

/-- After a failure, noted at `t` for an attempt that began at `b`, and until the shared store
answers again: no attempt that begins within the cool-down from `t` on goes to the store,
exactly if none begins there that finds the cool-down over since the beginning of the
attempt that failed last. -/
theorem shields_iff (t : Instant) (cache : Cache) (policy : Policy) (settings : StoreSettings) (pinger : Option Span)
    (pre later : List Event) (e : Event) (b : Instant) :
    let g := start t cache (Limiter.sharing policy settings) pinger
    let h := g.run pre
    let u := h.now + settings.cooldown.millis
    t.InRange → Settable (pre ++ e :: later) → g.Onward (pre ++ e :: later) → h.fault e = some b →
      (h.step e).Unanswered later →
      ((h.step e).Shields h.now u later ↔ ¬ (h.step e).Lapses settings.cooldown.millis u b later) := by
  intro g h u ht hs ho hf hu
  obtain ⟨shut, onCalendar, settable, moved, onward⟩ := shut_after rfl ht hs ho hf
  exact shut.shields_unless onCalendar settable onward hu moved

/-! ## (2) Failures that are noted at once -/

/-- The store fails every attempt at the instant at which it began. -/
def FailsAtOnce (g : Gate) : List Event → Prop
  | [] => True
  | e :: es => (∀ b, g.fault e = some b → b = g.now) ∧ (g.step e).FailsAtOnce es

theorem not_lapses_at_once (hp : g.FailsAtOnce es) (ho : g.Onward es) (ht : t ≤ g.now) (hb : t ≤ b) :
    ¬ g.Lapses d (t + d) b es := by
  induction es generalizing g b with
  | nil => exact fun w => w
  | cons e es ih =>
    intro w
    rcases w with ⟨before, -, past⟩ | w
    · exact absurd before (Int.not_lt.mpr (Int.le_trans (Int.add_le_add_right hb _) past))
    · refine ih hp.2 ho.2 (Int.le_trans ht ho.1) ?_ w
      cases hf : g.fault e with
      | none => exact hb
      | some b' =>
        rw [Option.getD_some, hp.1 b' hf]
        exact ht

/-- No attempt within the cool-down after a failure goes to the store, if this failure and
those after it come at once. -/
theorem shields_of_prompt (t : Instant) (cache : Cache) (policy : Policy) (settings : StoreSettings)
    (pinger : Option Span) (pre later : List Event) (e : Event) (b : Instant) :
    let g := start t cache (Limiter.sharing policy settings) pinger
    let h := g.run pre
    t.InRange → Settable (pre ++ e :: later) → g.Onward (pre ++ e :: later) → h.fault e = some b →
      (h.step e).Unanswered later → h.FailsAtOnce (e :: later) →
      (h.step e).Shields h.now (h.now + settings.cooldown.millis) later := by
  intro g h ht hs ho hf hu hp
  obtain ⟨shut, onCalendar, settable, moved, onward⟩ := shut_after rfl ht hs ho hf
  refine (shut.shields_unless onCalendar settable onward hu moved).mpr ?_
  exact not_lapses_at_once hp.2 onward moved (Int.le_of_eq (hp.1 b hf).symm)

/-! ## Failures that come late -/

def patient : Gate :=
  start 0 ⟨Span.zero, Span.ofMillis 500, Table.empty⟩
    (Limiter.sharing Policy.standard ⟨Span.ofMillis 2000, Span.ofMillis 1000⟩) none

def attempt : Event := .arrived (.spend ⟨"acct"⟩ .create)

def failure (c : CallId) : Event := .replied c (.failed ⟨.unavailable, "down"⟩)

/-- The store fails an attempt after one and a half seconds, and then comes another. -/
def slowFailure : List Event := [attempt, .advanced 1500, failure 0, .countedLocally 0, attempt]

/-- That one begins within a second of the failure, but more than a second after the first. -/
theorem slowFailure_shields_iff :
    let h := patient.run (slowFailure.take 2)
    let later := slowFailure.drop 3
    patient.Onward slowFailure ∧ h.fault (failure 0) = some 0 ∧ (h.step (failure 0)).Unanswered later ∧
      ((h.step (failure 0)).Shields h.now (h.now + 1000) later ↔
        ¬ (h.step (failure 0)).Lapses 1000 (h.now + 1000) 0 later) := by
  intro h later
  have onward : patient.Onward slowFailure := by
    simp only [Onward, slowFailure]
    decide +kernel
  have fails : h.fault (failure 0) = some 0 := by decide +kernel
  have unanswered : (h.step (failure 0)).Unanswered later := by
    unfold Unanswered
    decide +kernel
  have settable : Settable slowFailure := fun t hm => by
    simp [slowFailure, attempt, failure] at hm
  exact ⟨onward, fails, unanswered, shields_iff 0 _ _ ⟨Span.ofMillis 2000, Span.ofMillis 1000⟩ none
    (slowFailure.take 2) later (failure 0) 0 (by decide) settable onward fails unanswered⟩

/-- It goes to the store half a second after the store has failed. -/
theorem a_slow_failure_is_not_shielded :
    let h := patient.run (slowFailure.take 2)
    let later := slowFailure.drop 3
    patient.Onward slowFailure ∧ h.fault (failure 0) = some 0 ∧ h.now = 1500 ∧ (h.step (failure 0)).Unanswered later ∧
      ¬ (h.step (failure 0)).Shields h.now (h.now + 1000) later := by
  refine ⟨?_, by decide +kernel, by decide +kernel, ?_, ?_⟩
  · simp only [Onward, slowFailure]
    decide +kernel
  · unfold Unanswered
    decide +kernel
  · simp only [Shields, slowFailure, List.drop]
    decide +kernel

/-- The store fails a second attempt at once, and only then the first. -/
def lateFailure : List Event :=
  [attempt, .advanced 400, attempt, failure 1, .advanced 100, failure 0, .advanced 600, attempt]

/-- The first has begun earlier, so the time that the second has won is cut short. -/
theorem a_late_failure_ends_the_cooldown_early :
    let h := patient.run (lateFailure.take 3)
    let later := lateFailure.drop 4
    patient.Onward lateFailure ∧ h.fault (failure 1) = some h.now ∧ (h.step (failure 1)).Unanswered later ∧
      ¬ (h.step (failure 1)).Shields h.now (h.now + 1000) later := by
  refine ⟨?_, by decide +kernel, ?_, ?_⟩
  · simp only [Onward, lateFailure]
    decide +kernel
  · unfold Unanswered
    decide +kernel
  · simp only [Shields, lateFailure, List.drop]
    decide +kernel

end Gateway.Gate
