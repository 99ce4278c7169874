/-
  Gateway.Proofs.Recovery — an instance always comes back to the shared store.

  A mark keeps an instance away from the store until it is passed, so what could keep it
  away for ever is a mark far ahead. But every mark is a cool-down after an instant that
  an operation was given. Whether failures come late, probes move the mark and are then
  abandoned, or operations overlap: no mark lies further ahead than a cool-down after the
  latest of these instants (`Opens`), and who comes then tries the store.

  Proved:
  (1) for operations one after another (`after_opens`),
  (2) for the single accesses of operations that overlap (`run_opens`),
  (3) for the runs of an instance, whose events are such operations (`run_health`); there
      the attempt goes to the store, and an answer ends the degraded time (`never_wedged`).
-/

import Gateway.Proofs.Cooldown
import Gateway.Proofs.Outage
import Gateway.Proofs.Overlap
import Gateway.Proofs.Settings

namespace Gateway

namespace Health

/-! ## (1) Operations one after another -/

def Act.date? : Act → Option Instant
  | .probe now => some now
  | .success => none
  | .failure now => some now

def dates (as : List Act) : List Instant := as.filterMap Act.date?

def Opens (u : Instant) (h : Health) : Prop := h.mark = well ∨ h.mark ≤ u

variable {h : Health} {u m now : Instant} {as : List Act} {a : Act} {d : Span}

theorem start_opens (d : Span) (u : Instant) : (start d).Opens u := Or.inl rfl

theorem probe_fst_iff : (h.probe now).1 = true ↔ h.mark = well ∨ h.mark ≤ now := by
  unfold probe
  cases hr : h.read now with
  | free => exact iff_of_true rfl (Or.inl (read_eq_free_iff.mp hr))
  | skip =>
    refine iff_of_false Bool.false_ne_true ?_
    unfold read at hr
    rintro (isWell | passed)
    · rw [if_pos isWell] at hr
      cases hr
    · rw [if_neg (Int.not_lt.mpr passed)] at hr
      split at hr <;> cases hr
  | contend mark =>
    obtain ⟨same, -, passed⟩ := read_eq_contend_iff.mp hr
    refine iff_of_true ?_ (Or.inr (same ▸ passed))
    simp only [exchange, same, if_true]

theorem Opens.probe (ho : h.Opens u) (hn : u ≤ now) : (h.probe now).1 = true :=
  probe_fst_iff.mpr (ho.imp_right fun before => Int.le_trans before hn)

theorem exchange_opens (ho : h.Opens u) (hd : h.deadline now ≤ u) (mark : Int) : (h.exchange mark now).2.Opens u := by
  unfold exchange
  split
  · exact Or.inr hd
  · exact ho

theorem apply_opens (ho : h.Opens u) (hd : ∀ b, a.date? = some b → h.deadline b ≤ u) : (h.apply a).Opens u := by
  cases a with
  | probe now =>
    show (h.probe now).2.Opens u
    unfold probe
    cases h.read now with
    | free => exact ho
    | skip => exact ho
    | contend mark => exact exchange_opens ho (hd now rfl) mark
  | success => exact Or.inl rfl
  | failure now => exact Or.inr (hd now rfl)

/-- A mark set at an instant up to `m` is passed when the cool-down after `m` is over. -/
theorem deadline_le (hc : h.cooldown = Word.clamp d.millis) {b : Instant} (hb : b ≤ m) :
    h.deadline b ≤ Word.clamp (m + Word.clamp d.millis) := by
  unfold deadline
  rw [hc]
  exact Word.clamp_le_clamp (Int.add_le_add_right hb _)

theorem after_opens (hm : ∀ b ∈ dates as, b ≤ m) :
    ((start d).after as).Opens (Word.clamp (m + Word.clamp d.millis)) := by
  induction as using List.reverseRecOn with
  | nil => exact start_opens d _
  | append_singleton as a ih =>
    rw [dates, List.filterMap_append] at hm
    rw [after_snoc]
    refine apply_opens (ih fun b hb => hm b (List.mem_append_left _ hb)) fun b hb => ?_
    have cools : ((start d).after as).cooldown = Word.clamp d.millis := after_cooldown _ _
    refine deadline_le cools (hm b (List.mem_append_right _ ?_))
    simp [hb]

end Health

namespace Overlap

open Health (Act)

/-! ## (2) Operations that overlap -/

def dates (act : CallId → Act) (cs : List CallId) : List Instant := cs.filterMap fun c => (act c).date?

variable {act : CallId → Act} {s : State} {cs : List CallId} {u m : Instant} {d : Span}

theorem step_opens (act : CallId → Act) (c : CallId) (ho : s.health.Opens u)
    (hd : ∀ b, (act c).date? = some b → s.health.deadline b ≤ u) :
    (step act s c).health.Opens u ∧ (step act s c).health.cooldown = s.health.cooldown := by
  have access := step_access act s c
  generalize step act s c = t, (marks act s c).toList = ms, (counts act s c).toList = ns at access ⊢
  cases access with
  | idle => exact ⟨ho, rfl⟩
  | reads => exact ⟨ho, rfl⟩
  | exchanges now mark probes =>
    exact ⟨Health.exchange_opens ho (hd now (by rw [probes]; rfl)) mark, Health.exchange_cooldown _ _ _⟩
  | clearsMark => exact ⟨Or.inl rfl, rfl⟩
  | clearsCount => exact ⟨ho, rfl⟩
  | setsMark now fails => exact ⟨Or.inr (hd now (by rw [fails]; rfl)), rfl⟩
  | counts => exact ⟨ho, rfl⟩

theorem run_opens (ho : s.health.Opens (Word.clamp (m + Word.clamp d.millis)))
    (hc : s.health.cooldown = Word.clamp d.millis) (hm : ∀ b ∈ dates act cs, b ≤ m) :
    (run act s cs).health.Opens (Word.clamp (m + Word.clamp d.millis)) := by
  induction cs generalizing s with
  | nil => exact ho
  | cons c cs ih =>
    obtain ⟨opens, cools⟩ := step_opens act c ho fun b hb =>
      Health.deadline_le hc (hm b (List.mem_filterMap.mpr ⟨c, List.mem_cons_self, hb⟩))
    refine ih opens (cools.trans hc) fun b hb => hm b ?_
    obtain ⟨x, hx, date⟩ := List.mem_filterMap.mp hb
    exact List.mem_filterMap.mpr ⟨x, List.mem_cons_of_mem _ hx, date⟩

end Overlap

namespace Gate

/-! ## (3) Runs of an instance -/

def beat (g : Gate) : Event → Option Health.Act
  | .replied c (.counted _) => match g.calls.get? c with
    | some ⟨_, .counting _ _⟩ => some .success
    | _ => none
  | .replied c _ => match g.calls.get? c with
    | some ⟨_, .counting a _⟩ => some (.failure a.began)
    | _ => none
  | e => if g.limiter.shared && g.attempts e then some (.probe g.now) else none

def beats (g : Gate) : List Event → List Health.Act
  | [] => []
  | e :: es => (g.beat e).toList ++ (g.step e).beats es

variable {g : Gate} {e : Event} {c : CallId} {r : Request} {a : Attempt} {who : Option Authorization}

theorem replied_health (g : Gate) (c : CallId) (reply : Limiter.Reply) :
    (g.heard (.replied c reply)).health = g.limiter.health.after (g.beat (.replied c reply)).toList := by
  cases h : g.calls.get? c with
  | none => cases reply <;> simp only [heard, beat, h] <;> rfl
  | some x =>
    obtain ⟨r, s⟩ := x
    cases s <;> cases reply <;> simp only [heard, beat, h] <;> rfl

theorem step_health (g : Gate) (e : Event) : (g.step e).limiter.health = g.limiter.health.after (g.beat e).toList := by
  rw [step_limiter]
  by_cases hr : ∃ c reply, e = .replied c reply
  · obtain ⟨c, reply, rfl⟩ := hr
    exact replied_health g c reply
  · have unheard : g.heard e = g.limiter := by
      unfold heard
      split
      · exact absurd ⟨_, _, rfl⟩ hr
      · rfl
    have asks : g.beat e = if g.limiter.shared && g.attempts e then some (.probe g.now) else none := by
      unfold beat
      split
      · exact absurd ⟨_, _, rfl⟩ hr
      · exact absurd ⟨_, _, rfl⟩ hr
      · rfl
    rw [limiterAfter, unheard, asks]
    cases hb : g.begun e with
    | none => simp [attempts, hb, Health.after]
    | some x =>
      obtain ⟨a, s, l⟩ := x
      obtain ⟨v, -, sent⟩ := Option.bind_eq_some_iff.mp hb
      obtain ⟨-, -, -, goes⟩ := begin_spec (send_eq_some.mp sent)
      cases hs : g.limiter.shared with
      | false =>
        rw [hs, if_neg Bool.false_ne_true] at goes
        simp [goes.2, Health.after]
      | true =>
        rw [if_pos hs] at goes
        simp [goes.2, attempts, hb, Health.after, Health.apply]

theorem run_health (g : Gate) (es : List Event) : (g.run es).limiter.health = g.limiter.health.after (g.beats es) := by
  induction es generalizing g with
  | nil => rfl
  | cons e es ih =>
    show ((g.step e).run es).limiter.health = _
    rw [ih, step_health, beats, Health.after, Health.after, Health.after, List.foldl_append]

/-! ### Attempts that go to the store -/

theorem begun_contacts {u : Instant} (hs : g.limiter.shared = true) (ho : g.limiter.health.Opens u) (hu : u ≤ g.now)
    (h : g.attempts e = true) : g.contacts e = true ∧ ∃ a, a.began = g.now ∧ g.Awaits e a .shared := by
  unfold attempts at h
  obtain ⟨⟨a, s, l⟩, hb⟩ := Option.isSome_iff_exists.mp h
  obtain ⟨v, -, sent⟩ := Option.bind_eq_some_iff.mp hb
  obtain ⟨-, -, began, goes⟩ := begin_spec (send_eq_some.mp sent)
  rw [if_pos hs, ho.probe hu] at goes
  obtain ⟨rfl, -⟩ := goes
  refine ⟨?_, a, began, begun_awaits hb⟩
  simp only [contacts, hb, Option.any_some, if_true, decide_true]

theorem spend_attempts {p : AccountId} {o : Operation} {k : WindowKey}
    (h : WindowKey.containing p o (g.limiter.policy.rule o).window g.now = .ok k) :
    g.attempts (.arrived (.spend p o)) = true := by
  unfold attempts begun send
  simp only [venture, Option.bind_some, Limiter.begin_tries h]
  rfl

/-- The store's answer to an attempt is the count that the call is told, and ends the degraded
time. -/
structure Settles (g : Gate) (c : CallId) (r : Request) (a : Attempt) (who : Option Authorization) (n : Nat) : Prop where
  decides : g.made (.replied c (.counted n)) = some ⟨c, who, ⟨a.key, n, a.limit, .shared⟩⟩
  answers : (g.step (.replied c (.counted n))).answers =
    g.answers ++ [(c, awarded g.now r who ⟨a.key, n, a.limit, .shared⟩)]
  well : (g.step (.replied c (.counted n))).limiter.degraded = false

theorem settles (hs : g.limiter.shared = true) (h : g.calls.get? c = some ⟨r, .counting a who⟩) (n : Nat) :
    Settles g c r a who n := by
  refine ⟨by simp only [made, h]; rfl, ?_, ?_⟩
  · have goes := counted_ends (g := { g with limiter := (g.limiter.hear a (.counted n)).2.1 }.say
      (g.limiter.hear a (.counted n)).2.2) (c := c) (r := r) who (Limiter.Attempt.decide a n .shared)
    simp only [step, withCall, h]
    exact goes.answers
  · have beats : g.beat (.replied c (.counted n)) = some .success := by simp only [beat, h]
    unfold Limiter.degraded
    rw [step_shared, hs, step_health, beats]
    rfl

/-- Let `m` be no earlier than any instant that an operation has been given. From `m` plus the
cool-down on, whoever asks is let try the store: after operations one after another, of
which a probe need not be followed by an outcome, and after single accesses of operations
that overlap. So in any run of an instance with a shared store, where calls wait, fail and
are cancelled at will, an attempt that begins then goes to the store. If the store answers
the call that makes it, the decision is the store's, and the instance is no longer degraded. -/
theorem never_wedged (d : Span) (m : Instant) :
    let u := Word.clamp (m + Word.clamp d.millis)
    (∀ as now, (∀ b ∈ Health.dates as, b ≤ m) → u ≤ now → (((Health.start d).after as).probe now).1 = true) ∧
    (∀ act cs now, (∀ b ∈ Overlap.dates act cs, b ≤ m) → u ≤ now →
      ((Overlap.run act (Overlap.start (Health.start d)) cs).health.probe now).1 = true) ∧
    ∀ t cache policy timeout pinger es,
      let g₀ := start t cache (Limiter.sharing policy ⟨timeout, d⟩) pinger
      let g := g₀.run es
      (∀ b ∈ Health.dates (g₀.beats es), b ≤ m) → u ≤ g.now →
        (∀ p o k, WindowKey.containing p o (policy.rule o).window g.now = .ok k →
          g.attempts (.arrived (.spend p o)) = true) ∧
        (∀ e, g.attempts e = true → g.contacts e = true ∧ ∃ a, a.began = g.now ∧ g.Awaits e a .shared) ∧
        ∀ later c r a who n, (g.run later).calls.get? c = some ⟨r, .counting a who⟩ →
          Settles (g.run later) c r a who n := by
  intro u
  refine ⟨fun as now hm hu => (Health.after_opens hm).probe hu, fun act cs now hm hu => ?_, ?_⟩
  · exact (Overlap.run_opens (Health.start_opens d u) rfl hm).probe hu
  · intro t cache policy timeout pinger es g₀ g hm hu
    have shared : ∀ es, (g₀.run es).limiter.shared = true := fun es =>
      (run_sharing (g := g₀) (d := d.millis) rfl rfl es).1
    have opens : g.limiter.health.Opens u := by
      show (g₀.run es).limiter.health.Opens u
      rw [run_health]
      exact Health.after_opens hm
    refine ⟨fun p o k hk => spend_attempts (k := k) ?_, fun e he => begun_contacts (shared es) opens hu he, ?_⟩
    · show WindowKey.containing p o ((g₀.run es).limiter.policy.rule o).window g.now = .ok k
      rw [run_policy]
      exact hk
    · intro later c r a who n waits
      have onward : g.run later = g₀.run (es ++ later) := (run_append g₀ es later).symm
      refine settles ?_ waits n
      rw [onward]
      exact shared _

/-! ### An abandoned probe -/

def wary : Gate :=
  start 0 ⟨Span.zero, Span.ofMillis 500, Table.empty⟩
    (Limiter.sharing Policy.standard ⟨Span.ofMillis 250, Span.ofMillis 5000⟩) none

/-- The store fails an attempt. The call that probes it when the cool-down is over is
cancelled, and another cool-down passes. -/
def abandoned : List Event :=
  [attempt, failure 0, .countedLocally 0, .advanced 5000, attempt, .cancelled 1, .advanced 5000]

/-- The failure, and the probe that has read the mark and not moved it yet. -/
def stalled : CallId → Health.Act
  | 0 => .failure 0
  | _ => .probe 5000

/-- The next attempt goes to the store, whose answer ends the degraded time. -/
theorem abandoned_comes_back :
    let d := Span.ofMillis 5000
    let u := Word.clamp (5000 + Word.clamp d.millis)
    let as := [.probe 0, .failure 0, .probe 5000]
    let g := wary.run abandoned
    let a : Attempt := ⟨⟨"acct", .create, 1000, 10⟩, 20, 10000⟩
    (∀ b ∈ Health.dates as, b ≤ 5000) ∧ u ≤ 10000 ∧ (((Health.start d).after as).probe 10000).1 = true ∧
      (∀ b ∈ Overlap.dates stalled [0, 0, 1], b ≤ 5000) ∧
      ((Overlap.run stalled (Overlap.start (Health.start d)) [0, 0, 1]).health.probe 10000).1 = true ∧
      wary.beats abandoned = as ∧ g.limiter.degraded = true ∧ u ≤ g.now ∧ g.contacts attempt = true ∧
      (g.step attempt).calls.get? 2 = some ⟨.spend ⟨"acct"⟩ .create, .counting a none⟩ ∧
      Settles (g.run [attempt, .advanced 1]) 2 (.spend ⟨"acct"⟩ .create) a none 1 := by
  intro d u as g a
  obtain ⟨one, overlap, runs⟩ := never_wedged d 5000
  have dates : ∀ b ∈ Health.dates as, b ≤ 5000 := by decide
  have past : u ≤ 10000 := by decide
  have overlapping : ∀ b ∈ Overlap.dates stalled [0, 0, 1], b ≤ 5000 := by decide
  have beats : wary.beats abandoned = as := by decide +kernel
  have now : u ≤ g.now := by decide +kernel
  have made : ∀ b ∈ Health.dates (wary.beats abandoned), b ≤ 5000 := by
    rw [beats]
    exact dates
  obtain ⟨begins, contacts, settles⟩ := runs 0 ⟨Span.zero, Span.ofMillis 500, Table.empty⟩ Policy.standard
    (Span.ofMillis 250) none abandoned made now
  have attempted : g.attempts attempt = true := begins ⟨"acct"⟩ .create ⟨"acct", .create, 1000, 10⟩ (by decide +kernel)
  obtain ⟨goes, -⟩ := contacts attempt attempted
  have waits : (g.step attempt).calls.get? 2 = some ⟨.spend ⟨"acct"⟩ .create, .counting a none⟩ := by decide +kernel
  exact ⟨dates, past, one as 10000 dates past, overlapping, overlap stalled [0, 0, 1] 10000 overlapping past, beats,
    by decide +kernel, now, goes, waits, settles [attempt, .advanced 1] 2 _ a none 1 (by decide +kernel)⟩

end Gate

end Gateway
