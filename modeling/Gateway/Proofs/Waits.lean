/-
  Gateway.Proofs.Waits — the wait that the rejected are told.

  A wait is due if it is at least a second, the window has ended when it is over, and one
  second less would not have been enough. There is one such number of seconds (`due_iff`).
  The rejected are told it wherever what is left of the window is a word, and from the start
  of the window on it is: no more is left than the whole width. Once the wait is over the
  budget has a later key, and so a counter of its own (`renewed`).

  Proved, for any key of an instant of the calendar, and any such instant from the start of
  its window on, be it long past the end:
  (1) No wait is told exactly to those within the limit. The others are told the wait that is
      due, and the later they are told, the shorter it is (`honest_of_around`).
  (2) So it is wherever a run makes a ruling for an authorization: the wait is that of the
      instant of the ruling, however long after the attempt this is, and unless the clock
      has been set back that instant is not before the window (`retryAfter_honest`).
  Trace: with the clock set back before the window a call can break off instead
  (`setBack_breaks_off`).
-/

import Gateway.Proofs.Cooldown
import Gateway.Proofs.CounterNames
import Gateway.Proofs.Doorway
import Gateway.Proofs.Remainders

namespace Gateway

namespace WindowKey

variable {k : WindowKey} {t now later : Int} {s : Nat} {p : AccountId} {o : Operation} {w : Span}

/-! ## The wait that is due -/

/-- Whoever comes back `s` seconds after `now` finds the window ended, and whoever comes a second
earlier does not, unless that is at once. -/
structure Due (k : WindowKey) (now : Int) (s : Nat) : Prop where
  positive : 1 ≤ s
  enough : k.stop ≤ now + 1000 * s
  least : 1 < s → now + 1000 * ((s : Int) - 1) < k.stop

theorem due_iff : k.Due now s ↔ (s : Int) = k.wait now := by
  unfold wait
  constructor
  · intro due
    have positive := due.positive
    have enough := due.enough
    have least := due.least
    omega
  · intro h
    exact ⟨by omega, by omega, by omega⟩

theorem wait_antitone (h : now ≤ later) : k.wait later ≤ k.wait now := by
  unfold wait
  omega

/-- Once the window has ended the budget has a later key, which no counter counts under the
name of the former. -/
theorem renewed (hk : containing p o w t = .ok k) (ht : Instant.InRange t) (ended : k.stop ≤ now) :
    ∃ l, containing p o w now = .ok l ∧ k.index < l.index ∧ l.storageName ≠ k.storageName ∧
      ∀ store : SharedStore, store.nameOf l ≠ store.nameOf k := by
  have later : k.index < now / k.width := (around_of_containing hk).lt_index ht ended
  have other : { k with index := now / k.width } ≠ k := fun same =>
    absurd (congrArg WindowKey.index same) (Ne.symm (Int.ne_of_lt later))
  exact ⟨_, containing_elsewhere hk now, later, fun same => other (storageName_inj same),
    fun store same => other (store.nameOf_inj same)⟩

/-- From the start of the window on, no more is left of it than its width. -/
theorem left_le_greatest (h : k.Around t) (ht : Instant.InRange t) (started : k.start ≤ now) :
    k.stop - now ≤ Word.greatest := by
  have width : k.stop - k.start = k.width := h.stop_sub_start ht
  have wide := h.wide
  omega

end WindowKey

namespace Decision

variable {d : Decision} {t now later : Int}

/-! ## (1) Honest waits -/

/-- Those within the limit are told no wait at `now`, and the others the one that is due. When
it is over the budget has a later key, with counters of other names, and whoever is told
later is told no longer wait. -/
structure Honest (d : Decision) (now : Int) : Prop where
  told : ∃ r, d.retryAfter now = .ok r
  admits : d.retryAfter now = .ok none ↔ d.count ≤ d.limit
  due : ∀ s, d.retryAfter now = .ok (some s) → d.key.Due now s
  renews : ∀ s p o w t, d.retryAfter now = .ok (some s) → Instant.InRange t →
    WindowKey.containing p o w t = .ok d.key →
    ∃ l, WindowKey.containing p o w (now + 1000 * s) = .ok l ∧ d.key.index < l.index ∧
      l.storageName ≠ d.key.storageName ∧ ∀ store : SharedStore, store.nameOf l ≠ store.nameOf d.key
  falls : ∀ s later, d.retryAfter now = .ok (some s) → now ≤ later → Instant.InRange later →
    ∃ r, d.retryAfter later = .ok (some r) ∧ r ≤ s

theorem retryAfter_of_started (on : d.key.Around t) (ht : Instant.InRange t) (hn : Instant.InRange now)
    (started : d.key.start ≤ now) (rejected : d.limit < d.count) :
    ∃ s, d.retryAfter now = .ok (some s) ∧ (s : Int) = d.key.wait now :=
  retryAfter_of_word rejected (WindowKey.least_le_left on ht hn) (WindowKey.left_le_greatest on ht started)

theorem honest_of_around (on : d.key.Around t) (ht : Instant.InRange t) (hn : Instant.InRange now)
    (started : d.key.start ≤ now) : d.Honest now := by
  have told : ∀ {later s}, Instant.InRange later → d.key.start ≤ later → d.retryAfter later = .ok (some s) →
      (s : Int) = d.key.wait later := by
    intro later s hl started h
    obtain ⟨r, hr, wait⟩ := retryAfter_of_started on ht hl started (limit_lt_of_retryAfter h)
    rw [h] at hr
    cases hr
    exact wait
  refine ⟨?_, ⟨fun none => Nat.not_lt.mp fun rejected => ?_, retryAfter_admitted⟩,
    fun s h => WindowKey.due_iff.mpr (told hn started h), fun s p o w t' h ht' hk => ?_, fun s later h after hl => ?_⟩
  · rcases Nat.lt_or_ge d.limit d.count with rejected | within
    · obtain ⟨s, h, -⟩ := retryAfter_of_started on ht hn started rejected
      exact ⟨some s, h⟩
    · exact ⟨none, retryAfter_admitted within⟩
  · obtain ⟨s, h, -⟩ := retryAfter_of_started on ht hn started rejected
    rw [none] at h
    cases h
  · exact WindowKey.renewed hk ht' (WindowKey.due_iff.mpr (told hn started h)).enough
  · obtain ⟨r, hr, wait⟩ :=
      retryAfter_of_started on ht hl (Int.le_trans started after) (limit_lt_of_retryAfter h)
    refine ⟨r, hr, Int.ofNat_le.mp ?_⟩
    rw [wait, told hn started h]
    exact WindowKey.wait_antitone after

end Decision

namespace Gate

variable {g g₀ : Gate} {es pre : List Event} {e : Event} {c : CallId}

/-! ## (2) Waits in a run -/

/-- An attempt that is carried began earlier in the run, on the key of that instant. -/
theorem carried_began (hg : g₀.calls = Table.empty) {y : Call} {a : Attempt} {who : Option Authorization}
    (hy : (g₀.run es).calls.get? c = some y) (hc : y.stage.carried? = some (a, who)) :
    ∃ pre, pre <+: es ∧ a.key.Around (g₀.run pre).now := by
  induction es using List.reverseRecOn generalizing y who with
  | nil => rw [run_nil, hg] at hy; cases hy
  | append_singleton es e ih =>
    rw [run_snoc] at hy
    rcases carried_since hy hc with ⟨z, call, -, before⟩ | ⟨v, s, l, -, -, -, sent, -⟩
    · obtain ⟨pre, earlier, on⟩ := ih call before
      exact ⟨pre, earlier.trans (List.prefix_append _ _), on⟩
    · exact ⟨es, List.prefix_append _ _, WindowKey.around_of_containing (begin_spec (send_eq_some.mp sent)).1⟩

theorem ruling_began (hg : g₀.calls = Table.empty) {x : Ruling} (made : (g₀.run es).made e = some x) :
    ∃ pre, pre <+: es ∧ x.decision.key.Around (g₀.run pre).now := by
  rcases made_cases made with ⟨c, n, r, a, who, rfl, call, rfl⟩ | ⟨c, r, a, who, rfl, call, rfl⟩
  · exact carried_began hg call rfl
  · exact carried_began hg call rfl

theorem onward_le (h : g.Onward es) : g.now ≤ (g.run es).now := by
  induction es generalizing g with
  | nil => exact Int.le_refl _
  | cons e es ih => exact Int.le_trans h.1 (ih h.2)

/-- A rejected authorization is answered the wait at the instant of the ruling. -/
theorem ruling_answers {x : Ruling} {a : Authorization} (made : g.made e = some x) (who : x.who = some a) :
    ∃ r y, g.Concerns e x.call r ∧ (g.step e).answers = g.answers ++ [(x.call, y)] ∧
      ((y = closing r (.ok (.admitted a x.decision)) ∧ x.decision.retryAfter g.now = .ok none) ∨
        (∃ s, y = closing r (.ok (.throttled a x.decision s)) ∧ x.decision.retryAfter g.now = .ok (some s)) ∨
        (y = .broken ∧ x.decision.retryAfter g.now = .error .overflow)) := by
  obtain ⟨r, on, goes⟩ := made_awards made
  rw [who] at goes
  refine ⟨r, _, on, goes.answers, ?_⟩
  unfold awarded Admission.ofDecision
  cases x.decision.retryAfter g.now with
  | error f => cases f; exact Or.inr (Or.inr ⟨rfl, rfl⟩)
  | ok wait =>
    cases wait with
    | none => exact Or.inl ⟨rfl, rfl⟩
    | some s => exact Or.inr (Or.inl ⟨s, rfl, rfl⟩)

/-- The wait is honest for every decision on a key of the calendar and every instant from the
start of its window on. And it is the one that an admission tells: each ruling of a run,
made for an authorization, is answered with the wait from the instant at which it is made,
if there is telling it. Its key is that of an earlier instant, so the wait is honest, and
told, if the clock never goes back, however late the ruling is, and as long as the clock is
not set before the window. -/
theorem retryAfter_honest :
    (∀ (p : AccountId) (o : Operation) (w : Span) (t now : Instant) (d : Decision), t.InRange → now.InRange →
      WindowKey.containing p o w t = .ok d.key → d.key.start ≤ now → d.Honest now) ∧
    ∀ (t : Instant) (cache : Cache) (limiter : Limiter) (pinger : Option Span) (es : List Event) (e : Event)
      (x : Ruling) (a : Authorization), t.InRange → Settable es →
      let g₀ := start t cache limiter pinger
      let g := g₀.run es
      g.made e = some x → x.who = some a →
        (∃ r y, g.Concerns e x.call r ∧ (g.step e).answers = g.answers ++ [(x.call, y)] ∧
          ((y = closing r (.ok (.admitted a x.decision)) ∧ x.decision.retryAfter g.now = .ok none) ∨
            (∃ s, y = closing r (.ok (.throttled a x.decision s)) ∧ x.decision.retryAfter g.now = .ok (some s)) ∨
            (y = .broken ∧ x.decision.retryAfter g.now = .error .overflow))) ∧
        (g₀.Onward es → x.decision.key.start ≤ g.now) ∧
        (x.decision.key.start ≤ g.now → x.decision.Honest g.now) := by
  constructor
  · intro p o w t now d ht hn hk started
    exact Decision.honest_of_around (WindowKey.around_of_containing hk) ht hn started
  · intro t cache limiter pinger es e x a ht hs g₀ g made who
    have onCalendar : ∀ {pre}, pre <+: es → (g₀.run pre).now.InRange := by
      intro pre earlier
      exact (run_onCalendar (start_onCalendar ht cache limiter pinger) fun u hu => hs u (earlier.subset hu)).now
    obtain ⟨pre, earlier, on⟩ := ruling_began rfl made
    have began := onCalendar earlier
    refine ⟨ruling_answers made who, fun onward => ?_, ?_⟩
    · obtain ⟨rest, rfl⟩ := earlier
      have passed : (g₀.run pre).now ≤ g.now := by
        show _ ≤ (g₀.run (pre ++ rest)).now
        rw [run_append]
        exact onward_le (onward_append onward)
      exact Int.le_trans (on.start_le began) passed
    · exact Decision.honest_of_around on began (onCalendar (List.prefix_refl es))

/-- Two requests of one second are let in where one is the limit. The store takes until the
next second to count the other. -/
def lateReply : List Event :=
  [.arrived (.enter (some "Bearer t") .create), .lookedUp 0 (.answered (.ok (.valid ⟨⟨"acct"⟩, .card, none⟩))),
    .replied 0 (.counted 1), .arrived (.enter (some "Bearer t") .create),
    .lookedUp 1 (.answered (.ok (.valid ⟨⟨"acct"⟩, .card, none⟩))), .advanced 1500]

/-- Its window has ended when it is rejected, and a second is the least wait there is. -/
theorem lateReply_honest :
    let d : Decision := ⟨⟨"acct", .create, 1000, 0⟩, 2, 1, .shared⟩
    let g := oneASecond.run lateReply
    Settable lateReply ∧ oneASecond.Onward lateReply ∧
      g.made (.replied 1 (.counted 2)) = some ⟨1, some ⟨⟨"acct"⟩, .card, none⟩, d⟩ ∧ d.key.stop < g.now ∧
      d.retryAfter g.now = .ok (some 1) ∧ d.Honest g.now ∧ d.retryAfter 1 = .ok (some 1) ∧ d.Honest 1 := by
  intro d g
  have settable : Settable lateReply := fun t hm => by simp [lateReply] at hm
  have onward : oneASecond.Onward lateReply := by
    simp only [Onward, lateReply]
    decide +kernel
  have made : g.made (.replied 1 (.counted 2)) = some ⟨1, some ⟨⟨"acct"⟩, .card, none⟩, d⟩ := rfl
  have key : WindowKey.containing ⟨"acct"⟩ .create (Span.ofSeconds 1) 1 = .ok d.key := rfl
  have inRange : Instant.InRange 1 := by decide
  have early : d.Honest 1 := retryAfter_honest.1 _ _ _ 1 1 d inRange inRange key (by decide)
  obtain ⟨-, started, honest⟩ := retryAfter_honest.2 0 _ _ none lateReply _ _ _ (by decide) settable made rfl
  exact ⟨settable, onward, made, by decide, by decide +kernel, honest (started onward), by decide +kernel, early⟩

/-- An attempt in a window of the greatest width, begun at the epoch. The clock is set back before
the store has counted it. -/
def setBack : List Event :=
  [.arrived (.enter (some "Bearer t") .create), .lookedUp 0 (.answered (.ok (.valid ⟨⟨"acct"⟩, .card, none⟩))),
    .set (-1), .replied 0 (.counted 2)]

/-- The wait is not told, and the call is not answered. -/
theorem setBack_breaks_off :
    let policy := Policy.standard.set ⟨.create, 1, Span.ofMillis 9223372036854775807⟩
    let g := start 0 ⟨Span.zero, Span.ofMillis 500, Table.empty⟩ (Limiter.sharing policy StoreSettings.standard) none
    (g.run setBack).answers = [(0, .broken)] := by
  rfl

end Gate

end Gateway
