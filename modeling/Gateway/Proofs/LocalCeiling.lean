/-
  Gateway.Proofs.LocalCeiling — how much an instance's own counters let through.

  The count of a key grows with every attempt that is counted and starts anew when a sweep
  finds the window ended. An attempt keeps the key of the instant at which it began, so it
  may be counted after that sweep, and then the budget of the window is spent once more.

  Proved, for any run of an instance and any key whose limit `L` is one that a rule can
  have (at least one, and a word of 32 bits):
  (1) Between two such sweeps `n` attempts let `min n L` through (`grants_eq`).
  (2) At most `L` are let through in all exactly if no more attempts come, or no such
      sweep stands between two of them (`grants_le_iff`).
  (3) At most `L` are let through if the clock never goes back and every attempt is
      counted before the window ends (`grants_le_in_time`).
  Trace: an attempt that waits for the shared store until its window has been swept is
  let through beyond the limit (`a_straggler_spends_the_budget_again`).
-/

import Gateway.Proofs.Counts
import Gateway.Proofs.Rulings

namespace Gateway

/-! ## Stretches -/

inductive Mark where
  | counted
  /-- A sweep finds the window ended. -/
  | closed
  deriving DecidableEq, Repr

namespace Mark

/-- How many attempts are counted between one closing and the next; `n` were before. -/
def stretches (n : Nat) : List Mark → List Nat
  | [] => [n]
  | .counted :: l => stretches (n + 1) l
  | .closed :: l => n :: stretches 0 l

/-- A closing stands between two attempts; `n` were before. -/
def Reopened (n : Nat) (l : List Mark) : Prop :=
  ∃ a b, l = a ++ .closed :: b ∧ 0 < n + a.count .counted ∧ 0 < b.count .counted

theorem sum_stretches (n : Nat) (l : List Mark) : (stretches n l).sum = n + l.count .counted := by
  induction l generalizing n with
  | nil => simp [stretches]
  | cons x l ih =>
    cases x with
    | counted => simp only [stretches, ih, List.count_cons_self]; omega
    | closed => simp [stretches, ih]

theorem reopened_counted (n : Nat) (l : List Mark) : Reopened n (.counted :: l) ↔ Reopened (n + 1) l := by
  constructor
  · intro w
    obtain ⟨a, b, h, ha, hb⟩ := w
    cases a with
    | nil => cases h
    | cons x a =>
      rw [List.cons_append, List.cons.injEq] at h
      obtain ⟨rfl, rfl⟩ := h
      rw [List.count_cons_self] at ha
      exact ⟨a, b, rfl, by omega, hb⟩
  · intro w
    obtain ⟨a, b, rfl, ha, hb⟩ := w
    exact ⟨.counted :: a, b, rfl, by rw [List.count_cons_self]; omega, hb⟩

theorem reopened_closed (n : Nat) (l : List Mark) :
    Reopened n (.closed :: l) ↔ (0 < n ∧ 0 < l.count .counted) ∨ Reopened 0 l := by
  constructor
  · intro w
    obtain ⟨a, b, h, ha, hb⟩ := w
    cases a with
    | nil =>
      obtain ⟨-, rfl⟩ := List.cons.inj h
      exact Or.inl ⟨by simpa using ha, hb⟩
    | cons x a =>
      rw [List.cons_append, List.cons.injEq] at h
      obtain ⟨rfl, rfl⟩ := h
      rw [List.count_cons_of_ne (by decide)] at ha
      by_cases h0 : 0 < a.count .counted
      · exact Or.inr ⟨a, b, rfl, by omega, hb⟩
      · refine Or.inl ⟨by omega, ?_⟩
        rw [List.count_append, List.count_cons_of_ne (by decide)]
        omega
  · intro w
    rcases w with ⟨hn, hl⟩ | ⟨a, b, rfl, ha, hb⟩
    · exact ⟨[], l, rfl, by simpa using hn, hl⟩
    · exact ⟨.closed :: a, b, rfl, by rw [List.count_cons_of_ne (by decide)]; omega, hb⟩

/-- What is let through is all that comes, or the limit at least. -/
theorem capped_sum (L : Nat) (l : List Nat) :
    (l.map (min · L)).sum = l.sum ∨ (L ≤ (l.map (min · L)).sum ∧ (l.map (min · L)).sum ≤ l.sum) := by
  induction l with
  | nil => exact Or.inl rfl
  | cons n l ih =>
    simp only [List.map_cons, List.sum_cons]
    omega

/-- The limit holds over all stretches exactly if it is not reached, or one stretch has
all attempts. -/
theorem capped_le_iff {L : Nat} (hL : 0 < L) (n : Nat) (l : List Mark) :
    ((stretches n l).map (min · L)).sum ≤ L ↔ n + l.count .counted ≤ L ∨ ¬ Reopened n l := by
  induction l generalizing n with
  | nil =>
    refine iff_of_true ?_ (Or.inr ?_)
    · simp only [stretches, List.map_cons, List.map_nil, List.sum_cons, List.sum_nil]; omega
    · intro w
      obtain ⟨a, b, h, -⟩ := w
      simp at h
  | cons x l ih =>
    cases x with
    | counted =>
      rw [reopened_counted, List.count_cons_self]
      have := ih (n + 1)
      rw [show n + (l.count .counted + 1) = n + 1 + l.count .counted from by omega]
      exact this
    | closed =>
      rw [reopened_closed, List.count_cons_of_ne (by decide)]
      simp only [stretches, List.map_cons, List.sum_cons]
      have rest := ih 0
      have all := sum_stretches 0 l
      have capped := capped_sum L (stretches 0 l)
      by_cases hn : n = 0
      · subst hn
        simpa using rest
      · have none : Reopened 0 l → 0 < l.count .counted := fun ⟨a, b, e, _, hb⟩ => by
          rw [e, List.count_append, List.count_cons_of_ne (by decide)]
          omega
        by_cases hc : 0 < l.count .counted
        · refine iff_iff_implies_and_implies.mpr ⟨fun h => Or.inl (by omega), ?_⟩
          intro w
          rcases w with h | h
          · omega
          · exact absurd (Or.inl ⟨by omega, hc⟩) h
        · refine iff_of_true (by omega) (Or.inr ?_)
          intro w
          rcases w with h | h
          · exact hc h.2
          · exact hc (none h)

end Mark

namespace Gate

/-! ## The marks of a run -/

def mark (g : Gate) (k : WindowKey) : Event → Option Mark
  | .countedLocally c => match g.calls.get? c with
    | some ⟨_, .countingLocally a _⟩ => if a.key = k then some .counted else none
    | _ => none
  | .swept .windows => if k.stop ≤ g.now then some .closed else none
  | _ => none

def marks (g : Gate) (k : WindowKey) : List Event → List Mark
  | [] => []
  | e :: es => (g.mark k e).toList ++ (g.step e).marks k es

def grants (g : Gate) (k : WindowKey) (es : List Event) : Nat := (g.rulings es).countP (Ruling.grants k .fallback)

variable {g : Gate} {k : WindowKey} {e : Event}

theorem made_of_counted (h : g.mark k e = some .counted) :
    ∃ x, g.made e = some x ∧ x.on k .fallback = true ∧ x.decision.count = (g.locals.record k).1 := by
  unfold mark at h
  split at h
  · split at h
    · rename_i a who hc
      split at h
      · rename_i hk
        subst hk
        exact ⟨_, by simp only [made, hc]; rfl, by simp [Ruling.on, Limiter.Attempt.decide], rfl⟩
      · cases h
    · cases h
  · split at h <;> cases h
  · cases h

theorem not_on_of_made (h : g.mark k e ≠ some .counted) {x : Ruling} (hx : g.made e = some x) :
    x.on k .fallback = false := by
  rcases made_cases hx with ⟨c, n, r, a, who, -, -, rfl⟩ | ⟨c, r, a, who, rfl, hc, rfl⟩
  · simp [Ruling.on, Limiter.Attempt.decide]
  · have hk : a.key ≠ k := fun hk => h (by simp only [mark, hc, hk, if_true])
    simp [Ruling.on, Limiter.Attempt.decide, hk]

theorem stop_of_closed (h : g.mark k e = some .closed) : k.stop ≤ g.now := by
  unfold mark at h
  split at h
  · split at h
    · split at h <;> cases h
    · cases h
  · split at h
    · assumption
    · cases h
  · cases h

theorem step_dated (h : g.locals.Dated) (e : Event) : (g.step e).locals.Dated := by
  rw [step_locals]
  unfold localsAfter
  split
  · split
    · exact Counters.dated_record h _
    · exact h
  · exact Counters.dated_sweep h _
  · exact h

theorem run_dated (h : g.locals.Dated) (es : List Event) : (g.run es).locals.Dated := by
  induction es generalizing g with
  | nil => exact h
  | cons e es ih => exact ih (step_dated h e)

theorem step_count (h : g.locals.Dated) (k : WindowKey) (e : Event) :
    (g.step e).locals.count k = match g.mark k e with
      | some .counted => (g.locals.record k).1
      | some .closed => 0
      | none => g.locals.count k := by
  rw [step_locals]
  cases e with
  | countedLocally c =>
    cases hc : g.calls.get? c with
    | none => simp only [localsAfter, mark, hc]
    | some x =>
      obtain ⟨r, s⟩ := x
      cases s with
      | countingLocally a who =>
        simp only [localsAfter, mark, hc]
        rw [Counters.record_count]
        by_cases hk : a.key = k
        · simp [hk]
        · simp [hk, Ne.symm hk]
      | _ => simp only [localsAfter, mark, hc]
  | swept s =>
    cases s with
    | windows =>
      simp only [localsAfter, mark]
      rw [Counters.sweep_count h]
      by_cases hs : k.stop ≤ g.now <;> simp [hs]
    | credentials => rfl
  | _ => rfl

/-! ## (1) Between two closings -/

theorem grants_cons (g : Gate) (k : WindowKey) (e : Event) (es : List Event) :
    g.grants k (e :: es) = (g.made e).toList.countP (Ruling.grants k .fallback) + (g.step e).grants k es := by
  simp [grants, rulings, List.countP_append]

/-- An event that is not marked as counted lets nobody through. -/
theorem grants_of_not_counted (h : g.mark k e ≠ some .counted) :
    (g.made e).toList.countP (Ruling.grants k .fallback) = 0 := by
  cases hm : g.made e with
  | none => rfl
  | some x => simp [Ruling.grants, not_on_of_made h hm]

/-- The attempt that makes the count `n + 1` is let through if the limit allows it. -/
theorem grants_of_counted (hf : g.Fits) (h : g.mark k e = some .counted) {n : Nat}
    (hn : g.locals.count k = min n Word.top) (hL : (g.limiter.policy.rule k.operation).limit < Word.top) :
    (g.made e).toList.countP (Ruling.grants k .fallback) =
      if n + 1 ≤ (g.limiter.policy.rule k.operation).limit then 1 else 0 := by
  obtain ⟨x, hx, on, count⟩ := made_of_counted h
  have key : x.decision.key = k := by
    have := on
    simp only [Ruling.on, Bool.and_eq_true, decide_eq_true_eq] at this
    exact this.1
  have limit := made_limit hf hx
  rw [key] at limit
  rw [Counters.record_fst, hn] at count
  simp only [hx, Option.toList_some, List.countP_singleton, Ruling.grants, on, Bool.true_and, Decision.admitted,
    count, limit, decide_eq_true_eq]
  by_cases hle : n + 1 ≤ (g.limiter.policy.rule k.operation).limit
  · rw [if_pos hle, if_pos (by omega)]
  · rw [if_neg hle, if_neg (by omega)]

/-- The induction is on the run; `n` attempts were counted since the last closing. -/
theorem grants_eq (hf : g.Fits) (hd : g.locals.Dated) {n : Nat} (hn : g.locals.count k = min n Word.top)
    (hL : (g.limiter.policy.rule k.operation).limit < Word.top) (es : List Event) :
    min n (g.limiter.policy.rule k.operation).limit + g.grants k es =
      ((Mark.stretches n (g.marks k es)).map (min · (g.limiter.policy.rule k.operation).limit)).sum := by
  induction es generalizing g n with
  | nil => simp [grants, rulings, marks, Mark.stretches]
  | cons e es ih =>
    have hp := step_policy g e
    have next := fun m hm => ih (step_fits hf e) (step_dated hd e) (n := m) hm (by rw [hp]; exact hL)
    have hc := step_count hd k e
    rw [hp] at next
    rw [grants_cons, marks]
    cases hm : g.mark k e with
    | none =>
      rw [hm] at hc
      rw [grants_of_not_counted (by rw [hm]; simp), Nat.zero_add]
      exact next n (hc.trans hn)
    | some m =>
      rw [hm] at hc
      cases m with
      | counted =>
        have hc : (g.step e).locals.count k = (g.locals.record k).1 := hc
        -- one more attempt, let through or not, and one more in the stretch
        have := next (n + 1) (by rw [hc, Counters.record_fst, hn]; omega)
        rw [grants_of_counted hf hm hn hL]
        simp only [Option.toList_some, List.cons_append, List.nil_append, Mark.stretches]
        rw [← this]
        split <;> omega
      | closed =>
        have := next 0 hc
        rw [grants_of_not_counted (by rw [hm]; simp)]
        simp only [Option.toList_some, List.cons_append, List.nil_append, Mark.stretches, List.map_cons,
          List.sum_cons]
        omega

/-! ## (2) Over a whole run -/

theorem start_grants (t : Instant) (cache : Cache) (limiter : Limiter) (pinger : Option Span) (k : WindowKey)
    (hw : (limiter.policy.rule k.operation).limit ≤ Word.halfTop) (es : List Event) :
    (start t cache limiter pinger).grants k es =
      ((Mark.stretches 0 ((start t cache limiter pinger).marks k es)).map
        (min · (limiter.policy.rule k.operation).limit)).sum := by
  have h := grants_eq (start_fits t cache limiter pinger) Counters.dated_empty (n := 0) (k := k) rfl
    (Nat.lt_of_le_of_lt hw (by decide)) es
  rw [Nat.zero_min, Nat.zero_add] at h
  exact h

/-- From the start of an instance, its own counters let at most the limit through exactly
if no more attempts are counted, or no sweep that finds the window ended comes between
two that are. -/
theorem grants_le_iff (t : Instant) (cache : Cache) (limiter : Limiter) (pinger : Option Span) (k : WindowKey)
    (hL : 0 < (limiter.policy.rule k.operation).limit)
    (hw : (limiter.policy.rule k.operation).limit ≤ Word.halfTop) (es : List Event) :
    (start t cache limiter pinger).grants k es ≤ (limiter.policy.rule k.operation).limit ↔
      ((start t cache limiter pinger).marks k es).count .counted ≤ (limiter.policy.rule k.operation).limit ∨
        ¬ Mark.Reopened 0 ((start t cache limiter pinger).marks k es) := by
  have capped := Mark.capped_le_iff hL 0 ((start t cache limiter pinger).marks k es)
  rw [Nat.zero_add] at capped
  rw [start_grants t cache limiter pinger k hw es]
  exact capped

/-! ## (3) Attempts in time -/

def Onward (g : Gate) : List Event → Prop
  | [] => True
  | e :: es => g.now ≤ (g.step e).now ∧ (g.step e).Onward es

def InTime (g : Gate) (k : WindowKey) : List Event → Prop
  | [] => True
  | e :: es => (g.mark k e = some .counted → g.now < k.stop) ∧ (g.step e).InTime k es

theorem none_counted_after {es : List Event} (ho : g.Onward es) (hi : g.InTime k es) (hs : k.stop ≤ g.now) :
    (g.marks k es).count .counted = 0 := by
  induction es generalizing g with
  | nil => rfl
  | cons e es ih =>
    have rest := ih ho.2 hi.2 (Int.le_trans hs ho.1)
    rw [marks, List.count_append, rest]
    cases hm : g.mark k e with
    | none => rfl
    | some m =>
      cases m with
      | counted => exact absurd (hi.1 hm) (Int.not_lt.mpr hs)
      | closed => rfl

theorem not_reopened_in_time {es : List Event} (ho : g.Onward es) (hi : g.InTime k es) (n : Nat) :
    ¬ Mark.Reopened n (g.marks k es) := by
  induction es generalizing g n with
  | nil =>
    intro w
    obtain ⟨a, b, h, -⟩ := w
    simp [marks] at h
  | cons e es ih =>
    rw [marks]
    cases hm : g.mark k e with
    | none => exact ih ho.2 hi.2 n
    | some m =>
      cases m with
      | counted =>
        show ¬ Mark.Reopened n (.counted :: (g.step e).marks k es)
        rw [Mark.reopened_counted]
        exact ih ho.2 hi.2 (n + 1)
      | closed =>
        have hs := stop_of_closed hm
        show ¬ Mark.Reopened n (.closed :: (g.step e).marks k es)
        rw [Mark.reopened_closed, none_counted_after ho.2 hi.2 (Int.le_trans hs ho.1)]
        intro w
        rcases w with h | h
        · exact absurd h.2 (Nat.lt_irrefl 0)
        · exact ih ho.2 hi.2 0 h

/-- With a clock that never goes back, no sweep can part attempts that are in time. -/
theorem grants_le_in_time (t : Instant) (cache : Cache) (limiter : Limiter) (pinger : Option Span) (k : WindowKey)
    (hL : 0 < (limiter.policy.rule k.operation).limit)
    (hw : (limiter.policy.rule k.operation).limit ≤ Word.halfTop) {es : List Event}
    (ho : (start t cache limiter pinger).Onward es) (hi : (start t cache limiter pinger).InTime k es) :
    (start t cache limiter pinger).grants k es ≤ (limiter.policy.rule k.operation).limit := by
  rw [start_grants t cache limiter pinger k hw es]
  exact (Mark.capped_le_iff hL 0 _).mpr (Or.inr (not_reopened_in_time ho hi 0))

/-! ## A straggler -/

def oneASecond : Gate :=
  start 0 ⟨Span.zero, Span.ofMillis 500, Table.empty⟩
    (Limiter.sharing (Policy.standard.set ⟨.create, 1, Span.ofSeconds 1⟩) StoreSettings.standard) none

/-- Two attempts of one window. The store fails the second at once, and the first only
when the window has ended and has been swept. -/
def straggler : List Event :=
  [.arrived (.spend ⟨"acct"⟩ .create), .arrived (.spend ⟨"acct"⟩ .create),
    .replied 1 (.failed ⟨.unavailable, "down"⟩), .countedLocally 1, .advanced 1000, .swept .windows,
    .replied 0 (.failed ⟨.unavailable, "down"⟩), .countedLocally 0]

def stragglerKey : WindowKey := ⟨"acct", .create, 1000, 0⟩

/-- The sweep comes between the two, and two are more than one. -/
theorem straggler_le_iff :
    0 < (oneASecond.limiter.policy.rule .create).limit ∧
      (oneASecond.limiter.policy.rule .create).limit ≤ Word.halfTop ∧
      (oneASecond.grants stragglerKey straggler ≤ (oneASecond.limiter.policy.rule .create).limit ↔
        (oneASecond.marks stragglerKey straggler).count .counted ≤ (oneASecond.limiter.policy.rule .create).limit ∨
          ¬ Mark.Reopened 0 (oneASecond.marks stragglerKey straggler)) := by
  have hL : 0 < (oneASecond.limiter.policy.rule .create).limit := by decide
  have hw : (oneASecond.limiter.policy.rule .create).limit ≤ Word.halfTop := by decide
  exact ⟨hL, hw, grants_le_iff 0 _ _ none stragglerKey hL hw straggler⟩

/-- Both are let through, though the limit is one and the clock never goes back. -/
theorem a_straggler_spends_the_budget_again :
    oneASecond.Onward straggler ∧ (oneASecond.limiter.policy.rule .create).limit = 1 ∧
      oneASecond.marks stragglerKey straggler = [.counted, .closed, .counted] ∧
      oneASecond.grants stragglerKey straggler = 2 := by
  refine ⟨?_, rfl, by decide +kernel, by decide +kernel⟩
  simp only [Onward, straggler]
  decide +kernel

end Gate

end Gateway
