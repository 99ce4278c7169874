/-
  Gateway.Proofs.Streaks — what the health of the shared store tells of a run of operations.

  Operations come one after another, in any number and order. The failures since the last
  success are kept as a word of 32 bits, which wraps; only the answer to a failure is
  told with saturation. So after any run the word is the streak of failures modulo the
  number of words (`failures_eq`).

  Proved:
  (1) The count, the mode, and the answers to the next failure and to the next success
      are those of the run, at every moment of it, exactly if no streak ever reaches the
      number of words (`faithful_iff`).
  (2) Within the calendar the mark says that the store is well exactly if the last
      outcome was no failure (`mark_well_iff`).
  Trace: the failure that makes the streak as long as there are words turns the report
  back to that of a store that is well (`a_long_outage_looks_well`).
-/

import Mathlib.Data.List.Induction
import Gateway.Proofs.Marks

namespace Gateway.Health

/-! ## Runs of operations -/

inductive Act where
  | probe (now : Instant)
  | success
  /-- The store failed a call that began at `now`. -/
  | failure (now : Instant)
  deriving DecidableEq, Repr

namespace Act

def records : Act → Bool
  | .probe _ => false
  | _ => true

def fails : Act → Bool
  | .failure _ => true
  | _ => false

def InRange : Act → Prop
  | .probe now => now.InRange
  | .success => True
  | .failure now => now.InRange

instance : (a : Act) → Decidable a.InRange
  | .probe now => inferInstanceAs (Decidable now.InRange)
  | .success => inferInstanceAs (Decidable True)
  | .failure now => inferInstanceAs (Decidable now.InRange)

end Act

def apply (h : Health) : Act → Health
  | .probe now => (h.probe now).2
  | .success => h.succeeded.2
  | .failure now => (h.failed now).2

def after (h : Health) (as : List Act) : Health := as.foldl apply h

def streak (as : List Act) : Nat := (as.reverse.takeWhile fun a => a ≠ .success).countP Act.fails

/-- The last outcome was a failure: a degraded time lasts. -/
def Down (as : List Act) : Prop := (as.filter Act.records).getLast?.any Act.fails = true

variable {h : Health} {as : List Act} {a : Act} {d : Span} {now : Instant}

theorem after_snoc (h : Health) (as : List Act) (a : Act) : h.after (as ++ [a]) = (h.after as).apply a :=
  List.foldl_append

/-! ## Streaks -/

theorem streak_probe (as : List Act) (now : Instant) : streak (as ++ [.probe now]) = streak as := by
  simp [streak, Act.fails]

theorem streak_success (as : List Act) : streak (as ++ [.success]) = 0 := by
  simp [streak]

theorem streak_failure (as : List Act) (now : Instant) : streak (as ++ [.failure now]) = streak as + 1 := by
  simp only [streak, List.reverse_append, List.reverse_singleton, List.singleton_append]
  rw [List.takeWhile_cons_of_pos (by simp), List.countP_cons_of_pos rfl]

theorem not_down_nil : ¬ Down [] := by
  simp [Down]

theorem down_snoc (as : List Act) (a : Act) :
    Down (as ++ [a]) ↔ if a.records then a.fails = true else Down as := by
  cases a <;> simp [Down, Act.records, Act.fails, List.filter_append]

theorem down_iff (as : List Act) : Down as ↔ 0 < streak as := by
  induction as using List.reverseRecOn with
  | nil => exact iff_of_false not_down_nil (Nat.lt_irrefl 0)
  | append_singleton as a ih =>
    rw [down_snoc]
    cases a with
    | probe now => rw [streak_probe]; exact ih
    | success => rw [streak_success]; exact iff_of_false Bool.false_ne_true (Nat.lt_irrefl 0)
    | failure now => rw [streak_failure]; exact iff_of_true rfl (Nat.succ_pos _)

/-- A streak grows by one at a time, so it takes every value on its way. -/
theorem streak_reaches {n : Nat} (hn : n ≤ streak as) : ∃ pre, pre <+: as ∧ streak pre = n := by
  induction as using List.reverseRecOn with
  | nil => exact ⟨[], List.prefix_refl _, (Nat.le_zero.mp hn).symm⟩
  | append_singleton as a ih =>
    by_cases earlier : n ≤ streak as
    · obtain ⟨pre, hp, hs⟩ := ih earlier
      exact ⟨pre, hp.trans (List.prefix_append _ _), hs⟩
    · refine ⟨as ++ [a], List.prefix_refl _, ?_⟩
      cases a with
      | probe now => rw [streak_probe] at hn ⊢; omega
      | success => rw [streak_success] at hn ⊢; omega
      | failure now => rw [streak_failure] at hn ⊢; omega

theorem streak_replicate (n : Nat) (now : Instant) : streak (List.replicate n (.failure now)) = n := by
  induction n with
  | zero => rfl
  | succ n ih => rw [List.replicate_succ', streak_failure, ih]

/-! ## (1) What is told -/

theorem failures_eq (d : Span) (as : List Act) : ((start d).after as).failures = streak as % Word.halfSize := by
  induction as using List.reverseRecOn with
  | nil => rfl
  | append_singleton as a ih =>
    rw [after_snoc]
    cases a with
    | probe now => rw [streak_probe, ← ih]; exact probe_failures _ now
    | success => rw [streak_success]; rfl
    | failure now =>
      rw [streak_failure, ← Nat.mod_add_mod, ← ih]
      rfl

/-- What is told after these operations, and would be told by the next, is what they were. -/
structure Faithful (h : Health) (as : List Act) : Prop where
  count : h.failures = min (streak as) Word.halfTop
  mode : h.degraded = true ↔ Down as
  /-- The answer 1 is given to the first failure of a degraded time. -/
  first : ∀ now, (h.failed now).1 = 1 ↔ ¬ Down as
  /-- A success is told to end a degraded time if it does. -/
  ends : h.succeeded.1 = true ↔ Down as

theorem degraded_iff (h : Health) : h.degraded = true ↔ 0 < h.failures := decide_eq_true_iff

theorem recovers_iff (h : Health) : h.succeeded.1 = true ↔ 0 < h.failures := decide_eq_true_iff

theorem failed_eq_one_iff (h : Health) (now : Instant) : (h.failed now).1 = 1 ↔ h.failures = 0 := by
  show min (h.failures + 1) Word.halfTop = 1 ↔ _
  unfold Word.halfTop
  omega

theorem faithful_of_short (d : Span) (short : streak as < Word.halfSize) : Faithful ((start d).after as) as := by
  have count : ((start d).after as).failures = streak as := by rw [failures_eq, Nat.mod_eq_of_lt short]
  refine ⟨?_, ?_, fun now => ?_, ?_⟩
  · unfold Word.halfSize at short
    unfold Word.halfTop
    omega
  · rw [degraded_iff, count, down_iff]
  · rw [failed_eq_one_iff, count, down_iff]
    omega
  · rw [recovers_iff, count, down_iff]

/-- A streak as long as there are words is told as none. -/
theorem looks_well (d : Span) (long : streak as = Word.halfSize) :
    ((start d).after as).failures = 0 ∧ ((start d).after as).degraded = false ∧
      (∀ now, (((start d).after as).failed now).1 = 1) ∧ ((start d).after as).succeeded.1 = false := by
  have none : ((start d).after as).failures = 0 := by rw [failures_eq, long, Nat.mod_self]
  refine ⟨none, ?_, fun now => (failed_eq_one_iff _ now).mpr none, ?_⟩
  · rw [← Bool.not_eq_true, degraded_iff, none]
    exact Nat.lt_irrefl 0
  · rw [← Bool.not_eq_true, recovers_iff, none]
    exact Nat.lt_irrefl 0

/-- In a run of operations on a store that was well, the count of failures since the last
success (up to the greatest word), the mode, and the answers to failures and successes are
told rightly at every moment, exactly if at no moment there have been as many failures
since the last success as there are words of 32 bits. -/
theorem faithful_iff (d : Span) (as : List Act) :
    (∀ pre, pre <+: as → Faithful ((start d).after pre) pre) ↔ ∀ pre, pre <+: as → streak pre < Word.halfSize := by
  constructor
  · intro faithful pre hp
    refine Nat.lt_of_not_le fun long => ?_
    obtain ⟨pre', hp', hs⟩ := streak_reaches long
    have down : Down pre' := by
      rw [down_iff, hs]
      decide
    have degraded := (faithful pre' (hp'.trans hp)).mode.mpr down
    rw [(looks_well d hs).2.1] at degraded
    exact Bool.false_ne_true degraded
  · intro short pre hp
    exact faithful_of_short d (short pre hp)

/-- The store has failed every call for so long that the word is back where it began. -/
def outage : List Act := List.replicate Word.halfSize (.failure 0)

theorem streak_outage : streak outage = Word.halfSize := streak_replicate _ _

theorem down_outage : Down outage := by
  rw [down_iff, streak_outage]
  exact Nat.succ_pos _

/-- Nothing that is told then is right: no failure is counted, the store looks well, one more
failure would be the first, and a success would end no degraded time. -/
theorem a_long_outage_looks_well :
    Down outage ∧ streak outage = Word.halfSize ∧
      ((start (Span.ofMillis 5000)).after outage).failures = 0 ∧
      ((start (Span.ofMillis 5000)).after outage).degraded = false ∧
      (∀ now, (((start (Span.ofMillis 5000)).after outage).failed now).1 = 1) ∧
      ((start (Span.ofMillis 5000)).after outage).succeeded.1 = false :=
  ⟨down_outage, streak_outage, looks_well (Span.ofMillis 5000) streak_outage⟩

/-! ## (2) What the mark says -/

theorem after_cooldown (h : Health) (as : List Act) : (h.after as).cooldown = h.cooldown := by
  induction as using List.reverseRecOn with
  | nil => rfl
  | append_singleton as a ih =>
    rw [after_snoc, ← ih]
    cases a with
    | probe now => exact probe_cooldown _ now
    | success => rfl
    | failure now => rfl

theorem mark_well_iff (d : Span) (dated : ∀ a ∈ as, a.InRange) : ((start d).after as).mark = well ↔ ¬ Down as := by
  induction as using List.reverseRecOn with
  | nil => exact iff_of_true rfl not_down_nil
  | append_singleton as a ih =>
    have before := ih fun b hb => dated b (List.mem_append_left _ hb)
    have inRange := dated a (List.mem_append_right _ (List.mem_singleton.mpr rfl))
    have cools : ((start d).after as).cooldown = Word.clamp d.millis := after_cooldown _ _
    rw [after_snoc, down_snoc]
    cases a with
    | probe now => exact (probe_well_iff cools inRange).trans before
    | success => exact iff_of_true rfl Bool.false_ne_true
    | failure now => exact iff_of_false (deadline_ne_well cools inRange) fun w => w rfl

end Gateway.Health
