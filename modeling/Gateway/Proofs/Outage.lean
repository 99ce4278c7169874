/-
  Gateway.Proofs.Outage — what the shared store's trouble does to a call that spends.

  Whatever the store does with the attempt of a call, the call is answered a decision, and
  one counter has grown by one: the store's if it was tried and answered, the instance's
  own if not. `spend_settles` follows a call from any state of the instances, through
  waits of any length. Cancelled or not, no call is ever counted twice.
-/

import Gateway.Proofs.Charges
import Gateway.Proofs.Marks

namespace Gateway

def Limiter.tries (l : Limiter) (now : Instant) : Bool := l.shared && (l.health.probe now).1

/-- From `s` to `s'` the counter of `k` has grown by one, to `n`, and no other has changed. A
counter that stands at the greatest word stays there. -/
structure Counters.Grown (s s' : Counters) (k : WindowKey) (n : Nat) : Prop where
  grows : s'.count k = min (s.count k + 1) Word.top
  tells : n = s'.count k
  others : ∀ name, name ≠ k.storageName → s'.windows.get? name = s.windows.get? name

theorem Counters.record_grown (s : Counters) (k : WindowKey) : s.Grown (s.record k).2 k (s.record k).1 := by
  have counted : (s.record k).2.count k = (s.record k).1 := by rw [record_count, if_pos rfl]
  refine ⟨counted.trans (record_fst s k), counted.symm, fun name apart => ?_⟩
  unfold record
  exact Table.get?_insert_of_ne _ _ apart

theorem Limiter.begin_tries {l : Limiter} {p : AccountId} {o : Operation} {now : Instant} {k : WindowKey}
    (h : WindowKey.containing p o (l.policy.rule o).window now = .ok k) : l.begin p o now =
      .ok (⟨k, (l.policy.rule o).limit, now⟩, if l.tries now then .shared else .fallback,
        if l.tries now then { l with health := (l.health.probe now).2 } else l) := by
  unfold Limiter.begin Limiter.tries
  simp only [h]
  cases hs : l.shared with
  | false => rfl
  | true =>
    cases hp : (l.health.probe now).1 with
    | true => rfl
    | false =>
      simp only [Health.probe_skipped hp]
      cases l
      cases hs
      rfl

theorem Gate.spend_of_ok {g : Gate} {c : CallId} {r : Request} {who : Option Authorization} {p : AccountId}
    {o : Operation} {a : Attempt} {s : Source} {l : Limiter} (h : g.limiter.begin p o g.now = .ok (a, s, l)) :
    g.spend c r who p o = ({ g with limiter := l } : Gate).stay c r (s.stage a who) := by
  unfold spend
  rw [h]
  cases s <;> rfl

/-- Where the attempt of a call that comes to spend goes first. -/
theorem Gate.arrived_spend {g : Gate} {p : AccountId} {o : Operation} {k : WindowKey}
    (h : WindowKey.containing p o (g.limiter.policy.rule o).window g.now = .ok k) :
    g.step (.arrived (.spend p o)) =
      if g.limiter.tries g.now
        then ({ g with next := g.next + 1, limiter := { g.limiter with health := (g.limiter.health.probe g.now).2 } } :
          Gate).stay g.next (.spend p o) (.counting ⟨k, (g.limiter.policy.rule o).limit, g.now⟩ none)
        else ({ g with next := g.next + 1 } : Gate).stay g.next (.spend p o)
          (.countingLocally ⟨k, (g.limiter.policy.rule o).limit, g.now⟩ none) := by
  have begins : ({ g with next := g.next + 1 } : Gate).limiter.begin p o g.now = _ := Limiter.begin_tries h
  refine (Gate.spend_of_ok begins).trans ?_
  cases g.limiter.tries g.now <;> rfl

namespace Fleet

inductive Conduct where
  | answers
  | fails (x : Failure)
  /-- It does not answer in time. -/
  | silent
  deriving DecidableEq

/-- An attempt that the store fails, or answers too late, it has not counted. -/
def Conduct.events (i : Nat) (c : CallId) : Conduct → List Event
  | .answers => [.counts i c, .delivers i c]
  | .fails x => [.own i (.replied c (.failed x))]
  | .silent => [.own i (.replied c .silent)]

def waits (i : Nat) (m : List Int) : List Event := m.map fun d => .own i (.advanced d)

/-- A call comes to spend; after a while the store does this, and after another the instance
counts for itself what is still to be counted. -/
def spending (i : Nat) (c : CallId) (p : AccountId) (o : Operation) (x : Conduct) (m n : List Int) : List Event :=
  .own i (.arrived (.spend p o)) :: (waits i m ++ (x.events i c ++ (waits i n ++ [.own i (.countedLocally c)])))

structure Standing where
  call : Option Call
  store : Counters
  locals : Counters
  limiter : Limiter
  answers : List (CallId × Answer)
  letter : Option Letter

def standing (f : Fleet) (i : Nat) (c : CallId) : Standing :=
  ⟨(f.gates i).calls.get? c, f.store, (f.gates i).locals, (f.gates i).limiter, (f.gates i).answers, f.letter? i c⟩

variable {f : Fleet} {i : Nat} {c : CallId} {S L : Counters} {l : Limiter} {A : List (CallId × Answer)} {r : Request}
  {a : Attempt}

/-! ## What happens to a call -/

theorem run_append (f : Fleet) (es es' : List Event) : f.run (es ++ es') = (f.run es).run es' :=
  List.foldl_append

/-- What an instance does by itself, if it may. -/
theorem standing_own {d : Gate.Event} (free : f.free i d = true) : (f.step (.own i d)).standing i c =
    ⟨((f.gates i).step d).calls.get? c, f.store, ((f.gates i).step d).locals, ((f.gates i).step d).limiter,
      ((f.gates i).step d).answers, f.letter? i c⟩ := by
  have moved : ((f.step (.own i d)).gates i) = (f.gates i).step d := by
    simp only [step, free, if_true, move_gate]
  unfold standing
  rw [moved]
  simp only [step, free, if_true]
  rfl

theorem standing_waits (m : List Int) : (f.run (waits i m)).standing i c = f.standing i c := by
  induction m generalizing f with
  | nil => rfl
  | cons d m ih =>
    have waited : (f.step (.own i (.advanced d))).standing i c = f.standing i c := standing_own rfl
    exact ih.trans waited

/-- A call that has ended is not touched by what may still come for it. -/
theorem standing_over (h : f.standing i c = ⟨none, S, L, l, A, none⟩) :
    (f.step (.own i (.countedLocally c))).standing i c = ⟨none, S, L, l, A, none⟩ := by
  obtain ⟨hc, hS, hL, hl, hA, hm⟩ := Standing.mk.inj h
  rw [standing_own rfl]
  simp only [Gate.step, Gate.withCall, hc, hS, hL, hl, hA, hm]

/-- The instance counts the attempt itself. -/
theorem standing_counted (h : f.standing i c = ⟨some ⟨r, .countingLocally a none⟩, S, L, l, A, none⟩) :
    (f.step (.own i (.countedLocally c))).standing i c = ⟨none, S, (L.record a.key).2, l,
      A ++ [(c, .decision (.ok (Limiter.Attempt.decide a (L.record a.key).1 .fallback)))], none⟩ := by
  obtain ⟨hc, hS, hL, hl, hA, hm⟩ := Standing.mk.inj h
  rw [standing_own rfl]
  simp only [Gate.step, Gate.withCall, hc, Gate.countLocally, Gate.counted, Gate.decided, Gate.finish, Gate.say,
    Table.get?_erase, if_true, hS, hL, hl, hA, hm]

/-- The store counts the attempt, and its reply is taken. -/
theorem standing_answered (h : f.standing i c = ⟨some ⟨r, .counting a none⟩, S, L, l, A, none⟩) :
    (f.run (Conduct.answers.events i c)).standing i c = ⟨none, (S.record a.key).2, L,
      { l with health := l.health.succeeded.2 },
      A ++ [(c, .decision (.ok (Limiter.Attempt.decide a (S.record a.key).1 .shared)))], none⟩ := by
  obtain ⟨hc, hS, hL, hl, hA, hm⟩ := Standing.mk.inj h
  have counted : f.step (.counts i c) = { f with store := (S.record a.key).2,
                                                  mail := ⟨i, c, a.key, (S.record a.key).1⟩ :: f.mail } := by
    simp only [step, need_attempt.mpr ⟨r, a, none, hc, rfl⟩, hm, hS]
  have posted : (f.step (.counts i c)).letter? i c = some ⟨i, c, a.key, (S.record a.key).1⟩ := by
    rw [counted]
    exact List.find?_cons_of_pos (by simp [Letter.to])
  show ((f.step (.counts i c)).step (.delivers i c)).standing i c = _
  rw [delivers_step posted, counted]
  simp only [standing, move_gate, if_true, List.erase_cons_head]
  simp only [Gate.step, Gate.withCall, hc, Gate.hear, Gate.hearShared, Limiter.hear, Gate.counted, Gate.decided,
    Gate.finish, Gate.say, Table.get?_erase, if_true, hL, hl, hA]
  congr 1

/-- The store fails the attempt. -/
theorem standing_failed (h : f.standing i c = ⟨some ⟨r, .counting a none⟩, S, L, l, A, none⟩) {x : Conduct}
    (hx : x ≠ .answers) : (f.run (x.events i c)).standing i c = ⟨some ⟨r, .countingLocally a none⟩, S, L,
      { l with health := (l.health.failed a.began).2 }, A, none⟩ := by
  obtain ⟨hc, hS, hL, hl, hA, hm⟩ := Standing.mk.inj h
  cases x with
  | answers => exact absurd rfl hx
  | fails x =>
    show (f.step (.own i (.replied c (.failed x)))).standing i c = _
    rw [standing_own (by simp only [free, hm, Option.isNone_none])]
    simp only [Gate.step, Gate.withCall, hc, Gate.hear, Gate.hearShared, Limiter.hear, Limiter.noteFailure, Gate.stay,
      Gate.say, Table.get?_insert_self, hS, hL, hl, hA, hm]
  | silent =>
    show (f.step (.own i (.replied c .silent))).standing i c = _
    rw [standing_own (by simp only [free, hm, Option.isNone_none])]
    simp only [Gate.step, Gate.withCall, hc, Gate.hear, Gate.hearShared, Limiter.hear, Limiter.noteFailure, Gate.stay,
      Gate.say, Table.get?_insert_self, hS, hL, hl, hA, hm]

/-- A call that the store is not tried for goes on undisturbed by it. -/
theorem standing_skipped (h : f.standing i c = ⟨some ⟨r, .countingLocally a none⟩, S, L, l, A, none⟩) (x : Conduct) :
    (f.run (x.events i c)).standing i c = ⟨some ⟨r, .countingLocally a none⟩, S, L, l, A, none⟩ := by
  obtain ⟨hc, hS, hL, hl, hA, hm⟩ := Standing.mk.inj h
  have need : (f.gates i).need? c = some .fallback := by simp [Gate.need?, hc]
  cases x with
  | answers =>
    have uncounted : f.step (.counts i c) = f := by simp only [step, need]
    have untaken : f.step (.delivers i c) = f := by simp only [step, hm]
    show ((f.step (.counts i c)).step (.delivers i c)).standing i c = _
    rw [uncounted, untaken, h]
  | fails x =>
    show (f.step (.own i (.replied c (.failed x)))).standing i c = _
    rw [standing_own (by simp only [free, hm, Option.isNone_none])]
    simp only [Gate.step, Gate.withCall, hc, Gate.hear, hS, hL, hl, hA, hm]
  | silent =>
    show (f.step (.own i (.replied c .silent))).standing i c = _
    rw [standing_own (by simp only [free, hm, Option.isNone_none])]
    simp only [Gate.step, Gate.withCall, hc, Gate.hear, hS, hL, hl, hA, hm]

/-! ## A call that spends -/

/-- No reply is on its way to a call that has not come. -/
theorem Inv.unposted (inv : Inv f) (i : Nat) : f.letter? i (f.gates i).next = none := by
  cases hl : f.letter? i (f.gates i).next with
  | none => rfl
  | some l =>
    obtain ⟨mem, hg, hc⟩ := letter?_some hl
    obtain ⟨r, a, who, hw, -⟩ := inv.waits l mem
    rw [hg, hc] at hw
    exact absurd (inv.numbered i _ _ hw) (Nat.lt_irrefl _)

/-- The attempt of a call that comes to spend, and where it goes first. -/
theorem standing_arrived (inv : Inv f) {p : AccountId} {o : Operation} {k : WindowKey}
    (h : WindowKey.containing p o ((f.gates i).limiter.policy.rule o).window (f.gates i).now = .ok k) :
    (f.step (.own i (.arrived (.spend p o)))).standing i (f.gates i).next =
      if (f.gates i).limiter.tries (f.gates i).now
        then ⟨some ⟨.spend p o, .counting ⟨k, ((f.gates i).limiter.policy.rule o).limit, (f.gates i).now⟩ none⟩,
          f.store, (f.gates i).locals,
          { (f.gates i).limiter with health := ((f.gates i).limiter.health.probe (f.gates i).now).2 },
          (f.gates i).answers, none⟩
        else ⟨some ⟨.spend p o, .countingLocally ⟨k, ((f.gates i).limiter.policy.rule o).limit, (f.gates i).now⟩ none⟩,
          f.store, (f.gates i).locals, (f.gates i).limiter, (f.gates i).answers, none⟩ := by
  rw [standing_own rfl, inv.unposted i, Gate.arrived_spend h]
  cases (f.gates i).limiter.tries (f.gates i).now with
  | true => simp only [if_true, Gate.stay, Table.get?_insert_self]
  | false => simp only [Bool.false_eq_true, if_false, Gate.stay, Table.get?_insert_self]

theorem spending_run (f : Fleet) (i : Nat) (c : CallId) (p : AccountId) (o : Operation) (x : Conduct) (m n : List Int) :
    f.run (spending i c p o x m n) = ((((f.step (.own i (.arrived (.spend p o)))).run (waits i m)).run
      (x.events i c)).run (waits i n)).step (.own i (.countedLocally c)) := by
  show (f.step _).run _ = _
  rw [run_append, run_append, run_append]
  rfl

section Spending

variable {p : AccountId} {o : Operation} {k : WindowKey} {x : Conduct}

/-- The store is tried, and answers. -/
theorem spending_answered (inv : Inv f)
    (h : WindowKey.containing p o ((f.gates i).limiter.policy.rule o).window (f.gates i).now = .ok k)
    (ht : (f.gates i).limiter.tries (f.gates i).now = true) (m n : List Int) :
    (f.run (spending i (f.gates i).next p o .answers m n)).standing i (f.gates i).next =
      ⟨none, (f.store.record k).2, (f.gates i).locals,
        { (f.gates i).limiter with health := ((f.gates i).limiter.health.probe (f.gates i).now).2.succeeded.2 },
        (f.gates i).answers ++ [((f.gates i).next,
          .decision (.ok ⟨k, (f.store.record k).1, ((f.gates i).limiter.policy.rule o).limit, .shared⟩))], none⟩ := by
  have arrived := standing_arrived inv h
  rw [if_pos ht] at arrived
  have answered := standing_answered ((standing_waits m).trans arrived)
  rw [spending_run]
  have ended := standing_over ((standing_waits n).trans answered)
  exact ended

/-- The store is tried, and fails. -/
theorem spending_failed (inv : Inv f)
    (h : WindowKey.containing p o ((f.gates i).limiter.policy.rule o).window (f.gates i).now = .ok k)
    (ht : (f.gates i).limiter.tries (f.gates i).now = true) (hx : x ≠ .answers) (m n : List Int) :
    (f.run (spending i (f.gates i).next p o x m n)).standing i (f.gates i).next =
      ⟨none, f.store, ((f.gates i).locals.record k).2,
        { (f.gates i).limiter with
          health := (((f.gates i).limiter.health.probe (f.gates i).now).2.failed (f.gates i).now).2 },
        (f.gates i).answers ++ [((f.gates i).next, .decision
          (.ok ⟨k, ((f.gates i).locals.record k).1, ((f.gates i).limiter.policy.rule o).limit, .fallback⟩))], none⟩ := by
  have arrived := standing_arrived inv h
  rw [if_pos ht] at arrived
  have failed := standing_failed ((standing_waits m).trans arrived) hx
  have counted := standing_counted ((standing_waits n).trans failed)
  rw [spending_run]
  exact counted

/-- The store is not tried. -/
theorem spending_skipped (inv : Inv f)
    (h : WindowKey.containing p o ((f.gates i).limiter.policy.rule o).window (f.gates i).now = .ok k)
    (ht : (f.gates i).limiter.tries (f.gates i).now = false) (x : Conduct) (m n : List Int) :
    (f.run (spending i (f.gates i).next p o x m n)).standing i (f.gates i).next =
      ⟨none, f.store, ((f.gates i).locals.record k).2, (f.gates i).limiter,
        (f.gates i).answers ++ [((f.gates i).next, .decision
          (.ok ⟨k, ((f.gates i).locals.record k).1, ((f.gates i).limiter.policy.rule o).limit, .fallback⟩))], none⟩ := by
  have arrived := standing_arrived inv h
  rw [ht, if_neg Bool.false_ne_true] at arrived
  have skipped := standing_skipped ((standing_waits m).trans arrived) x
  have counted := standing_counted ((standing_waits n).trans skipped)
  rw [spending_run]
  exact counted

end Spending

/-- No call is counted twice, whether it is cancelled or not. -/
theorem charged_once (inv : Inv f) (es : List Event) (q : Nat × CallId) :
    ((f.charges es).filter fun y => y.to = q).length ≤ 1 := by
  have once := List.nodup_iff_count_le_one.mp (run_booked inv es).once q
  rw [List.count, List.countP_map] at once
  rw [← List.countP_eq_length_filter]
  simpa [Function.comp_def, beq_eq_decide] using once

/-- Whatever the shared store does, a call that spends is answered a decision. It is by the
shared store exactly if that was tried and answered in time; the counter that it names has
grown by one to the count that it tells, and no other counter of either store has changed.
The store counts as well after an answer, is kept away from until the call's instant plus
the cool-down after a failure, and is thought of as before if it was not tried. In no run
is the call counted twice. The state before is any that a run can reach, and more: `Inv`
says nothing of clocks, counters or health. -/
theorem spend_settles (f : Fleet) (inv : Inv f) (i : Nat) (p : AccountId) (o : Operation) (d : Nat) (x : Conduct)
    (m n : List Int) (narrow : 0 < ((f.gates i).limiter.policy.rule o).window.millis)
    (wide : (((f.gates i).limiter.policy.rule o).window.millis : Int) ≤ Word.greatest)
    (ranged : (f.gates i).now.InRange) (cools : (f.gates i).limiter.health.cooldown = Word.clamp d) :
    let g := f.gates i
    let f' := f.run (spending i g.next p o x m n)
    let g' := f'.gates i
    let tried := g.limiter.tries g.now
    (∃ D : Decision, g'.answers = g.answers ++ [(g.next, .decision (.ok D))] ∧
      WindowKey.containing p o (g.limiter.policy.rule o).window g.now = .ok D.key ∧
      D.limit = (g.limiter.policy.rule o).limit ∧ (D.source = .shared ↔ tried = true ∧ x = .answers) ∧
      (D.source = .shared → f.store.Grown f'.store D.key D.count ∧ g'.locals = g.locals) ∧
      (D.source = .fallback → g.locals.Grown g'.locals D.key D.count ∧ f'.store = f.store)) ∧
    (tried = true → x = .answers → g'.limiter.health.mark = Health.well ∧ g'.limiter.health.failures = 0) ∧
    (tried = true → x ≠ .answers → ∀ t : Instant, t.InRange → ((g'.limiter.health.probe t).1 = true ↔ g.now + d ≤ t)) ∧
    (tried = false → g'.limiter.health = g.limiter.health) ∧
    ∀ es, ((f.charges (.own i (.arrived (.spend p o)) :: es)).filter fun y => y.to = (i, g.next)).length ≤ 1 := by
  intro g f' g' tried
  have key : WindowKey.containing p o (g.limiter.policy.rule o).window g.now = .ok _ :=
    WindowKey.containing_ok.mpr ⟨narrow, wide, rfl⟩
  have once : ∀ es, ((f.charges (.own i (.arrived (.spend p o)) :: es)).filter fun y => y.to = (i, g.next)).length ≤ 1 :=
    fun es => charged_once inv _ _
  cases ht : tried with
  | true =>
    by_cases hx : x = .answers
    · subst hx
      obtain ⟨-, store, locals, limiter, answers, -⟩ := Standing.mk.inj (spending_answered inv key ht m n)
      refine ⟨⟨_, answers, key, rfl, iff_of_true rfl ⟨rfl, rfl⟩, fun _ => ⟨?_, locals⟩, fun h => (by cases h)⟩,
        fun _ _ => ?_, fun _ h => absurd rfl h, fun h => (by cases h), once⟩
      · show f.store.Grown (f.run _).store _ _
        rw [store]
        exact Counters.record_grown _ _
      · show ((f.run _).gates i).limiter.health.mark = _ ∧ ((f.run _).gates i).limiter.health.failures = _
        rw [limiter]
        exact ⟨rfl, rfl⟩
    · obtain ⟨-, store, locals, limiter, answers, -⟩ := Standing.mk.inj (spending_failed inv key ht hx m n)
      refine ⟨⟨_, answers, key, rfl, iff_of_false (fun h => by cases h) (fun h => hx h.2), fun h => (by cases h),
        fun _ => ⟨?_, store⟩⟩, fun _ h => absurd h hx, fun _ _ t inRange => ?_, fun h => (by cases h), once⟩
      · show g.locals.Grown ((f.run _).gates i).locals _ _
        rw [locals]
        exact Counters.record_grown _ _
      · show (((f.run _).gates i).limiter.health.probe t).1 = true ↔ _
        rw [limiter]
        exact Health.probe_failed cools ranged inRange
  | false =>
    obtain ⟨-, store, locals, limiter, answers, -⟩ := Standing.mk.inj (spending_skipped inv key ht x m n)
    refine ⟨⟨_, answers, key, rfl, iff_of_false (fun h => by cases h) (fun h => by cases h.1), fun h => (by cases h),
      fun _ => ⟨?_, store⟩⟩, fun h => (by cases h), fun h => (by cases h), fun _ => ?_, once⟩
    · show g.locals.Grown ((f.run _).gates i).locals _ _
      rw [locals]
      exact Counters.record_grown _ _
    · show ((f.run _).gates i).limiter.health = _
      rw [limiter]

/-! ## A store that stays silent -/

def silence : List Event := spending 0 0 ⟨"acct"⟩ .create .silent [250] []

/-- The call is answered all the same, and the store is kept away from for five seconds. -/
theorem silence_settles :
    let g := oneASecond.gates 0
    let g' := (oneASecond.run silence).gates 0
    oneASecond.Inv ∧ 0 < (g.limiter.policy.rule .create).window.millis ∧
      ((g.limiter.policy.rule .create).window.millis : Int) ≤ Word.greatest ∧ g.now.InRange ∧
      g.limiter.health.cooldown = Word.clamp (5000 : Nat) ∧ g.limiter.tries g.now = true ∧
      (∃ D : Decision, g'.answers = g.answers ++ [(0, .decision (.ok D))] ∧ D.source = .fallback ∧
        g.locals.Grown g'.locals D.key D.count ∧ (oneASecond.run silence).store = oneASecond.store) ∧
      ∀ t : Instant, t.InRange → ((g'.limiter.health.probe t).1 = true ↔ g.now + (5000 : Nat) ≤ t) := by
  intro g g'
  have inv : oneASecond.Inv := start_inv _ _ _ _
  have narrow : 0 < (g.limiter.policy.rule .create).window.millis := by decide
  have wide : ((g.limiter.policy.rule .create).window.millis : Int) ≤ Word.greatest := by decide
  have ranged : g.now.InRange := by decide
  have cools : g.limiter.health.cooldown = Word.clamp (5000 : Nat) := by decide
  have tried : g.limiter.tries g.now = true := by decide
  obtain ⟨⟨D, answers, -, -, source, -, own⟩, -, away, -⟩ :=
    spend_settles oneASecond inv 0 ⟨"acct"⟩ .create 5000 .silent [250] [] narrow wide ranged cools
  have fallback : D.source = .fallback := by
    cases hs : D.source with
    | fallback => rfl
    | shared => cases (source.mp hs).2
  have unanswered : Conduct.silent ≠ .answers := by decide
  exact ⟨inv, narrow, wide, ranged, cools, tried, ⟨D, answers, fallback, own fallback⟩, away tried unanswered⟩

end Fleet

end Gateway
