/-
  Gateway.Proofs.Charges — the attempts that are counted, and whose they are.

  An attempt is charged where it is counted: by the shared store, whose reply is then on
  its way, or by an instance itself. The ruling that a call gets is the one with which it
  was charged.

  Proved, for any run of any number of instances:
  (1) A charge counts one more attempt on its key, and nothing else does (`step_store`,
      `step_locals_count`).
  (2) Every reply on its way is for a charge, and every charge is for a call that such a
      reply is on its way to or that has ended; so no call is charged twice (`Booked`).
  (3) Every ruling has been charged (`ruled_charged`).
-/

import Gateway.Proofs.LocalCeiling
import Gateway.Proofs.Provenance
import Gateway.Proofs.SharedCeiling
import Gateway.Proofs.Ventures

namespace Gateway

/-- An attempt that is counted at an instance, with the ruling that follows. -/
structure Charge where
  gate : Nat
  ruling : Ruling

def Charge.to (x : Charge) : Nat × CallId := (x.gate, x.ruling.call)

namespace Fleet

def charge (f : Fleet) : Event → Option Charge
  | .own i e => if f.free i e then ((f.gates i).made e).map fun x => ⟨i, x⟩ else none
  | .counts i c => match (f.gates i).calls.get? c, f.letter? i c with
    | some ⟨_, .counting a who⟩, none =>
      some ⟨i, c, who, Limiter.Attempt.decide a (f.store.record a.key).1 .shared⟩
    | _, _ => none
  | .delivers _ _ => none

def charges (f : Fleet) : List Event → List Charge
  | [] => []
  | e :: es => (f.charge e).toList ++ (f.step e).charges es

def acts (f : Fleet) (i : Nat) : Event → Option Gate.Event
  | .own j e => if j = i ∧ f.free j e = true then some e else none
  | .counts _ _ => none
  | .delivers j c => if j = i then (f.letter? j c).map fun l => .replied c (.counted l.count) else none

def trace (f : Fleet) (i : Nat) : List Event → List Gate.Event
  | [] => []
  | e :: es => (f.acts i e).toList ++ (f.step e).trace i es

variable {f : Fleet} {i : Nat} {c : CallId} {k : WindowKey} {e : Event} {es es' : List Event}

/-! ## The runs of the instances -/

theorem charges_snoc (f : Fleet) (es : List Event) (e : Event) :
    f.charges (es ++ [e]) = f.charges es ++ ((f.run es).charge e).toList := by
  induction es generalizing f with
  | nil => simp [charges, run]
  | cons d es ih => simp [charges, ih, run]

theorem trace_snoc (f : Fleet) (i : Nat) (es : List Event) (e : Event) :
    f.trace i (es ++ [e]) = f.trace i es ++ ((f.run es).acts i e).toList := by
  induction es generalizing f with
  | nil => simp [trace, run]
  | cons d es ih => simp [trace, ih, run]

theorem step_gate (f : Fleet) (e : Event) (i : Nat) :
    (f.step e).gates i = (f.gates i).run (f.acts i e).toList := by
  cases e with
  | own j e =>
    simp only [step, acts]
    by_cases free : f.free j e = true
    · rw [if_pos free, move_gate]
      by_cases h : i = j
      · rw [if_pos h, if_pos ⟨h.symm, free⟩]
        rfl
      · rw [if_neg h, if_neg fun both => h both.1.symm]
        rfl
    · rw [if_neg free, if_neg fun both => free both.2]
      rfl
  | counts j c =>
    simp only [step]
    split <;> rfl
  | delivers j c =>
    cases hl : f.letter? j c with
    | none =>
      simp only [step, acts, hl, Option.map_none, ite_self]
      rfl
    | some l =>
      simp only [step, acts, hl, Option.map_some]
      show (f.move j _).gates i = _
      rw [move_gate]
      by_cases h : i = j
      · rw [if_pos h, if_pos h.symm]
        rfl
      · rw [if_neg h, if_neg (Ne.symm h)]
        rfl

/-- Other instances stay as they are. -/
theorem gate_still (h : i ≠ e.gate) : (f.step e).gates i = f.gates i := by
  rw [step_gate]
  cases e with
  | own j d =>
    have away : ¬ (j = i ∧ f.free j d = true) := fun both => h both.1.symm
    simp only [acts, if_neg away]
    rfl
  | counts j c => rfl
  | delivers j c =>
    have away : ¬ j = i := fun same => h same.symm
    simp only [acts, if_neg away]
    rfl

theorem run_gate (f : Fleet) (es : List Event) (i : Nat) : (f.run es).gates i = (f.gates i).run (f.trace i es) := by
  induction es generalizing f with
  | nil => rfl
  | cons e es ih =>
    show ((f.step e).run es).gates i = _
    rw [ih, step_gate, trace, Gate.run_append]

theorem trace_mono (h : es <+: es') : f.trace i es <+: f.trace i es' := by
  obtain ⟨post, rfl⟩ := h
  induction post using List.reverseRecOn with
  | nil => rw [List.append_nil]
  | append_singleton post e ih =>
    rw [← List.append_assoc, trace_snoc]
    exact ih.trans (List.prefix_append _ _)

/-- Where an event of an instance stands in the run of all. -/
theorem trace_prefix {pre : List Gate.Event} {d : Gate.Event} (h : pre ++ [d] <+: f.trace i es) :
    ∃ before e, before ++ [e] <+: es ∧ f.trace i before = pre ∧ (f.run before).acts i e = some d := by
  induction es using List.reverseRecOn with
  | nil => exact absurd (List.prefix_nil.mp h) (by simp)
  | append_singleton es e ih =>
    rw [trace_snoc] at h
    cases ha : (f.run es).acts i e with
    | none =>
      rw [ha, Option.toList_none, List.append_nil] at h
      obtain ⟨before, e', within, rest⟩ := ih h
      exact ⟨before, e', within.trans (List.prefix_append _ _), rest⟩
    | some d' =>
      rw [ha, Option.toList_some] at h
      rcases Gate.before_or_same h with h | ⟨rfl, rfl⟩
      · obtain ⟨before, e', within, rest⟩ := ih h
        exact ⟨before, e', within.trans (List.prefix_append _ _), rest⟩
      · exact ⟨es, e, List.prefix_refl _, rfl, ha⟩

/-! ## (1) Counters grow by charges -/

/-- What an instance counts by itself is not charged to the shared store. -/
theorem own_on_shared {j : Nat} {d : Gate.Event} {x : Charge} (h : f.charge (.own j d) = some x) :
    x.ruling.on k .shared = false := by
  simp only [charge] at h
  split at h
  · rename_i free
    obtain ⟨y, hy, rfl⟩ := Option.map_eq_some_iff.mp h
    have unshared := own_unshared (k := k) free
    rw [hy, Option.toList_some, List.filter_eq_nil_iff] at unshared
    exact Bool.eq_false_iff.mpr (unshared y List.mem_cons_self)
  · cases h

/-- Where the store counts, a call waits for it that no reply is on its way to. -/
theorem counts_charge {x : Charge} (h : f.charge (.counts i c) = some x) :
    ∃ r a who, (f.gates i).calls.get? c = some ⟨r, .counting a who⟩ ∧ f.letter? i c = none ∧
      x = ⟨i, c, who, Limiter.Attempt.decide a (f.store.record a.key).1 .shared⟩ ∧
      f.step (.counts i c) =
        { f with store := (f.store.record a.key).2, mail := ⟨i, c, a.key, (f.store.record a.key).1⟩ :: f.mail } := by
  simp only [charge] at h
  split at h
  · rename_i r a who hc hl
    have hn : (f.gates i).need? c = some (.attempt a.key) := need_attempt.mpr ⟨r, a, who, hc, rfl⟩
    cases h
    exact ⟨r, a, who, hc, hl, rfl, by simp only [step, hn, hl]⟩
  · cases h

/-- The store counts nothing that is not charged. -/
theorem counts_still (h : f.charge (.counts i c) = none) : f.step (.counts i c) = f := by
  simp only [charge] at h
  simp only [step]
  split
  · rename_i k' hn hl
    obtain ⟨r, a, who, hc, -⟩ := need_attempt.mp hn
    rw [hc, hl] at h
    cases h
  · rfl

/-- The store counts an attempt exactly where it is charged to it. -/
theorem step_store (f : Fleet) (e : Event) (k : WindowKey) : (f.step e).store.count k =
    if (f.charge e).any (fun x => x.ruling.on k .shared) then (f.store.record k).1 else f.store.count k := by
  cases e with
  | own j d =>
    have still : (f.step (.own j d)).store = f.store := by
      simp only [step]
      split <;> rfl
    rw [still, if_neg]
    cases h : f.charge (.own j d) with
    | none => exact Bool.false_ne_true
    | some x =>
      rw [Option.any_some, own_on_shared h]
      exact Bool.false_ne_true
  | counts j c =>
    cases h : f.charge (.counts j c) with
    | none =>
      rw [counts_still h]
      rfl
    | some x =>
      obtain ⟨r, a, who, -, -, rfl, is⟩ := counts_charge h
      rw [is, Option.any_some]
      show (f.store.record a.key).2.count k = _
      rw [Counters.record_count]
      by_cases hk : a.key = k
      · rw [if_pos hk.symm, if_pos (by simp [Ruling.on, Limiter.Attempt.decide, hk]), hk]
      · rw [if_neg (Ne.symm hk), if_neg (by simp [Ruling.on, Limiter.Attempt.decide, hk])]
  | delivers j c =>
    show _ = f.store.count k
    simp only [step]
    split <;> rfl

/-- An instance counts an attempt exactly where it is charged there. -/
theorem counted_iff : (∃ d, f.acts i e = some d ∧ (f.gates i).mark k d = some .counted) ↔
    ∃ x, f.charge e = some x ∧ x.gate = i ∧ x.ruling.on k .fallback = true := by
  constructor
  · intro w
    obtain ⟨d, ha, counted⟩ := w
    obtain ⟨x, made, on, -⟩ := Gate.made_of_counted counted
    refine ⟨⟨i, x⟩, ?_, rfl, on⟩
    cases e with
    | own j d' =>
      simp only [acts] at ha
      split at ha
      · rename_i both
        obtain ⟨rfl, free⟩ := both
        cases ha
        simp only [charge, free, if_true, made, Option.map_some]
      · cases ha
    | counts j c => cases ha
    | delivers j c =>
      simp only [acts] at ha
      split at ha
      · obtain ⟨l, -, rfl⟩ := Option.map_eq_some_iff.mp ha
        cases counted
      · cases ha
  · intro w
    obtain ⟨x, hx, rfl, on⟩ := w
    cases e with
    | own j d =>
      simp only [charge] at hx
      split at hx
      · rename_i free
        obtain ⟨y, made, rfl⟩ := Option.map_eq_some_iff.mp hx
        refine ⟨d, by simp only [acts, free, and_self, if_true], ?_⟩
        by_cases counted : (f.gates j).mark k d = some .counted
        · exact counted
        · rw [Gate.not_on_of_made counted made] at on
          cases on
      · cases hx
    | counts j c =>
      obtain ⟨r, a, who, -, -, rfl, -⟩ := counts_charge hx
      simp [Ruling.on, Limiter.Attempt.decide] at on
    | delivers j c => cases hx

/-- What a step does to a count of an instance. -/
theorem step_locals_count (hd : (f.gates i).locals.Dated) (k : WindowKey) (e : Event) :
    ((∃ x, f.charge e = some x ∧ x.gate = i ∧ x.ruling.on k .fallback = true) ∧
      ((f.step e).gates i).locals.count k = ((f.gates i).locals.record k).1) ∨
    ((¬ ∃ x, f.charge e = some x ∧ x.gate = i ∧ x.ruling.on k .fallback = true) ∧
      (((f.step e).gates i).locals.count k = (f.gates i).locals.count k ∨
        k.stop ≤ (f.gates i).now ∧ ((f.step e).gates i).locals.count k = 0)) := by
  rw [← counted_iff, step_gate]
  cases ha : f.acts i e with
  | none =>
    refine Or.inr ⟨fun w => ?_, Or.inl rfl⟩
    obtain ⟨d, hd, -⟩ := w
    cases hd
  | some d =>
    have counted : (f.gates i).mark k d = some .counted →
        ∃ d', some d = some d' ∧ (f.gates i).mark k d' = some .counted := fun h => ⟨d, rfl, h⟩
    have uncounted : (f.gates i).mark k d ≠ some .counted →
        ¬ ∃ d', some d = some d' ∧ (f.gates i).mark k d' = some .counted := by
      intro h w
      obtain ⟨d', same, hm⟩ := w
      cases same
      exact h hm
    have count := Gate.step_count hd k d
    change (((f.gates i).step d).locals.count k = _) at count
    show (_ ∧ ((f.gates i).step d).locals.count k = _) ∨ (_ ∧ (((f.gates i).step d).locals.count k = _ ∨ _))
    cases hm : (f.gates i).mark k d with
    | none =>
      rw [hm] at count
      exact Or.inr ⟨uncounted (by rw [hm]; simp), Or.inl count⟩
    | some m =>
      rw [hm] at count
      cases m with
      | counted => exact Or.inl ⟨counted hm, count⟩
      | closed => exact Or.inr ⟨uncounted (by rw [hm]; simp), Or.inr ⟨Gate.stop_of_closed hm, count⟩⟩

def Ended (f : Fleet) (p : Nat × CallId) : Prop := (f.gates p.1).calls.get? p.2 = none ∧ p.2 < (f.gates p.1).next

/-- A charge has its reply on its way, or its call has ended; and it is the only one of its call. -/
structure Booked (f₀ : Fleet) (es : List Event) : Prop where
  kept : ∀ x ∈ f₀.charges es, (∃ l ∈ (f₀.run es).mail, l.to = x.to) ∨ (f₀.run es).Ended x.to
  once : ((f₀.charges es).map Charge.to).Nodup

variable {f₀ : Fleet}

theorem Ended.stays {p : Nat × CallId} (h : f.Ended p) (e : Event) : (f.step e).Ended p := by
  unfold Ended
  rw [step_gate]
  cases f.acts p.1 e with
  | none => exact h
  | some d => exact ⟨Gate.ended_stays h.1 h.2, Nat.lt_of_lt_of_le h.2 (Gate.step_next_le _ d)⟩

/-- A call that is in progress, and that no reply is on its way to, has not been charged. -/
theorem Booked.uncharged (h : Booked f₀ es) {p : Nat × CallId} {y : Call} (hl : ∀ l ∈ (f₀.run es).mail, l.to ≠ p)
    (hc : ((f₀.run es).gates p.1).calls.get? p.2 = some y) : p ∉ (f₀.charges es).map Charge.to := by
  intro hm
  obtain ⟨z, hz, rfl⟩ := List.mem_map.mp hm
  rcases h.kept z hz with ⟨l, mail, toward⟩ | ended
  · exact hl l mail toward
  · have gone := ended.1
    rw [hc] at gone
    cases gone

/-- A call that a decision is made for has ended. -/
theorem made_ended {g : Gate} {d : Gate.Event} {x : Ruling} (hn : g.Numbered) (h : g.made d = some x) :
    (g.step d).calls.get? x.call = none ∧ x.call < (g.step d).next := by
  refine ⟨Gate.made_ends h, Nat.lt_of_lt_of_le ?_ (Gate.step_next_le g d)⟩
  rcases Gate.made_cases h with ⟨c, n, r, a, who, -, hc, rfl⟩ | ⟨c, r, a, who, -, hc, rfl⟩
  · exact hn c _ hc
  · exact hn c _ hc

/-- What an instance counts by itself. -/
theorem own_charge {j : Nat} {d : Gate.Event} {x : Charge} (h : f.charge (.own j d) = some x) :
    f.free j d = true ∧ (f.gates j).made d = some x.ruling ∧
      ∃ c r a who, (f.gates j).calls.get? c = some ⟨r, .countingLocally a who⟩ ∧
        x = ⟨j, c, who, Limiter.Attempt.decide a ((f.gates j).locals.record a.key).1 .fallback⟩ := by
  have unshared := fun k => own_on_shared (k := k) h
  simp only [charge] at h
  split at h
  · rename_i free
    obtain ⟨y, made, rfl⟩ := Option.map_eq_some_iff.mp h
    refine ⟨free, made, ?_⟩
    rcases Gate.made_cases made with ⟨c, n, r, a, who, -, -, rfl⟩ | ⟨c, r, a, who, -, hc, rfl⟩
    · have := unshared a.key
      simp [Ruling.on, Limiter.Attempt.decide] at this
    · exact ⟨c, r, a, who, hc, rfl⟩
  · cases h

theorem mem_charges_snoc {x : Charge} (h : x ∈ f.charges es) (e : Event) : x ∈ f.charges (es ++ [e]) := by
  rw [charges_snoc]
  exact List.mem_append_left _ h

theorem charge_mem {x : Charge} (h : (f.run es).charge e = some x) : x ∈ f.charges (es ++ [e]) := by
  rw [charges_snoc, h]
  exact List.mem_append_right _ List.mem_cons_self

/-- A charge keeps its reply on its way while no reply is taken. -/
theorem Booked.snoc (h : Booked f₀ es) (hm : (f₀.run es).mail ⊆ ((f₀.run es).step e).mail)
    (new : ∀ x, (f₀.run es).charge e = some x → x.to ∉ (f₀.charges es).map Charge.to ∧
      ((∃ l ∈ ((f₀.run es).step e).mail, l.to = x.to) ∨ ((f₀.run es).step e).Ended x.to)) : Booked f₀ (es ++ [e]) := by
  rw [← run_snoc] at hm new
  refine ⟨fun x hx => ?_, ?_⟩
  · rw [charges_snoc, List.mem_append] at hx
    rcases hx with hx | hx
    · rcases h.kept x hx with ⟨l, mail, toward⟩ | ended
      · exact Or.inl ⟨l, hm mail, toward⟩
      · rw [run_snoc]
        exact Or.inr (ended.stays e)
    · exact (new x (Option.mem_toList.mp hx)).2
  · rw [charges_snoc, List.map_append]
    cases hc : (f₀.run es).charge e with
    | none =>
      rw [Option.toList_none, List.map_nil, List.append_nil]
      exact h.once
    | some x =>
      rw [Option.toList_some, List.map_singleton]
      exact List.nodup_append_comm.mp (List.nodup_cons.mpr ⟨(new x hc).1, h.once⟩)

theorem own_booked {j : Nat} {d : Gate.Event} (inv : Inv (f₀.run es)) (h : Booked f₀ es) :
    Booked f₀ (es ++ [.own j d]) := by
  have mail : ((f₀.run es).step (.own j d)).mail = (f₀.run es).mail := by
    simp only [step]
    split <;> rfl
  refine h.snoc (by rw [mail]; exact List.Subset.refl _) fun x hx => ?_
  obtain ⟨free, made, c, r, a, who, hc, rfl⟩ := own_charge hx
  refine ⟨h.uncharged (p := (j, c)) (fun l hl toward => ?_) hc, Or.inr ?_⟩
  · obtain ⟨r', a', who', hw, -⟩ := inv.waits l hl
    obtain ⟨hg, hcall⟩ := Prod.ext_iff.mp toward
    rw [show l.gate = j from hg, show l.call = c from hcall, hc] at hw
    cases hw
  · show ((f₀.run es).step _).Ended (j, c)
    simp only [Ended, step, free, if_true, move_gate]
    exact made_ended (inv.numbered _) made

theorem counts_booked {j : Nat} (h : Booked f₀ es) : Booked f₀ (es ++ [.counts j c]) := by
  cases hx : (f₀.run es).charge (.counts j c) with
  | none =>
    refine h.snoc ?_ fun x hy => ?_
    · rw [counts_still hx]
      exact List.Subset.refl _
    · rw [hx] at hy
      cases hy
  | some x =>
    obtain ⟨r, a, who, hc, hl, rfl, is⟩ := counts_charge hx
    refine h.snoc ?_ fun y hy => ?_
    · rw [is]
      exact List.subset_cons_self _ _
    · rw [hx] at hy
      cases hy
      refine ⟨h.uncharged (p := (j, c)) (fun l hm toward => ?_) hc, Or.inl ⟨_, by rw [is]; exact List.mem_cons_self, rfl⟩⟩
      exact letter?_none hl (List.mem_map.mpr ⟨l, hm, toward⟩)

theorem delivers_step {l : Letter} (hl : f.letter? i c = some l) :
    f.step (.delivers i c) = { f.move i (.replied c (.counted l.count)) with mail := f.mail.erase l } := by
  simp only [step, hl]

/-- A reply that is taken ends the call that its charge is for. -/
theorem delivers_booked {j : Nat} (inv : Inv (f₀.run es)) (h : Booked f₀ es) : Booked f₀ (es ++ [.delivers j c]) := by
  have same : f₀.charges (es ++ [.delivers j c]) = f₀.charges es := by
    rw [charges_snoc]
    exact List.append_nil _
  refine ⟨fun x hx => ?_, by rw [same]; exact h.once⟩
  rw [same] at hx
  rw [run_snoc]
  rcases h.kept x hx with ⟨m, hm, toward⟩ | ended
  · cases hl : (f₀.run es).letter? j c with
    | none =>
      left
      simp only [step, hl]
      exact ⟨m, hm, toward⟩
    | some l =>
      rw [delivers_step hl]
      by_cases hml : m = l
      · subst hml
        obtain ⟨mem, hg, hc⟩ := letter?_some hl
        obtain ⟨r, a, who, hw, -⟩ := inv.waits m mem
        rw [hg, hc] at hw
        have made : ((f₀.run es).gates j).made (.replied c (.counted m.count)) =
            some ⟨c, who, Limiter.Attempt.decide a m.count .shared⟩ := by simp only [Gate.made, hw]
        right
        rw [← toward, Letter.to, hg, hc]
        simp only [Ended]
        rw [move_gate, if_pos rfl]
        exact made_ended (inv.numbered j) made
      · exact Or.inl ⟨m, (List.mem_erase_of_ne hml).mpr hm, toward⟩
  · exact Or.inr (ended.stays _)

theorem run_booked (inv : Inv f₀) (es : List Event) : Booked f₀ es := by
  induction es using List.reverseRecOn with
  | nil => exact ⟨fun x h => absurd h List.not_mem_nil, List.nodup_nil⟩
  | append_singleton es e ih =>
    cases e with
    | own j d => exact own_booked (run_inv inv es) ih
    | counts j c => exact counts_booked ih
    | delivers j c => exact delivers_booked (run_inv inv es) ih

/-- The call that is charged carries the attempt. -/
theorem charge_carried {x : Charge} (h : f.charge e = some x) : ∃ y a, (f.gates x.gate).calls.get? x.ruling.call = some y ∧
    y.stage.carried? = some (a, x.ruling.who) ∧ x.ruling.decision.key = a.key ∧ x.ruling.decision.limit = a.limit := by
  cases e with
  | own j d =>
    obtain ⟨-, -, c, r, a, who, hc, rfl⟩ := own_charge h
    exact ⟨_, a, hc, rfl, rfl, rfl⟩
  | counts j c =>
    obtain ⟨r, a, who, hc, -, rfl, -⟩ := counts_charge h
    exact ⟨_, a, hc, rfl, rfl, rfl⟩
  | delivers j c => cases h

theorem charges_mono (h : es <+: es') : f.charges es <+: f.charges es' := by
  obtain ⟨post, rfl⟩ := h
  induction post using List.reverseRecOn with
  | nil => rw [List.append_nil]
  | append_singleton post e ih =>
    rw [← List.append_assoc, charges_snoc]
    exact ih.trans (List.prefix_append _ _)

/-- Where a charge was made. -/
theorem mem_charges {x : Charge} (h : x ∈ f.charges es) : ∃ pre e, pre ++ [e] <+: es ∧ (f.run pre).charge e = some x := by
  induction es using List.reverseRecOn with
  | nil => cases h
  | append_singleton es e ih =>
    rw [charges_snoc, List.mem_append] at h
    rcases h with h | h
    · obtain ⟨pre, e', within, hx⟩ := ih h
      exact ⟨pre, e', within.trans (List.prefix_append _ _), hx⟩
    · exact ⟨es, e, List.prefix_refl _, Option.mem_toList.mp h⟩

/-! ## (3) Rulings are charged -/

def Letter.Charged (f : Fleet) (l : Letter) (x : Charge) : Prop :=
  ∃ r a who, (f.gates l.gate).calls.get? l.call = some ⟨r, .counting a who⟩ ∧ a.key = l.key ∧
    x = ⟨l.gate, l.call, who, Limiter.Attempt.decide a l.count .shared⟩

def Posted (f₀ : Fleet) (es : List Event) : Prop :=
  ∀ l ∈ (f₀.run es).mail, ∃ x ∈ f₀.charges es, Letter.Charged (f₀.run es) l x

theorem step_posted (inv : Inv (f₀.run es)) (h : Posted f₀ es) (e : Event) : Posted f₀ (es ++ [e]) := by
  intro l hl
  rw [run_snoc] at hl ⊢
  -- a reply that was on its way before, to a call that still waits
  have old : l ∈ (f₀.run es).mail → (∀ r a who, ((f₀.run es).gates l.gate).calls.get? l.call = some ⟨r, .counting a who⟩ →
      (((f₀.run es).step e).gates l.gate).calls.get? l.call = some ⟨r, .counting a who⟩) →
      ∃ x ∈ f₀.charges (es ++ [e]), Letter.Charged ((f₀.run es).step e) l x := by
    intro hm waits
    obtain ⟨x, hx, r, a, who, hc, hk, rfl⟩ := h l hm
    exact ⟨_, mem_charges_snoc hx e, r, a, who, waits r a who hc, hk, rfl⟩
  cases e with
  | own j d =>
    by_cases free : (f₀.run es).free j d = true
    · have is : (f₀.run es).step (.own j d) = (f₀.run es).move j d := by simp only [step, free, if_true]
      rw [is] at hl ⊢
      rw [is] at old
      exact old hl fun r a who hc => own_keeps inv free hl hc
    · have is : (f₀.run es).step (.own j d) = f₀.run es := by simp only [step, free]; rfl
      rw [is] at hl old ⊢
      exact old hl fun r a who hc => hc
  | counts j c =>
    cases hx : (f₀.run es).charge (.counts j c) with
    | none =>
      rw [counts_still hx] at hl old ⊢
      exact old hl fun r a who hc => hc
    | some x =>
      obtain ⟨r, a, who, hc, -, rfl, is⟩ := counts_charge hx
      rw [is] at hl old ⊢
      rcases List.mem_cons.mp hl with rfl | hl
      · exact ⟨_, charge_mem hx, r, a, who, hc, rfl, rfl⟩
      · exact old hl fun r a who hc => hc
  | delivers j c =>
    cases hd : (f₀.run es).letter? j c with
    | none =>
      have is : (f₀.run es).step (.delivers j c) = f₀.run es := by simp only [step, hd]
      rw [is] at hl old ⊢
      exact old hl fun r a who hc => hc
    | some m =>
      rw [delivers_step hd] at hl old ⊢
      exact old (List.mem_of_mem_erase hl) fun r a who hc => (delivers_keeps inv hd hl).trans hc

theorem run_posted (inv : Inv f₀) (hm : f₀.mail = []) (es : List Event) : Posted f₀ es := by
  induction es using List.reverseRecOn with
  | nil =>
    intro l hl
    rw [show (f₀.run []).mail = [] from hm] at hl
    cases hl
  | append_singleton es e ih => exact step_posted (run_inv inv es) ih e

/-- What an instance decides, it was charged with. -/
theorem made_charged (h : Posted f₀ es) {d : Gate.Event} {x : Ruling} (ha : (f₀.run es).acts i e = some d)
    (hx : ((f₀.run es).gates i).made d = some x) : ⟨i, x⟩ ∈ f₀.charges (es ++ [e]) := by
  cases e with
  | own j d' =>
    simp only [acts] at ha
    split at ha
    · rename_i both
      obtain ⟨rfl, free⟩ := both
      cases ha
      refine charge_mem ?_
      simp only [charge, free, if_true, hx, Option.map_some]
    · cases ha
  | counts j c => cases ha
  | delivers j c =>
    simp only [acts] at ha
    split at ha
    · rename_i same
      subst same
      obtain ⟨l, hl, rfl⟩ := Option.map_eq_some_iff.mp ha
      obtain ⟨mem, hg, hc⟩ := letter?_some hl
      obtain ⟨y, hy, r, a, who, hw, -, rfl⟩ := h l mem
      rw [hg, hc] at hw
      simp only [Gate.made, hw] at hx
      cases hx
      rw [hg, hc] at hy
      exact mem_charges_snoc hy _
    · cases ha

/-- Every ruling of an instance has been charged. -/
theorem ruled_charged (inv : Inv f) (hm : f.mail = []) {pre : List Gate.Event} {d : Gate.Event} {x : Ruling}
    (within : pre ++ [d] <+: f.trace i es) (made : ((f.gates i).run pre).made d = some x) : ⟨i, x⟩ ∈ f.charges es := by
  obtain ⟨before, e, came, rfl, acts⟩ := trace_prefix within
  rw [← run_gate] at made
  exact (charges_mono came).subset (made_charged (run_posted inv hm before) acts made)

end Fleet

end Gateway
