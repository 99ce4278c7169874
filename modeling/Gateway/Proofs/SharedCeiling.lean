/-
  Gateway.Proofs.SharedCeiling — instances that count in one shared store.

  Any number of instances run side by side, each with its own clock, rules and counters.
  The store counts an attempt in one step; its reply is then on its way until the instance
  takes it, and replies may overtake each other. An attempt that is counted is not failed,
  given up as late or cancelled any more; one that is not counted yet may be, at any time,
  and then counts nothing. All else an instance does by itself, whenever it likes.

  Proved, for any run and any key:
  (1) A reply on its way finds its call waiting for it, and is the only one (`Inv`).
  (2) The counts of the decisions made and of the replies on their way are together the
      numbers from one up to what the store has counted (`run_counts`).
  (3) If all instances have the limit `L` for the key, exactly `min n L` of `n` decisions
      let the attempt through (`shared_ceiling`).
-/

import Mathlib.Data.List.Induction
import Mathlib.Data.List.Nodup
import Mathlib.Logic.Function.Basic
import Gateway.Proofs.Counts
import Gateway.Proofs.Rulings

namespace Gateway

/-- A count on its way to the call that it is for. -/
structure Letter where
  gate : Nat
  call : CallId
  key : WindowKey
  count : Nat
  deriving DecidableEq, Repr

def Letter.to (l : Letter) : Nat × CallId := (l.gate, l.call)

structure Fleet where
  gates : Nat → Gate
  store : Counters
  mail : List Letter

namespace Fleet

def start (t : Nat → Instant) (cache : Nat → Cache) (limiter : Nat → Limiter) (pinger : Nat → Option Span) : Fleet :=
  ⟨fun i => Gate.start (t i) (cache i) (limiter i) (pinger i), Counters.empty, []⟩

inductive Event where
  | own (i : Nat) (e : Gate.Event)
  /-- The store counts the attempt that a call waits for. -/
  | counts (i : Nat) (c : CallId)
  /-- The count reaches the call. -/
  | delivers (i : Nat) (c : CallId)

def letter? (f : Fleet) (i : Nat) (c : CallId) : Option Letter := f.mail.find? fun l => l.to = (i, c)

/-- What an instance may do by itself. Only the store counts, and what it has counted
neither fails nor is given up. -/
def free (f : Fleet) (i : Nat) : Gate.Event → Bool
  | .replied c (.counted _) => match (f.gates i).need? c with
    | some (.attempt _) => false
    | _ => true
  | .replied c _ => (f.letter? i c).isNone
  | .cancelled c => (f.letter? i c).isNone
  | _ => true

def move (f : Fleet) (i : Nat) (e : Gate.Event) : Fleet :=
  { f with gates := Function.update f.gates i ((f.gates i).step e) }

def step (f : Fleet) : Event → Fleet
  | .own i e => if f.free i e then f.move i e else f
  | .counts i c => match (f.gates i).need? c, f.letter? i c with
    | some (.attempt k), none =>
      { f with store := (f.store.record k).2, mail := ⟨i, c, k, (f.store.record k).1⟩ :: f.mail }
    | _, _ => f
  | .delivers i c => match f.letter? i c with
    | some l => { f.move i (.replied c (.counted l.count)) with mail := f.mail.erase l }
    | none => f

def run (f : Fleet) (es : List Event) : Fleet := es.foldl step f

def Event.gate : Event → Nat
  | .own i _ => i
  | .counts i _ => i
  | .delivers i _ => i

/-! ## Decisions -/

def made (f : Fleet) : Event → Option Ruling
  | .own i e => if f.free i e then (f.gates i).made e else none
  | .counts _ _ => none
  | .delivers i c => match f.letter? i c with
    | some l => (f.gates i).made (.replied c (.counted l.count))
    | none => none

def rulings (f : Fleet) : List Event → List Ruling
  | [] => []
  | e :: es => (f.made e).toList ++ (f.step e).rulings es

/-- The decisions of a run with the instances that make them. -/
def placed (f : Fleet) : List Event → List (Nat × Ruling)
  | [] => []
  | e :: es => ((f.made e).map fun x => (e.gate, x)).toList ++ (f.step e).placed es

/-- Of these decisions, those that calls of instance `i` are answered. -/
def answersAt (i : Nat) (l : List (Nat × Ruling)) : List (CallId × Decision) :=
  (l.filter fun x => x.1 = i).filterMap fun x => x.2.told?

def shared (f : Fleet) (k : WindowKey) (es : List Event) : List Ruling := (f.rulings es).filter (Ruling.on k .shared)

def underWay (f : Fleet) (k : WindowKey) : List Letter := f.mail.filter fun l => l.key = k

theorem run_snoc (f : Fleet) (es : List Event) (e : Event) : f.run (es ++ [e]) = (f.run es).step e := by
  simp [run]

theorem rulings_snoc (f : Fleet) (es : List Event) (e : Event) :
    f.rulings (es ++ [e]) = f.rulings es ++ ((f.run es).made e).toList := by
  induction es generalizing f with
  | nil => simp [rulings, run]
  | cons d es ih => simp [rulings, ih, run]

/-! ## (1) Replies find their calls -/

structure Inv (f : Fleet) : Prop where
  waits : ∀ l ∈ f.mail, ∃ r a who, (f.gates l.gate).calls.get? l.call = some ⟨r, .counting a who⟩ ∧ a.key = l.key
  once : (f.mail.map Letter.to).Nodup
  numbered : ∀ i, (f.gates i).Numbered
  fits : ∀ i, (f.gates i).Fits

variable {f : Fleet} {i : Nat} {c : CallId} {k : WindowKey}

theorem start_inv (t : Nat → Instant) (cache : Nat → Cache) (limiter : Nat → Limiter) (pinger : Nat → Option Span) :
    (start t cache limiter pinger).Inv := by
  refine ⟨fun l h => absurd h List.not_mem_nil, List.nodup_nil, fun i => ?_, fun i => ?_⟩
  · exact Gate.start_numbered _ _ _ _
  · exact Gate.start_fits _ _ _ _

theorem letter?_some {l : Letter} (h : f.letter? i c = some l) : l ∈ f.mail ∧ l.gate = i ∧ l.call = c := by
  refine ⟨List.mem_of_find?_eq_some h, ?_⟩
  have := List.find?_some h
  simpa [Letter.to] using this

theorem letter?_none (h : f.letter? i c = none) : (i, c) ∉ f.mail.map Letter.to := by
  intro hm
  obtain ⟨l, hl, e⟩ := List.mem_map.mp hm
  have := List.find?_eq_none.mp h l hl
  simp [e] at this

theorem need_attempt {g : Gate} : g.need? c = some (.attempt k) ↔
    ∃ r a who, g.calls.get? c = some ⟨r, .counting a who⟩ ∧ a.key = k := by
  constructor
  · intro h
    unfold Gate.need? at h
    obtain ⟨⟨r, s⟩, hc, h⟩ := Option.bind_eq_some_iff.mp h
    cases s with
    | counting a who => exact ⟨r, a, who, hc, by simpa using h⟩
    | authenticating =>
      obtain ⟨p, -, h⟩ := Option.bind_eq_some_iff.mp h
      split at h <;> cases h
    | _ => cases h
  · intro w
    obtain ⟨r, a, who, hc, rfl⟩ := w
    simp [Gate.need?, hc]

theorem move_gate (f : Fleet) (i j : Nat) (e : Gate.Event) :
    (f.move i e).gates j = if j = i then (f.gates j).step e else f.gates j := by
  unfold move
  by_cases h : j = i
  · subst h; simp
  · simp [h]

theorem move_inv (h : Inv f) (e : Gate.Event) :
    (∀ j, ((f.move i e).gates j).Numbered) ∧ ∀ j, ((f.move i e).gates j).Fits := by
  refine ⟨fun j => ?_, fun j => ?_⟩
  · rw [move_gate]
    split
    · exact Gate.step_numbered (h.numbered j) e
    · exact h.numbered j
  · rw [move_gate]
    split
    · exact Gate.step_fits (h.fits j) e
    · exact h.fits j

/-- What an instance does by itself leaves the calls waiting that a reply is on its way to. -/
theorem own_keeps (h : Inv f) {e : Gate.Event} (he : f.free i e = true) {l : Letter} (hl : l ∈ f.mail) {r : Request}
    {a : Attempt} {who : Option Authorization}
    (hc : (f.gates l.gate).calls.get? l.call = some ⟨r, .counting a who⟩) :
    ((f.move i e).gates l.gate).calls.get? l.call = some ⟨r, .counting a who⟩ := by
  rw [move_gate]
  split
  · rename_i hi
    have reached : ¬ (f.letter? i l.call).isNone = true := fun hn =>
      letter?_none (Option.isNone_iff_eq_none.mp hn) (List.mem_map.mpr ⟨l, hl, by rw [← hi]; rfl⟩)
    refine Gate.counting_stays (h.numbered _) hc (fun x hx => ?_) fun hx => ?_
    · subst hx
      cases x with
      | counted n =>
        have := need_attempt.mpr ⟨r, a, who, hc, rfl⟩
        rw [hi] at this
        simp [free, this] at he
      | failed x => exact reached he
      | silent => exact reached he
    · subst hx
      exact reached he
  · exact hc

theorem own_inv (h : Inv f) {e : Gate.Event} (he : f.free i e = true) : Inv (f.move i e) := by
  refine ⟨fun l hl => ?_, h.once, (move_inv h e).1, (move_inv h e).2⟩
  obtain ⟨r, a, who, hc, hk⟩ := h.waits l hl
  exact ⟨r, a, who, own_keeps h he hl hc, hk⟩

/-- A reply that is taken leaves the other calls as they are. -/
theorem delivers_keeps (h : Inv f) {l m : Letter} (hl : f.letter? i c = some l) (hm : m ∈ f.mail.erase l) :
    ((f.move i (.replied c (.counted l.count))).gates m.gate).calls.get? m.call =
      (f.gates m.gate).calls.get? m.call := by
  obtain ⟨mem, hi, hc⟩ := letter?_some hl
  have once := ((List.perm_cons_erase mem).map Letter.to).nodup_iff.mp h.once
  rw [move_gate]
  split
  · rename_i hg
    refine Gate.step_calls_ne _ fun e => (List.nodup_cons.mp once).1 (List.mem_map.mpr ⟨m, hm, ?_⟩)
    exact Prod.ext (hg.trans hi.symm) ((Option.some.inj e).symm.trans hc.symm)
  · rfl

theorem step_inv (h : Inv f) (e : Event) : Inv (f.step e) := by
  cases e with
  | own i e =>
    simp only [step]
    split
    · exact own_inv h ‹_›
    · exact h
  | counts i c =>
    simp only [step]
    split
    · rename_i k hn hl
      refine ⟨fun l hm => ?_, ?_, h.numbered, h.fits⟩
      · rcases List.mem_cons.mp hm with rfl | hm
        · exact need_attempt.mp hn
        · exact h.waits l hm
      · exact List.nodup_cons.mpr ⟨letter?_none hl, h.once⟩
    · exact h
  | delivers i c =>
    simp only [step]
    split
    · rename_i l hl
      have once := ((List.perm_cons_erase (letter?_some hl).1).map Letter.to).nodup_iff.mp h.once
      refine ⟨fun m hm => ?_, (List.nodup_cons.mp once).2, (move_inv h _).1, (move_inv h _).2⟩
      obtain ⟨r, a, who, hw, hk⟩ := h.waits m (List.mem_of_mem_erase hm)
      exact ⟨r, a, who, (delivers_keeps h hl hm).trans hw, hk⟩
    · exact h

theorem run_inv (h : Inv f) (es : List Event) : Inv (f.run es) := by
  induction es generalizing f with
  | nil => exact h
  | cons e es ih => exact ih (step_inv h e)

/-! ## Decisions that are answered -/

theorem placed_rulings (f : Fleet) (es : List Event) : (f.placed es).map Prod.snd = f.rulings es := by
  induction es generalizing f with
  | nil => rfl
  | cons e es ih => cases hm : f.made e <;> simp [placed, rulings, ih, hm]

theorem answersAt_append (i : Nat) (l m : List (Nat × Ruling)) :
    answersAt i (l ++ m) = answersAt i l ++ answersAt i m := by
  simp [answersAt]

theorem move_told (f : Fleet) (i j : Nat) (e : Gate.Event) : ((f.move i e).gates j).told =
    (f.gates j).told ++ answersAt j (((f.gates i).made e).map fun x => (i, x)).toList := by
  rw [move_gate]
  by_cases h : j = i
  · subst h
    rw [if_pos rfl, Gate.step_told]
    cases (f.gates j).made e <;> simp [answersAt, List.filterMap_cons]
  · rw [if_neg h]
    cases (f.gates i).made e <;> simp [answersAt, Ne.symm h]

theorem step_told (f : Fleet) (i : Nat) (e : Event) : ((f.step e).gates i).told =
    (f.gates i).told ++ answersAt i ((f.made e).map fun x => (e.gate, x)).toList := by
  have nothing : (f.gates i).told = (f.gates i).told ++ answersAt i [] := (List.append_nil _).symm
  cases e with
  | own j e =>
    simp only [step, made]
    split
    · exact move_told f j i e
    · exact nothing
  | counts j c =>
    simp only [step]
    split <;> exact nothing
  | delivers j c =>
    simp only [step, made]
    split
    · exact move_told f j i _
    · exact nothing

/-- What calls are answered at an instance are the decisions made there, in order. -/
theorem run_told (f : Fleet) (i : Nat) (es : List Event) :
    ((f.run es).gates i).told = (f.gates i).told ++ answersAt i (f.placed es) := by
  induction es generalizing f with
  | nil => exact (List.append_nil _).symm
  | cons e es ih =>
    show (((f.step e).run es).gates i).told = _
    rw [ih, step_told, placed, answersAt_append, List.append_assoc]

/-! ## (2) Every count is given to one call -/

/-- What a step does to the count of `k`, to its replies on their way, and what decisions
it makes on it. -/
inductive Turn (f : Fleet) (k : WindowKey) (e : Event) : Prop where
  | other (unmade : (f.made e).toList.filter (Ruling.on k .shared) = [])
      (mail : (f.step e).underWay k = f.underWay k) (count : (f.step e).store.count k = f.store.count k)
  | counted (l : Letter) (unmade : (f.made e).toList.filter (Ruling.on k .shared) = [])
      (mail : (f.step e).underWay k = l :: f.underWay k) (next : l.count = (f.store.record k).1)
      (count : (f.step e).store.count k = (f.store.record k).1)
  | taken (l : Letter) (x : Ruling) (made : (f.made e).toList.filter (Ruling.on k .shared) = [x])
      (same : x.decision.count = l.count) (mail : (f.underWay k).Perm (l :: (f.step e).underWay k))
      (count : (f.step e).store.count k = f.store.count k)

/-- Only a count of the store leads to a decision by it. -/
theorem own_unshared {e : Gate.Event} (he : f.free i e = true) :
    ((f.gates i).made e).toList.filter (Ruling.on k .shared) = [] := by
  cases hm : (f.gates i).made e with
  | none => rfl
  | some x =>
    rcases Gate.made_cases hm with ⟨c, n, r, a, who, rfl, hc, -⟩ | ⟨c, r, a, who, -, -, rfl⟩
    · have := need_attempt.mpr ⟨r, a, who, hc, rfl⟩
      simp [free, this] at he
    · simp [Ruling.on, Limiter.Attempt.decide]

theorem own_turn (f : Fleet) (k : WindowKey) (i : Nat) (e : Gate.Event) : Turn f k (.own i e) := by
  by_cases he : f.free i e = true
  · refine .other ?_ (by simp only [step, he, if_true]; rfl) (by simp only [step, he, if_true]; rfl)
    simp only [made, he, if_true]
    exact own_unshared he
  · refine .other ?_ ?_ ?_ <;> simp [made, step, he]

/-- The store counts for another key, or the next number is on its way for this one. -/
theorem counts_turn (f : Fleet) (k : WindowKey) (i : Nat) (c : CallId) : Turn f k (.counts i c) := by
  cases hn : (f.gates i).need? c with
  | none => exact .other rfl (by simp only [step, hn]) (by simp only [step, hn])
  | some need =>
    cases hl : f.letter? i c with
    | some l =>
      refine .other rfl ?_ ?_
      · cases need <;> simp only [step, hn, hl]
      · cases need <;> simp only [step, hn, hl]
    | none =>
      cases need
      case attempt j =>
        by_cases hj : j = k
        · subst hj
          refine .counted ⟨i, c, j, (f.store.record j).1⟩ rfl ?_ rfl ?_
          · simp [step, hn, hl, underWay]
          · simp only [step, hn, hl]
            rw [Counters.record_count, if_pos rfl]
        · refine .other rfl ?_ ?_
          · simp [step, hn, hl, underWay, hj]
          · simp only [step, hn, hl]
            rw [Counters.record_count, if_neg (Ne.symm hj)]
      all_goals exact .other rfl (by simp only [step, hn]) (by simp only [step, hn])

/-- The call that takes a reply waits for the key that the reply is for. -/
theorem delivers_made (h : Inv f) {l : Letter} (hl : f.letter? i c = some l) :
    ∃ x, f.made (.delivers i c) = some x ∧ x.decision.key = l.key ∧ x.decision.count = l.count ∧
      x.decision.source = .shared := by
  obtain ⟨hm, hi, hc⟩ := letter?_some hl
  obtain ⟨r, a, who, hw, hk⟩ := h.waits l hm
  rw [hi, hc] at hw
  exact ⟨_, by simp only [made, hl, Gate.made, hw]; rfl, hk, rfl, rfl⟩

theorem delivers_turn (h : Inv f) (k : WindowKey) (i : Nat) (c : CallId) : Turn f k (.delivers i c) := by
  cases hl : f.letter? i c with
  | none => exact .other (by simp only [made, hl]; rfl) (by simp only [step, hl]) (by simp only [step, hl])
  | some l =>
    obtain ⟨x, hx, key, count, source⟩ := delivers_made h hl
    have perm := (List.perm_cons_erase (letter?_some hl).1).filter fun m => decide (m.key = k)
    have stored : (f.step (.delivers i c)).store.count k = f.store.count k := by
      simp only [step, hl]
      rfl
    have rest : (f.step (.delivers i c)).underWay k = (f.mail.erase l).filter fun m => decide (m.key = k) := by
      simp only [step, hl]
      rfl
    by_cases hj : l.key = k
    · refine .taken l x ?_ count ?_ stored
      · simp [hx, Ruling.on, key, source, hj]
      · rw [List.filter_cons_of_pos (by simpa using hj)] at perm
        rw [rest]
        exact perm
    · refine .other ?_ ?_ stored
      · simp [hx, Ruling.on, key, hj]
      · rw [rest, ← List.erase_filter, List.erase_of_not_mem (by simp [hj])]
        rfl

theorem step_turn (h : Inv f) (k : WindowKey) (e : Event) : Turn f k e := by
  cases e with
  | own i e => exact own_turn f k i e
  | counts i c => exact counts_turn f k i c
  | delivers i c => exact delivers_turn h k i c

def numbers (n : Nat) : List Nat := (List.range' 1 n).map (min · Word.top)

theorem numbers_succ (n : Nat) : numbers (n + 1) = numbers n ++ [min (n + 1) Word.top] := by
  simp [numbers, List.range'_concat, Nat.add_comm]

/-- Of each reply on its way the count is still to be decided on; all others are. -/
theorem run_counts (h : Inv f) (hs : f.store.count k = 0) (hm : f.underWay k = []) (es : List Event) :
    ∃ n, (f.run es).store.count k = min n Word.top ∧
      ((f.shared k es).map (·.decision.count) ++ ((f.run es).underWay k).map Letter.count).Perm (numbers n) := by
  induction es using List.reverseRecOn with
  | nil => exact ⟨0, by simpa [run] using hs, by simp [shared, rulings, run, hm, numbers]⟩
  | append_singleton es e ih =>
    obtain ⟨n, hn, perm⟩ := ih
    have decided : f.shared k (es ++ [e]) =
        f.shared k es ++ ((f.run es).made e).toList.filter (Ruling.on k .shared) := by
      simp only [shared, rulings_snoc, List.filter_append]
    rw [decided, run_snoc]
    cases step_turn (run_inv h es) k e with
    | other unmade mail count =>
      refine ⟨n, count.trans hn, ?_⟩
      rw [unmade, mail, List.append_nil]
      exact perm
    | counted l unmade mail next count =>
      rw [Counters.record_fst, hn] at next count
      have top : min (min n Word.top + 1) Word.top = min (n + 1) Word.top := by omega
      refine ⟨n + 1, count.trans top, ?_⟩
      rw [unmade, mail, List.append_nil, List.map_cons, numbers_succ, next, top]
      exact List.perm_middle.trans ((perm.cons _).trans (List.perm_append_singleton _ _).symm)
    | taken l x made same mail count =>
      refine ⟨n, count.trans hn, ?_⟩
      rw [made, List.map_append, List.map_singleton, same, List.append_assoc]
      have moved := (mail.map Letter.count).append_left ((f.shared k es).map (·.decision.count))
      exact moved.symm.trans perm

theorem run_counts_length (h : Inv f) (hs : f.store.count k = 0) (hm : f.underWay k = []) (es : List Event) :
    (f.run es).store.count k = min ((f.shared k es).length + ((f.run es).underWay k).length) Word.top ∧
      ((f.shared k es).map (·.decision.count) ++ ((f.run es).underWay k).map Letter.count).Perm
        (numbers ((f.shared k es).length + ((f.run es).underWay k).length)) := by
  obtain ⟨n, count, perm⟩ := run_counts h hs hm es
  have hn : (f.shared k es).length + ((f.run es).underWay k).length = n := by
    simpa [numbers] using perm.length_eq
  rw [hn]
  exact ⟨count, perm⟩

/-! ## (3) The limit of all instances -/

theorem numbers_eq {n : Nat} (h : n ≤ Word.top) : numbers n = List.range' 1 n := by
  unfold numbers
  conv_rhs => rw [← List.map_id (List.range' 1 n)]
  refine List.map_congr_left fun m hm => ?_
  have := List.mem_range'_1.mp hm
  exact Nat.min_eq_left (by omega)

/-- So many of the numbers from one on are within the limit. -/
theorem capped_numbers {L : Nat} (hL : L < Word.top) (n : Nat) : (numbers n).countP (· ≤ L) = min n L := by
  induction n with
  | zero => simp [numbers]
  | succ n ih =>
    rw [numbers_succ, List.countP_append, ih, List.countP_singleton]
    by_cases h : n + 1 ≤ L
    · rw [if_pos (by simp only [decide_eq_true_eq]; omega)]
      omega
    · rw [if_neg (by simp only [decide_eq_true_eq]; omega)]
      omega

theorem step_policy (f : Fleet) (e : Event) (j : Nat) :
    ((f.step e).gates j).limiter.policy = (f.gates j).limiter.policy := by
  have moved : ∀ i e, ((f.move i e).gates j).limiter.policy = (f.gates j).limiter.policy := fun i e => by
    rw [move_gate]
    split
    · exact Gate.step_policy _ _
    · rfl
  cases e with
  | own i e =>
    simp only [step]
    split
    · exact moved i e
    · rfl
  | counts i c =>
    simp only [step]
    split <;> rfl
  | delivers i c =>
    simp only [step]
    split
    · exact moved i _
    · rfl

theorem gate_made {e : Event} {x : Ruling} (h : f.made e = some x) : ∃ i e, (f.gates i).made e = some x := by
  cases e with
  | own i e =>
    simp only [made] at h
    split at h
    · exact ⟨i, e, h⟩
    · cases h
  | counts i c => cases h
  | delivers i c =>
    simp only [made] at h
    split at h
    · exact ⟨i, _, h⟩
    · cases h

theorem shared_limit (h : Inv f) {L : Nat} (hL : ∀ i, ((f.gates i).limiter.policy.rule k.operation).limit = L)
    {es : List Event} {x : Ruling} (hx : x ∈ f.shared k es) : x.decision.limit = L := by
  induction es generalizing f with
  | nil => simp [shared, rulings] at hx
  | cons e es ih =>
    simp only [shared, rulings, List.filter_append, List.mem_append] at hx
    rcases hx with hx | hx
    · obtain ⟨hx, on⟩ := List.mem_filter.mp hx
      obtain ⟨i, e', hm⟩ := gate_made (Option.mem_toList.mp hx)
      simp only [Ruling.on, Bool.and_eq_true, decide_eq_true_eq] at on
      have := Gate.made_limit (h.fits i) hm
      rw [on.1] at this
      exact this.trans (hL i)
    · exact ih (step_inv h e) (fun i => by rw [step_policy]; exact hL i) hx

/-- Of the decisions made and still to be made, those within the limit let their attempts
through. -/
theorem shared_admits (h : Inv f) (hs : f.store.count k = 0) (hm : f.underWay k = []) {L : Nat}
    (hL : ∀ i, ((f.gates i).limiter.policy.rule k.operation).limit = L) (hw : L ≤ Word.halfTop) (es : List Event) :
    (f.shared k es).countP (·.decision.admitted) + ((f.run es).underWay k).countP (·.count ≤ L) =
      min ((f.shared k es).length + ((f.run es).underWay k).length) L := by
  have perm := (run_counts_length h hs hm es).2
  have admits : (f.shared k es).countP (·.decision.admitted) =
      ((f.shared k es).map (·.decision.count)).countP (· ≤ L) := by
    rw [List.countP_map]
    refine List.countP_congr fun x hx => ?_
    have : x.decision.limit = L := shared_limit h hL hx
    simp [Decision.admitted, this]
  have waiting : ((f.run es).underWay k).countP (·.count ≤ L) =
      (((f.run es).underWay k).map Letter.count).countP (· ≤ L) := by
    rw [List.countP_map]
    rfl
  rw [admits, waiting, ← List.countP_append]
  exact (perm.countP_eq _).trans (capped_numbers (Nat.lt_of_le_of_lt hw (by decide)) _)

theorem admitted_or_not (l : List Ruling) :
    l.countP (·.decision.admitted) + l.countP (!·.decision.admitted) = l.length := by
  induction l with
  | nil => rfl
  | cons x l ih =>
    simp only [List.countP_cons, List.length_cons]
    cases x.decision.admitted <;> simp <;> omega

/-- The decisions on `k` by the shared store, with the replies on their way, are counted from
one on, each number once, and the store keeps the count of all. What the calls of an
instance are answered are the decisions made there. If all instances have the limit `L` for
`k`, those whose number is within it let their attempts through, and the others do not. -/
theorem shared_ceiling (t : Nat → Instant) (cache : Nat → Cache) (limiter : Nat → Limiter)
    (pinger : Nat → Option Span) (k : WindowKey) (es : List Event) :
    let f := start t cache limiter pinger
    let decided := f.shared k es
    let under := (f.run es).underWay k
    let n := decided.length + under.length
    (decided.map (·.decision.count) ++ under.map Letter.count).Perm (numbers n) ∧
      (n ≤ Word.top → (decided.map (·.decision.count) ++ under.map Letter.count).Perm (List.range' 1 n)) ∧
      (f.run es).store.count k = min n Word.top ∧
      (decided = ((f.placed es).map Prod.snd).filter (Ruling.on k .shared) ∧
        ∀ i, ((f.run es).gates i).told = answersAt i (f.placed es)) ∧
      ∀ L ≤ Word.halfTop, (∀ i, ((limiter i).policy.rule k.operation).limit = L) →
        decided.countP (·.decision.admitted) + under.countP (·.count ≤ L) = min n L ∧
          (under = [] → decided.countP (·.decision.admitted) = min n L ∧
            decided.countP (!·.decision.admitted) = n - min n L) := by
  intro f decided under n
  have inv : f.Inv := start_inv t cache limiter pinger
  obtain ⟨count, perm⟩ := run_counts_length (k := k) inv rfl rfl es
  have answered : decided = ((f.placed es).map Prod.snd).filter (Ruling.on k .shared) := by
    rw [placed_rulings]
    rfl
  refine ⟨perm, fun hn => numbers_eq hn ▸ perm, count, ⟨answered, fun i => run_told f i es⟩, fun L hw hL => ?_⟩
  have total : decided.countP (·.decision.admitted) + under.countP (·.count ≤ L) = min n L :=
    shared_admits inv rfl rfl hL hw es
  refine ⟨total, fun quiet => ?_⟩
  have all := admitted_or_not decided
  have none : under.countP (·.count ≤ L) = 0 := by rw [quiet]; rfl
  have len : n = decided.length := by show decided.length + under.length = _; rw [quiet]; rfl
  omega

/-! ## Two instances at once -/

def oneASecond : Fleet :=
  start (fun _ => 0) (fun _ => ⟨Span.zero, Span.ofMillis 500, Table.empty⟩)
    (fun _ => Limiter.sharing (Policy.standard.set ⟨.create, 1, Span.ofSeconds 1⟩) StoreSettings.standard)
    fun _ => none

/-- An attempt at each of two instances; the reply to the second comes first. -/
def race : List Event :=
  [.own 0 (.arrived (.spend ⟨"acct"⟩ .create)), .own 1 (.arrived (.spend ⟨"acct"⟩ .create)),
    .counts 0 0, .counts 1 0, .delivers 1 0, .delivers 0 0]

def raceKey : WindowKey := ⟨"acct", .create, 1000, 0⟩

/-- One of the two is let through. -/
theorem race_admits_one :
    (∀ i, ((oneASecond.gates i).limiter.policy.rule .create).limit = 1) ∧ 1 ≤ Word.halfTop ∧
      (oneASecond.run race).underWay raceKey = [] ∧ (oneASecond.shared raceKey race).length = 2 ∧
      (oneASecond.shared raceKey race).countP (·.decision.admitted) = 1 ∧
      (oneASecond.shared raceKey race).countP (!·.decision.admitted) = 1 := by
  have hL : ∀ i, ((oneASecond.gates i).limiter.policy.rule .create).limit = 1 := fun _ => rfl
  have hw : 1 ≤ Word.halfTop := by decide
  have quiet : (oneASecond.run race).underWay raceKey = [] := by decide +kernel
  have two : (oneASecond.shared raceKey race).length = 2 := by decide +kernel
  have len : (oneASecond.shared raceKey race).length + ((oneASecond.run race).underWay raceKey).length = 2 := by
    rw [quiet, two]; rfl
  have ceiling : (oneASecond.shared raceKey race).countP (·.decision.admitted) =
        min ((oneASecond.shared raceKey race).length + ((oneASecond.run race).underWay raceKey).length) 1 ∧
      (oneASecond.shared raceKey race).countP (!·.decision.admitted) =
        (oneASecond.shared raceKey race).length + ((oneASecond.run race).underWay raceKey).length -
          min ((oneASecond.shared raceKey race).length + ((oneASecond.run race).underWay raceKey).length) 1 :=
    ((shared_ceiling (fun _ => 0) _ _ (fun _ => none) raceKey race).2.2.2.2 1 hw hL).2 quiet
  rw [len] at ceiling
  exact ⟨hL, hw, quiet, two, ceiling⟩

end Fleet

end Gateway
