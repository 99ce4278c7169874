/-
  Gateway.Proofs.Recall — calls one at a time, against a memory without sweeps.

  A session has its calls come one after the other. Between two calls, and while a call is
  at its lookup, time passes, the authority changes its mind and sweeps happen. The
  reference, `Memory`, has no entries: it knows the last successful lookup of each
  credential and when that was, and a sweep does nothing to it.

  Proved, as long as the calendar leaves room for an entry (`refines`):
  (1) The calls of a session get the answers of the reference with the reference's lookups
      (`Follows.play`): none while the last record is good, and exactly one otherwise.
  (2) The reference does not see sweeps (`Memory.play_unswept`), so the calls of a session
      do not either.
  (3) A call that ends in a failure leaves no entry of its credential, and the others as the
      pauses alone leave them (`Session.ask_failed`).
  (4) A sweep drops the entries that have lapsed, and as many as that (`Gate.swept_entries`,
      `Gate.swept_count`).
  What carries the induction is `Agrees`: an entry is the last success with the end that
  belongs to it, and where there is none no success is good any more. The second half
  survives time and sweeps because the clock never goes back.
-/

import Gateway.Proofs.Backing
import Gateway.Proofs.Frames

namespace Gateway

/-! ## What a lookup comes to -/

namespace Cache

/-- What the authority's answer maps to. -/
def Finding.reply (patience : Span) (f : Finding) : Except Failure Authorization :=
  match f.lookup patience with
  | .error e => .error e
  | .ok .invalid => .error ⟨.unauthorized, "credential is not recognised"⟩
  | .ok (.valid a) => .ok a

/-- The entry of an authorization given now ends within the calendar. -/
def Roomy (c : Cache) (now : Instant) : Prop := now.nanos + c.ttl.nanos ≤ Instant.last.nanos + 999999

def store (c : Cache) (k : Credential) (now : Instant) : Except Failure Authorization → Cache
  | .ok a => if c.ttl.nanos = 0 then c
      else { c with entries := c.entries.insert k ⟨a, now, now.nanos + c.ttl.nanos⟩ }
  | .error _ => c

variable {c : Cache} {now : Instant}

theorem keep_roomy (room : c.Roomy now) (k : Credential) (a : Authorization) :
    c.keep k a now = some (c.store k now (.ok a)) := by
  have within : ¬ Instant.last.nanos + 999999 < now.nanos + c.ttl.nanos := Int.not_lt.mpr room
  simp only [keep, store, if_neg within]
  split <;> rfl

theorem conclude_roomy (room : c.Roomy now) (k : Credential) (f : Finding) :
    (c.conclude k f now).1 = f.reply c.patience ∧
      (c.conclude k f now).2.1 = c.store k now (f.reply c.patience) := by
  unfold conclude Finding.reply
  cases f.lookup c.patience with
  | error e => exact ⟨rfl, rfl⟩
  | ok l =>
    cases l with
    | invalid => exact ⟨rfl, rfl⟩
    | valid a => simp only [keep_roomy room k a, and_self]

theorem lookup_unavailable {patience : Span} {f : Finding} {e : Failure} (h : f.lookup patience = .error e) :
    e.kind = .unavailable := by
  cases f with
  | silent => cases h; rfl
  | answered x =>
    cases x with
    | ok l => cases h
    | error x =>
      cases h
      split
      · assumption
      · rfl

/-- A reply is shared without loss. -/
theorem reply_shared (patience : Span) (f : Finding) :
    (Outcome.ofResult (f.reply patience)).result = f.reply patience := by
  unfold Finding.reply
  cases h : f.lookup patience with
  | error e =>
    obtain ⟨kind, message⟩ := e
    obtain rfl : kind = .unavailable := lookup_unavailable h
    rfl
  | ok l => cases l <;> rfl

@[simp] theorem store_ttl (c : Cache) (k : Credential) (now : Instant) (r : Except Failure Authorization) :
    (c.store k now r).ttl = c.ttl := by
  unfold store
  split
  · split <;> rfl
  · rfl

@[simp] theorem store_patience (c : Cache) (k : Credential) (now : Instant) (r : Except Failure Authorization) :
    (c.store k now r).patience = c.patience := by
  unfold store
  split
  · split <;> rfl
  · rfl

@[simp] theorem look_patience (c : Cache) (k : Credential) (now : Instant) :
    (c.look k now).2.patience = c.patience := by
  unfold look
  split
  · split <;> rfl
  · rfl

/-- A look forgets the entry that it refuses, and no other. -/
theorem look_entries {k : Credential} (h : (c.look k now).1 = none) (j : Credential) :
    (c.look k now).2.entries.get? j = if j = k then none else c.entries.get? j := by
  by_cases e : j = k
  · rw [if_pos e, e]; exact look_none h
  · rw [if_neg e]
    unfold look
    split
    · split
      · rfl
      · rw [Table.get?_erase, if_neg e]
    · rfl

/-- The second look finds nothing either, and has nothing left to forget. -/
theorem look_again {k : Credential} (h : (c.look k now).1 = none) :
    (c.look k now).2.look k now = (none, (c.look k now).2) := by
  rw [look, look_none h]

end Cache

/-! ## A caller that is alone -/

namespace Authenticator

variable {a : Authenticator} {n c : CallId} {k : Credential} {now : Instant}

/-- Nobody is aboard, and the calls from `n` on have not come yet. -/
structure Idle (a : Authenticator) (n : CallId) : Prop where
  manifest : Manifest a.flights a.passengers n
  nobody : ∀ c, a.passengers.get? c = none

theorem Idle.unmanned (h : Idle a n) (k : Credential) : a.flights.current.get? k = none := by
  cases hk : a.flights.current.get? k with
  | none => rfl
  | some f =>
    obtain ⟨c, p, hc, -⟩ := h.manifest.manned k f hk
    rw [h.nobody c] at hc
    cases hc

structure Alone (a : Authenticator) (c : CallId) (k : Credential) : Prop where
  manifest : Manifest a.flights a.passengers (c + 1)
  seat : ∃ f, a.passengers.get? c = some ⟨k, f, true⟩
  others : ∀ d, d ≠ c → a.passengers.get? d = none

/-- The cache changes under everybody. -/
theorem Idle.recache (h : Idle a n) (cache : Cache) : Idle { a with cache } n := ⟨h.manifest, h.nobody⟩

theorem Alone.recache (h : Alone a c k) (cache : Cache) : Alone { a with cache } c k :=
  ⟨h.manifest, h.seat, h.others⟩

theorem ask_hit {e : Entry} (hit : (a.cache.look k now).1 = some e) :
    (a.ask c k now).result = some (.ok e.authorization) ∧ (a.ask c k now).next = a := by
  have fresh := Cache.look_some hit
  have same : a.cache.look k now = (some e, a.cache) := by
    rw [Cache.look, fresh.1]
    simp only [fresh.2, if_true]
  unfold ask
  rw [same]
  exact ⟨rfl, rfl⟩

/-- A caller that finds nothing and nobody goes to the authority. -/
theorem ask_alone (h : Idle a n) (miss : (a.cache.look k now).1 = none) :
    (a.ask n k now).result = none ∧ (a.ask n k now).next.cache = (a.cache.look k now).2 ∧
      Alone (a.ask n k now).next n k := by
  have again := Cache.look_again miss
  -- the flight is a new one, so the caller finds the turn free
  have first : (a.flights.join k n).2.flight (a.flights.join k n).1 = { Flight.start with holders := [n] } := by
    rw [Flights.join_flight, if_pos rfl]
    rcases Flights.take_cases a.flights k with ⟨hk, -⟩ | ⟨-, hf, -, -, fresh⟩
    · rw [h.unmanned k] at hk; cases hk
    · rw [Flights.join_fst, hf, fresh, if_pos rfl]; rfl
  have step : a.ask n k now = Authenticator.still
      { cache := (a.cache.look k now).2
        flights := (a.flights.join k n).2.claim (a.flights.join k n).1 n
        passengers := (a.passengers.insert n ⟨k, (a.flights.join k n).1, false⟩).insert n
          ⟨k, (a.flights.join k n).1, true⟩ } := by
    unfold ask
    cases hl : a.cache.look k now with
    | mk e cache =>
      obtain rfl : e = none := by rw [hl] at miss; exact miss
      rw [hl] at again
      simp only [resume, Table.get?_insert_self, Bool.false_eq_true, if_false, first, Flight.start]
      rw [if_pos (by simp [Flights.hasTurn, Flights.claim, Flights.flight_change, first, Flight.start])]
      simp only [resolve, again]
  have boarded : Manifest (a.ask n k now).next.flights (a.ask n k now).next.passengers (n + 1) := by
    have backed : Backed a.cache.ttl (fun _ _ => True) (fun _ _ _ => True) (fun _ _ _ => True) a n :=
      ⟨h.manifest, rfl, fun _ _ _ => trivial, fun _ _ _ => trivial, fun _ _ _ _ _ => trivial⟩
    exact (backed.ask (k := k) trivial).next.manifest
  refine ⟨by rw [step]; rfl, by rw [step]; rfl, boarded, ⟨(a.flights.join k n).1, ?_⟩, fun d hd => ?_⟩
  · rw [step]; exact Table.get?_insert_self _ _ _
  · rw [step]
    show ((a.passengers.insert n _).insert n _).get? d = none
    rw [Table.get?_insert_of_ne _ _ hd, Table.get?_insert_of_ne _ _ hd, h.nobody]

/-- The authority's answer ends the call of a caller that is alone. -/
theorem hear_alone (h : Alone a c k) (room : a.cache.Roomy now) (f : Cache.Finding) :
    (a.hear c f now).result = some (f.reply a.cache.patience) ∧
      (a.hear c f now).next.cache = a.cache.store k now (f.reply a.cache.patience) ∧
      Idle (a.hear c f now).next (c + 1) := by
  obtain ⟨i, seat⟩ := h.seat
  obtain ⟨result, cache⟩ := Cache.conclude_roomy room k f
  have left : Manifest (a.hear c f now).next.flights (a.hear c f now).next.passengers (c + 1) := by
    have backed : Backed a.cache.ttl (fun _ _ => True) (fun _ _ _ => True) (fun _ _ _ => True) a (c + 1) :=
      ⟨h.manifest, rfl, fun _ _ _ => trivial, fun _ _ _ => trivial, fun _ _ _ _ _ => trivial⟩
    have heard : Yields a.cache.ttl _ _ _ (a.hear c f now) (c + 1) _ :=
      backed.hear (fun _ _ _ _ _ => trivial) fun _ _ _ _ _ _ _ => trivial
    exact heard.next.manifest
  refine ⟨?_, ?_, left, fun d => ?_⟩
  · simp only [hear, seat, if_true, land, result, Cache.reply_shared]
  · simp only [hear, seat, if_true, land, cache]
  · simp only [hear, seat, if_true, land]
    rw [Table.get?_erase]
    split
    · rfl
    · exact h.others d ‹_›

end Authenticator

/-! ## Sessions -/

namespace Recall

inductive Pause where
  | passes (ms : Nat)
  /-- The authority answers like this from now on. -/
  | answers (authority : Credential → Cache.Finding)
  | sweeps

inductive Act where
  /-- A call, and what happens while it is at its lookup, if it comes to one. -/
  | asks (k : Credential) (meanwhile : List Pause)
  | pause (p : Pause)

structure Receipt where
  answer : Option Answer
  lookups : Nat

/-- Plays the acts in order; the receipts of the calls, and what is there in the end. -/
def play {σ : Type} (pause : σ → Pause → σ) (ask : σ → Credential → List Pause → Receipt × σ) :
    σ → List Act → List Receipt × σ
  | s, [] => ([], s)
  | s, .pause p :: acts => play pause ask (pause s p) acts
  | s, .asks k meanwhile :: acts =>
    let (receipt, s) := ask s k meanwhile
    let (receipts, s) := play pause ask s acts
    (receipt :: receipts, s)

structure Session where
  gate : Gate
  authority : Credential → Cache.Finding

namespace Session

def feed (s : Session) (e : Gate.Event) : Session := { s with gate := s.gate.step e }

def pause (s : Session) : Pause → Session
  | .passes ms => s.feed (.advanced ms)
  | .answers authority => { s with authority }
  | .sweeps => s.feed (.swept .credentials)

def pauses (s : Session) (l : List Pause) : Session := l.foldl pause s

/-- A call comes. If it needs a lookup then the authority answers after the meanwhile. -/
def ask (s : Session) (k : Credential) (meanwhile : List Pause) : Receipt × Session :=
  let c := s.gate.next
  let asked := s.feed (.arrived (.authenticate k))
  if asked.gate.need? c = some (.lookup k) then
    let waited := asked.pauses meanwhile
    let told := waited.feed (.lookedUp c (waited.authority k))
    (⟨told.gate.answer? c, 1⟩, told)
  else (⟨asked.gate.answer? c, 0⟩, asked)

def play (s : Session) (acts : List Act) : List Receipt × Session := Recall.play pause ask s acts

def cache (s : Session) : Cache := s.gate.authenticator.cache

end Session

/-! ## The reference -/

/-- The last successful lookup of each credential: what it gave, and when it was. -/
structure Memory where
  ttl : Span
  patience : Span
  clock : Clock
  authority : Credential → Cache.Finding
  last : Credential → Option (Authorization × Instant)

namespace Memory

def start (t : Instant) (ttl patience : Span) (authority : Credential → Cache.Finding) : Memory :=
  ⟨ttl, patience, Clock.start t, authority, fun _ => none⟩

/-- The record of the last success, while it is younger than the time to live. -/
def good? (m : Memory) (k : Credential) : Option Authorization :=
  (m.last k).bind fun x =>
    if 0 < m.ttl.nanos ∧ m.clock.now.nanos < x.2.nanos + m.ttl.nanos then some x.1 else none

def reply (m : Memory) (k : Credential) : Except Failure Authorization := (m.authority k).reply m.patience

def learn (m : Memory) (k : Credential) : Except Failure Authorization → Memory
  | .ok a => { m with last := fun j => if j = k then some (a, m.clock.now) else m.last j }
  | .error _ => m

def pause (m : Memory) : Pause → Memory
  | .passes ms => { m with clock := m.clock.advance ms }
  | .answers authority => { m with authority }
  | .sweeps => m

def pauses (m : Memory) (l : List Pause) : Memory := l.foldl pause m

def ask (m : Memory) (k : Credential) (meanwhile : List Pause) : Receipt × Memory :=
  match m.good? k with
  | some a => (⟨some (.authorization (.ok a)), 0⟩, m)
  | none =>
    let waited := m.pauses meanwhile
    (⟨some (.authorization (waited.reply k)), 1⟩, waited.learn k (waited.reply k))

def play (m : Memory) (acts : List Act) : List Receipt × Memory := Recall.play pause ask m acts

theorem play_append (m : Memory) (as bs : List Act) : (m.play (as ++ bs)).2 = ((m.play as).2.play bs).2 := by
  induction as generalizing m with
  | nil => rfl
  | cons act as ih =>
    cases act with
    | asks k l => exact ih (m.ask k l).2
    | pause p => exact ih (m.pause p)

end Memory

theorem Memory.good?_eq_none {m : Memory} {k : Credential} : m.good? k = none ↔
    ∀ a since, m.last k = some (a, since) → 0 < m.ttl.nanos → since.nanos + m.ttl.nanos ≤ m.clock.now.nanos := by
  unfold good?
  cases m.last k with
  | none => exact iff_of_true rfl fun _ _ h => (nomatch h)
  | some x =>
    obtain ⟨a, since⟩ := x
    simp only [Option.bind_some, ite_eq_right_iff, reduceCtorEq, imp_false, not_and, Int.not_lt]
    exact ⟨fun h _ _ e pos => by cases e; exact h pos, fun h pos => h a since rfl pos⟩

/-! ## Entries and memory -/

/-- An entry is the last success with its end; without one no success is good. -/
structure Agrees (c : Cache) (m : Memory) : Prop where
  ttl : c.ttl = m.ttl
  patience : c.patience = m.patience
  kept : ∀ k e, c.entries.get? k = some e →
    0 < m.ttl.nanos ∧ m.last k = some (e.authorization, e.since) ∧ e.expires = e.since.nanos + m.ttl.nanos
  forgotten : ∀ k, c.entries.get? k = none → m.good? k = none

namespace Agrees

variable {c c' : Cache} {m : Memory} {k : Credential}

theorem start {t : Instant} {ttl patience : Span} {authority : Credential → Cache.Finding}
    (made : Cache.make ttl patience = .ok c) : Agrees c (Memory.start t ttl patience authority) := by
  obtain rfl := Cache.eq_of_make made
  exact ⟨rfl, rfl, fun k e h => (nomatch h), fun k _ => rfl⟩

theorem good_entry (h : Agrees c m) {e : Entry} (he : c.entries.get? k = some e) :
    m.good? k = if e.isFresh m.clock.now then some e.authorization else none := by
  obtain ⟨pos, last, ends⟩ := h.kept k e he
  simp only [Memory.good?, last, Option.bind_some, pos, true_and, Entry.isFresh, ends, decide_eq_true_eq]

theorem look (h : Agrees c m) (k : Credential) :
    (c.look k m.clock.now).1.map Entry.authorization = m.good? k := by
  cases he : c.entries.get? k with
  | none => rw [h.forgotten k he, Cache.look, he]; rfl
  | some e =>
    rw [h.good_entry he]
    simp only [Cache.look, he]
    cases e.isFresh m.clock.now <;> rfl

/-- Nothing is lost with an entry that is not fresh. -/
theorem drop (h : Agrees c m) (ttl : c'.ttl = c.ttl) (patience : c'.patience = c.patience)
    (left : ∀ k, c'.entries.get? k = c.entries.get? k ∨
      c'.entries.get? k = none ∧ ∀ e, c.entries.get? k = some e → e.isFresh m.clock.now = false) :
    Agrees c' m := by
  refine ⟨ttl.trans h.ttl, patience.trans h.patience, fun k e he => ?_, fun k hk => ?_⟩
  · rcases left k with same | ⟨gone, -⟩
    · exact h.kept k e (same ▸ he)
    · rw [gone] at he; cases he
  · rcases left k with same | ⟨-, stale⟩
    · exact h.forgotten k (same ▸ hk)
    · cases he : c.entries.get? k with
      | none => exact h.forgotten k he
      | some e => rw [h.good_entry he, stale e he]; rfl

theorem forget (h : Agrees c m) (miss : (c.look k m.clock.now).1 = none) :
    Agrees (c.look k m.clock.now).2 m := by
  refine h.drop (Cache.look_ttl _ _ _) (Cache.look_patience _ _ _) fun j => ?_
  rw [Cache.look_entries miss]
  split
  · rename_i e
    subst e
    refine Or.inr ⟨rfl, fun e he => ?_⟩
    rw [Cache.look, he] at miss
    cases fresh : e.isFresh m.clock.now with
    | false => rfl
    | true => simp only [fresh, if_true] at miss; cases miss
  · exact Or.inl rfl

theorem sweep (h : Agrees c m) : Agrees (c.sweep m.clock.now) m := by
  refine h.drop rfl rfl fun k => ?_
  rw [Cache.sweep, Table.get?_filter]
  cases he : c.entries.get? k with
  | none => exact Or.inl rfl
  | some e =>
    cases fresh : e.isFresh m.clock.now with
    | false => exact Or.inr ⟨by simp [Option.filter, fresh], fun e' h' => by cases h'; exact fresh⟩
    | true => exact Or.inl (by simp [Option.filter, fresh])

/-- What is not good any more does not become good again, for the clock never goes back. -/
theorem elapse (h : Agrees c m) (ms : Nat) : Agrees c (m.pause (.passes ms)) := by
  refine ⟨h.ttl, h.patience, h.kept, fun k hk => Memory.good?_eq_none.mpr fun a since last pos => ?_⟩
  have ended := Memory.good?_eq_none.mp (h.forgotten k hk) a since last pos
  exact Int.le_trans ended (Int.mul_le_mul_of_nonneg_right (Clock.le_advance m.clock ms) (by decide))

/-- A success that is learnt is stored, unless the time to live is zero and nothing is ever good. -/
theorem learn (h : Agrees c m) (k : Credential) (r : Except Failure Authorization) :
    Agrees (c.store k m.clock.now r) (m.learn k r) := by
  cases r with
  | error e => exact h
  | ok a =>
    by_cases zero : c.ttl.nanos = 0
    · have never : ¬ 0 < m.ttl.nanos := by rw [← h.ttl, zero]; exact Nat.lt_irrefl 0
      rw [show c.store k m.clock.now (.ok a) = c by simp only [Cache.store, zero, if_true]]
      exact ⟨h.ttl, h.patience, fun j e he => absurd (h.kept j e he).1 never,
        fun j _ => Memory.good?_eq_none.mpr fun _ _ _ pos => absurd pos never⟩
    · have pos : 0 < m.ttl.nanos := by rw [← h.ttl]; exact Nat.pos_of_ne_zero zero
      simp only [Cache.store, if_neg zero]
      refine ⟨h.ttl, h.patience, fun j e he => ?_, fun j hj => Memory.good?_eq_none.mpr fun b since last => ?_⟩
      · rw [Table.get?_insert] at he
        by_cases e : j = k
        · rw [if_pos e] at he
          cases he
          exact ⟨pos, by simp only [Memory.learn, if_pos e], by rw [h.ttl]; rfl⟩
        · rw [if_neg e] at he
          obtain ⟨-, last, ends⟩ := h.kept j _ he
          exact ⟨pos, by simpa only [Memory.learn, if_neg e] using last, ends⟩
      · rw [Table.get?_insert] at hj
        by_cases e : j = k
        · rw [if_pos e] at hj; cases hj
        · rw [if_neg e] at hj
          simp only [Memory.learn, if_neg e] at last
          exact Memory.good?_eq_none.mp (h.forgotten j hj) b since last

end Agrees

end Recall

/-! ## A call of a session -/

namespace Gate

variable {g : Gate} {c : CallId} {k : Credential} {x : Except Failure Authorization}

theorem follow_answered {s : Authenticator.Step} (h : s.result = some x) :
    (g.follow c (.authenticate k) s).answers = g.answers ++ [(c, .authorization x)] ∧
      (g.follow c (.authenticate k) s).calls = g.calls.erase c := by
  unfold follow
  simp only [h]
  exact ⟨rfl, rfl⟩

/-- A call for an authorization that is answered at once. -/
theorem arrived_answered (h : (g.authenticator.ask g.next k g.now).result = some x) :
    (g.step (.arrived (.authenticate k))).answers = g.answers ++ [(g.next, .authorization x)] ∧
      (g.step (.arrived (.authenticate k))).need? g.next = none := by
  obtain ⟨answers, calls⟩ := follow_answered (g := { g with next := g.next + 1 }) (c := g.next) (k := k) h
  refine ⟨answers, ?_⟩
  have gone : (g.step (.arrived (.authenticate k))).calls.get? g.next = none :=
    (congrArg (fun t => Table.get? t g.next) calls).trans (by rw [Table.get?_erase, if_pos rfl])
  rw [need?, gone]
  rfl

/-- A call for an authorization that has to wait. -/
theorem arrived_waiting (h : (g.authenticator.ask g.next k g.now).result = none) :
    (g.step (.arrived (.authenticate k))).answers = g.answers ∧
      (g.step (.arrived (.authenticate k))).calls.get? g.next = some ⟨.authenticate k, .authenticating⟩ := by
  have stays : g.step (.arrived (.authenticate k)) =
      ({ g with next := g.next + 1, authenticator := (g.authenticator.ask g.next k g.now).next }.say
        (g.authenticator.ask g.next k g.now).events).stay g.next (.authenticate k) .authenticating := by
    show follow _ _ _ (g.authenticator.ask g.next k g.now) = _
    unfold follow
    simp only [h]
  rw [stays]
  exact ⟨rfl, Table.get?_insert_self _ _ _⟩

theorem told_answered {f : Cache.Finding} (hc : g.calls.get? c = some ⟨.authenticate k, .authenticating⟩)
    (h : (g.authenticator.hear c f g.now).result = some x) :
    (g.step (.lookedUp c f)).answers = g.answers ++ [(c, .authorization x)] := by
  simp only [step, withCall, hc]
  exact (follow_answered h).1

/-- The answer of a call that had none. -/
theorem answer_new {g' : Gate} {a : Answer} (fresh : ∀ x ∈ g.answers, x.1 ≠ c)
    (h : g'.answers = g.answers ++ [(c, a)]) : g'.answer? c = some a := by
  have none : g.answers.lookup c = none := List.lookup_eq_none_iff.mpr fun x hx => by
    simpa using (fresh x hx).symm
  simp [answer?, h, List.lookup_append, none]

end Gate

namespace Recall

namespace Session

variable {s : Session}

/-- What happens beside the calls touches the clock and the cache. -/
theorem pauses_gate (s : Session) (l : List Pause) : ∃ clock cache, (s.pauses l).gate =
    { s.gate with clock, authenticator := { s.gate.authenticator with cache } } := by
  induction l generalizing s with
  | nil => exact ⟨s.gate.clock, s.gate.authenticator.cache, rfl⟩
  | cons p l ih =>
    obtain ⟨clock, cache, h⟩ := ih (s.pause p)
    refine ⟨clock, cache, h.trans ?_⟩
    cases p <;> rfl

structure Ready (s : Session) : Prop where
  idle : s.gate.authenticator.Idle s.gate.next
  answered : ∀ x ∈ s.gate.answers, x.1 < s.gate.next

theorem Ready.pauses (h : s.Ready) (l : List Pause) : (s.pauses l).Ready := by
  obtain ⟨clock, cache, hg⟩ := s.pauses_gate l
  constructor
  · rw [hg]; exact h.idle.recache cache
  · rw [hg]; exact h.answered

end Session

structure Follows (s : Session) (m : Memory) : Prop where
  clock : s.gate.clock = m.clock
  authority : s.authority = m.authority
  agrees : Agrees s.cache m

namespace Follows

variable {s : Session} {m : Memory}

theorem pause (h : Follows s m) (p : Pause) : Follows (s.pause p) (m.pause p) := by
  cases p with
  | passes ms =>
    refine ⟨?_, h.authority, h.agrees.elapse ms⟩
    show s.gate.clock.advance ms = m.clock.advance ms
    rw [h.clock]
  | answers authority => exact ⟨h.clock, rfl, ⟨h.agrees.ttl, h.agrees.patience, h.agrees.kept, h.agrees.forgotten⟩⟩
  | sweeps =>
    refine ⟨h.clock, h.authority, ?_⟩
    show Agrees (s.cache.sweep s.gate.clock.now) m
    rw [h.clock]
    exact h.agrees.sweep

theorem pauses (h : Follows s m) (l : List Pause) : Follows (s.pauses l) (m.pauses l) := by
  induction l generalizing s m with
  | nil => exact h
  | cons p l ih => exact ih (h.pause p)

end Follows

namespace Session

variable {s : Session} {m : Memory} {c : CallId} {k : Credential}

/-- The answers so far and the next one are those of calls that have come. -/
theorem answered_next {g : Gate} {n : CallId} {a : Answer} (h : ∀ x ∈ g.answers, x.1 < n) {g' : Gate}
    (hg : g'.answers = g.answers ++ [(n, a)]) : ∀ x ∈ g'.answers, x.1 < n + 1 := by
  rw [hg]
  intro x hx
  rcases List.mem_append.mp hx with hx | hx
  · exact Nat.lt_succ_of_lt (h x hx)
  · cases List.mem_singleton.mp hx; exact Nat.lt_succ_self n

/-- A call that a fresh entry serves. -/
theorem ask_hit (ready : s.Ready) {e : Entry} (hit : (s.cache.look k s.gate.now).1 = some e) (l : List Pause) :
    (s.ask k l).1 = ⟨some (.authorization (.ok e.authorization)), 0⟩ ∧ (s.ask k l).2.cache = s.cache ∧
      (s.ask k l).2.gate.clock = s.gate.clock ∧ (s.ask k l).2.authority = s.authority ∧ (s.ask k l).2.Ready := by
  obtain ⟨result, next⟩ := Authenticator.ask_hit (c := s.gate.next) hit
  obtain ⟨answers, ends⟩ := Gate.arrived_answered result
  have authenticator : (s.gate.step (.arrived (.authenticate k))).authenticator = s.gate.authenticator :=
    (Gate.step_authenticator _ _).trans next
  have ended : s.ask k l = (⟨(s.gate.step (.arrived (.authenticate k))).answer? s.gate.next, 0⟩,
      s.feed (.arrived (.authenticate k))) := if_neg (by rw [feed, ends]; exact fun h => by cases h)
  rw [ended]
  refine ⟨?_, congrArg Authenticator.cache authenticator, congrArg Gate.Ground.clock (Gate.ground_step _ _), rfl,
    ?_, ?_⟩
  · rw [Gate.answer_new (fun x hx => Nat.ne_of_lt (ready.answered x hx)) answers]
  · show (s.gate.step _).authenticator.Idle (s.gate.step _).next
    rw [authenticator, Gate.step_next]
    exact ⟨ready.idle.manifest.later (Nat.le_succ _), ready.idle.nobody⟩
  · show ∀ x ∈ (s.gate.step _).answers, x.1 < (s.gate.step _).next
    rw [Gate.step_next]
    exact answered_next ready.answered answers

structure Asking (s : Session) (c : CallId) (k : Credential) : Prop where
  alone : s.gate.authenticator.Alone c k
  waits : s.gate.calls.get? c = some ⟨.authenticate k, .authenticating⟩
  next : s.gate.next = c + 1
  answered : ∀ x ∈ s.gate.answers, x.1 < c

/-- A call that no fresh entry serves comes to its lookup, and drops the entry that it met. -/
theorem Ready.asking (ready : s.Ready) (miss : (s.cache.look k s.gate.now).1 = none) :
    (s.feed (.arrived (.authenticate k))).Asking s.gate.next k ∧
      (s.feed (.arrived (.authenticate k))).cache = (s.cache.look k s.gate.now).2 := by
  obtain ⟨result, cache, alone⟩ := Authenticator.ask_alone ready.idle miss
  obtain ⟨answers, waits⟩ := Gate.arrived_waiting result
  have authenticator : (s.gate.step (.arrived (.authenticate k))).authenticator =
      (s.gate.authenticator.ask s.gate.next k s.gate.now).next := Gate.step_authenticator _ _
  rw [← authenticator] at alone cache
  exact ⟨⟨alone, waits, Gate.step_next _ _, answers.symm ▸ ready.answered⟩, cache⟩

theorem Asking.need (h : s.Asking c k) : s.gate.need? c = some (.lookup k) := by
  obtain ⟨f, seat⟩ := h.alone.seat
  simp [Gate.need?, h.waits, seat]

theorem Asking.pauses (h : s.Asking c k) (l : List Pause) : (s.pauses l).Asking c k := by
  obtain ⟨clock, cache, hg⟩ := s.pauses_gate l
  constructor <;> rw [hg]
  · exact h.alone.recache cache
  · exact h.waits
  · exact h.next
  · exact h.answered

/-- The authority's answer ends the call. -/
theorem Asking.told (h : s.Asking c k) (room : s.cache.Roomy s.gate.now) {f : Cache.Finding} :
    (s.feed (.lookedUp c f)).gate.answer? c = some (.authorization (f.reply s.cache.patience)) ∧
      (s.feed (.lookedUp c f)).cache = s.cache.store k s.gate.now (f.reply s.cache.patience) ∧
      (s.feed (.lookedUp c f)).Ready := by
  obtain ⟨reply, stored, idle⟩ := Authenticator.hear_alone h.alone room f
  have told := Gate.told_answered h.waits reply
  have turn : (s.gate.step (.lookedUp c f)).authenticator = (s.gate.authenticator.hear c f s.gate.now).next := by
    rw [Gate.step_authenticator]
    simp only [Gate.turn, h.waits]
  have next : (s.gate.step (.lookedUp c f)).next = c + 1 := (Gate.step_next _ _).trans h.next
  refine ⟨Gate.answer_new (fun x hx => Nat.ne_of_lt (h.answered x hx)) told,
    (congrArg Authenticator.cache turn).trans stored, ?_, ?_⟩
  · show (s.gate.step _).authenticator.Idle (s.gate.step _).next
    rw [turn, next]
    exact idle
  · show ∀ x ∈ (s.gate.step _).answers, x.1 < (s.gate.step _).next
    rw [next]
    exact answered_next h.answered told

end Session

/-! ## (1) The session follows the reference -/

namespace Memory

/-- The end of an entry made now is within the calendar. -/
def Roomy (m : Memory) : Prop := m.clock.now.nanos + m.ttl.nanos ≤ Instant.last.nanos + 999999

variable {m : Memory} {k : Credential}

theorem learn_clock (m : Memory) (k : Credential) (r : Except Failure Authorization) :
    (m.learn k r).clock = m.clock ∧ (m.learn k r).authority = m.authority := by
  cases r <;> exact ⟨rfl, rfl⟩

theorem learn_roomy {r : Except Failure Authorization} (h : (m.learn k r).Roomy) : m.Roomy := by
  cases r <;> exact h

/-- The clock never goes back, so room at the end is room before. -/
theorem pause_roomy {p : Pause} (h : (m.pause p).Roomy) : m.Roomy := by
  cases p with
  | passes ms =>
    have later := Int.mul_le_mul_of_nonneg_right (Clock.le_advance m.clock ms) (show (0 : Int) ≤ 1000000 by decide)
    exact Int.le_trans (Int.add_le_add_right later _) h
  | answers authority => exact h
  | sweeps => exact h

theorem pauses_roomy {l : List Pause} (h : (m.pauses l).Roomy) : m.Roomy := by
  induction l generalizing m with
  | nil => exact h
  | cons p l ih => exact pause_roomy (ih h)

theorem ask_roomy {l : List Pause} (h : (m.ask k l).2.Roomy) : m.Roomy := by
  unfold ask at h
  split at h
  · exact h
  · exact pauses_roomy (learn_roomy h)

theorem play_roomy {acts : List Act} (h : (m.play acts).2.Roomy) : m.Roomy := by
  induction acts generalizing m with
  | nil => exact h
  | cons act acts ih =>
    cases act with
    | asks k l => exact ask_roomy (ih h)
    | pause p => exact pause_roomy (ih h)

end Memory

namespace Follows

variable {s : Session} {m : Memory} {c : CallId} {k : Credential}

theorem now (h : Follows s m) : s.gate.now = m.clock.now := congrArg Clock.now h.clock

theorem roomy (h : Follows s m) (room : m.Roomy) : s.cache.Roomy s.gate.now := by
  unfold Cache.Roomy
  rw [h.now, h.agrees.ttl]
  exact room

theorem asked (h : Follows s m) (ready : s.Ready) (miss : (s.cache.look k s.gate.now).1 = none) :
    Follows (s.feed (.arrived (.authenticate k))) m := by
  refine ⟨(congrArg Gate.Ground.clock (Gate.ground_step _ _)).trans h.clock, h.authority, ?_⟩
  rw [(ready.asking miss).2, h.now]
  exact h.agrees.forget (h.now ▸ miss)

/-- Where no fresh entry is, the reference has a lookup too. -/
theorem missed (h : Follows s m) (ready : s.Ready) (miss : (s.cache.look k s.gate.now).1 = none) (l : List Pause) :
    m.ask k l = (⟨some (.authorization ((m.pauses l).reply k)), 1⟩, (m.pauses l).learn k ((m.pauses l).reply k)) ∧
      Follows ((s.feed (.arrived (.authenticate k))).pauses l) (m.pauses l) := by
  have found : _ = m.good? k := h.agrees.look k
  rw [← h.now, miss] at found
  refine ⟨?_, (h.asked ready miss).pauses l⟩
  rw [Memory.ask, ← found]
  rfl

theorem told (h : Follows s m) (asking : s.Asking c k) (room : m.Roomy) :
    (s.feed (.lookedUp c (s.authority k))).gate.answer? c = some (.authorization (m.reply k)) ∧
      Follows (s.feed (.lookedUp c (s.authority k))) (m.learn k (m.reply k)) ∧
      (s.feed (.lookedUp c (s.authority k))).Ready := by
  obtain ⟨answer, stored, ready⟩ := asking.told (h.roomy room) (f := s.authority k)
  have same : (s.authority k).reply s.cache.patience = m.reply k := by
    rw [Memory.reply, h.authority, h.agrees.patience]
  rw [same] at answer stored
  obtain ⟨clock, authority⟩ := m.learn_clock k (m.reply k)
  refine ⟨answer, ⟨?_, h.authority.trans authority.symm, ?_⟩, ready⟩
  · exact (congrArg Gate.Ground.clock (Gate.ground_step _ _)).trans (h.clock.trans clock.symm)
  · rw [stored, h.now]
    exact h.agrees.learn k (m.reply k)

theorem ask (h : Follows s m) (ready : s.Ready) (k : Credential) (l : List Pause) (room : (m.ask k l).2.Roomy) :
    (s.ask k l).1 = (m.ask k l).1 ∧ Follows (s.ask k l).2 (m.ask k l).2 ∧ (s.ask k l).2.Ready := by
  have found : _ = m.good? k := h.agrees.look k
  rw [← h.now] at found
  cases hit : (s.cache.look k s.gate.now).1 with
  | some e =>
    rw [hit] at found
    obtain ⟨receipt, cache, clock, authority, ready⟩ := Session.ask_hit ready hit l
    have recalled : m.ask k l = (⟨some (.authorization (.ok e.authorization)), 0⟩, m) := by
      rw [Memory.ask, ← found]; rfl
    rw [recalled]
    exact ⟨receipt, ⟨clock.trans h.clock, authority.trans h.authority, cache ▸ h.agrees⟩, ready⟩
  | none =>
    obtain ⟨looked, waited⟩ := h.missed ready hit l
    have asking := (ready.asking hit).1
    rw [looked] at room ⊢
    rw [show s.ask k l = _ from if_pos asking.need]
    obtain ⟨answer, told, ready⟩ := waited.told (asking.pauses l) (Memory.learn_roomy room)
    exact ⟨by rw [← answer], told, ready⟩

/-- As long as there is room, every call has the receipt of the reference. -/
theorem play (h : Follows s m) (ready : s.Ready) {acts : List Act} (room : (m.play acts).2.Roomy) :
    (s.play acts).1 = (m.play acts).1 ∧ Follows (s.play acts).2 (m.play acts).2 ∧ (s.play acts).2.Ready := by
  induction acts generalizing s m with
  | nil => exact ⟨rfl, h, ready⟩
  | cons act acts ih =>
    cases act with
    | asks k l =>
      obtain ⟨receipt, follows, ready⟩ := h.ask ready k l (Memory.play_roomy room)
      obtain ⟨receipts, rest⟩ := ih follows ready room
      exact ⟨congrArg₂ List.cons receipt receipts, rest⟩
    | pause p => exact ih (h.pause p) (ready.pauses [p]) room

end Follows

/-! ## (2) Sweeps -/

def Pause.isSweep : Pause → Bool
  | .sweeps => true
  | _ => false

def Act.unswept? : Act → Option Act
  | .asks k meanwhile => some (.asks k (meanwhile.filter fun p => !p.isSweep))
  | .pause p => if p.isSweep then none else some (.pause p)

def unswept (acts : List Act) : List Act := acts.filterMap Act.unswept?

namespace Memory

variable {m : Memory}

theorem pauses_unswept (m : Memory) (l : List Pause) : m.pauses (l.filter fun p => !p.isSweep) = m.pauses l := by
  induction l generalizing m with
  | nil => rfl
  | cons p l ih => cases p <;> exact ih _

theorem play_unswept (m : Memory) (acts : List Act) : m.play (unswept acts) = m.play acts := by
  induction acts generalizing m with
  | nil => rfl
  | cons act acts ih =>
    cases act with
    | asks k l =>
      have same : m.ask k (l.filter fun p => !p.isSweep) = m.ask k l := by
        unfold ask
        rw [m.pauses_unswept l]
      show _ = ((m.ask k l).1 :: ((m.ask k l).2.play acts).1, ((m.ask k l).2.play acts).2)
      rw [← ih, ← same]
      rfl
    | pause p => cases p <;> exact ih _

end Memory

/-! ## (3) Failures -/

namespace Session

variable {s s' : Session} {m : Memory} {k : Credential}

/-- Two caches that differ in one entry only differ in it after the same pauses. -/
theorem pauses_without (clock : s'.gate.clock = s.gate.clock)
    (h : ∀ j, s'.cache.entries.get? j = if j = k then none else s.cache.entries.get? j) (l : List Pause)
    (j : Credential) :
    (s'.pauses l).cache.entries.get? j = if j = k then none else (s.pauses l).cache.entries.get? j := by
  induction l generalizing s s' with
  | nil => exact h j
  | cons p l ih =>
    cases p with
    | passes ms => exact ih (congrArg (Clock.advance · ms) clock) h
    | answers authority => exact ih clock h
    | sweeps =>
      refine ih clock fun j => ?_
      show (s'.cache.sweep s'.gate.clock.now).entries.get? j =
        if j = k then none else (s.cache.sweep s.gate.clock.now).entries.get? j
      rw [Cache.sweep, Cache.sweep, Table.get?_filter, Table.get?_filter, h, clock]
      split <;> rfl

/-- A call that ends in a failure leaves no entry, and the others as the pauses leave them. -/
theorem ask_failed (ready : s.Ready) (h : Follows s m) {l : List Pause} (room : (m.ask k l).2.Roomy) {e : Failure}
    (failed : (s.ask k l).1.answer = some (.authorization (.error e))) (j : Credential) :
    (s.ask k l).2.cache.entries.get? j = if j = k then none else (s.pauses l).cache.entries.get? j := by
  cases hit : (s.cache.look k s.gate.now).1 with
  | some e =>
    rw [(ask_hit ready hit l).1] at failed
    cases failed
  | none =>
    obtain ⟨asking, dropped⟩ := ready.asking hit
    obtain ⟨looked, waited⟩ := h.missed ready hit l
    rw [looked] at room
    obtain ⟨answer, stored, -⟩ := (asking.pauses l).told (waited.roomy (Memory.learn_roomy room))
      (f := ((s.feed (.arrived (.authenticate k))).pauses l).authority k)
    rw [show s.ask k l = _ from if_pos asking.need] at failed ⊢
    have error := answer.symm.trans failed
    simp only [Option.some.injEq, Answer.authorization.injEq] at error
    show (Session.feed _ _).cache.entries.get? j = _
    rw [stored, error]
    refine pauses_without (congrArg Gate.Ground.clock (Gate.ground_step _ _)) (fun i => ?_) l j
    rw [dropped, Cache.look_entries hit]

end Session

/-! ## (4) What a sweep drops -/

end Recall

namespace Gate

theorem swept_entries (g : Gate) (k : Credential) (e : Entry) :
    (g.step (.swept .credentials)).authenticator.cache.entries.get? k = some e ↔
      g.authenticator.cache.entries.get? k = some e ∧ ¬ e.expires ≤ g.now.nanos := by
  show (g.authenticator.cache.sweep g.now).entries.get? k = some e ↔ _
  rw [Cache.sweep, Table.get?_filter, Option.filter_eq_some_iff]
  simp [Entry.isFresh]

/-- A sweep has dropped as many entries as had lapsed. -/
theorem swept_count (g : Gate) :
    g.held .credentials - (g.step (.swept .credentials)).held .credentials =
      g.authenticator.cache.entries.entries.countP fun x => x.2.expires ≤ g.now.nanos := by
  show g.authenticator.cache.entries.entries.length -
    (g.authenticator.cache.entries.entries.filter fun x => x.2.isFresh g.now).length = _
  rw [List.length_eq_countP_add_countP (fun x => x.2.isFresh g.now), ← List.countP_eq_length_filter,
    Nat.add_sub_cancel_left]
  congr
  funext x
  simp [Entry.isFresh]

end Gate

namespace Recall

/-- From an empty cache, as long as the clock leaves room for an entry, the calls of a session
get the answers and make the lookups of the reference. -/
theorem refines {t : Instant} {ttl patience : Span} {cache : Cache} {limiter : Limiter} {pinger : Option Span}
    {authority : Credential → Cache.Finding} {acts : List Act} (made : Cache.make ttl patience = .ok cache)
    (room : ((Memory.start t ttl patience authority).play acts).2.Roomy) :
    let s : Session := ⟨Gate.start t cache limiter pinger, authority⟩
    let m := Memory.start t ttl patience authority
    (s.play acts).1 = (m.play acts).1 ∧
      (∀ acts', unswept acts' = unswept acts → (s.play acts').1 = (s.play acts).1) ∧
      (∀ before k meanwhile after e, acts = before ++ .asks k meanwhile :: after →
        (((s.play before).2.ask k meanwhile).1.answer = some (.authorization (.error e))) →
        ∀ j, ((s.play before).2.ask k meanwhile).2.cache.entries.get? j =
          if j = k then none else ((s.play before).2.pauses meanwhile).cache.entries.get? j) ∧
      ∀ g : Gate, let swept := g.step (.swept .credentials)
        (∀ k e, swept.authenticator.cache.entries.get? k = some e ↔
          g.authenticator.cache.entries.get? k = some e ∧ ¬ e.expires ≤ g.now.nanos) ∧
        g.held .credentials - swept.held .credentials =
          g.authenticator.cache.entries.entries.countP fun x => x.2.expires ≤ g.now.nanos := by
  intro s m
  have ready : s.Ready := ⟨⟨Manifest.empty 0, fun c => rfl⟩, fun x hx => (nomatch hx)⟩
  have follows : Follows s m := ⟨rfl, rfl, Agrees.start made⟩
  have receipts : (s.play acts).1 = (m.play acts).1 := (follows.play ready room).1
  refine ⟨receipts, fun acts' same => ?_, fun before k l after e split failed j => ?_,
    fun g => ⟨g.swept_entries, g.swept_count⟩⟩
  · have alike : m.play acts' = m.play acts := by rw [← m.play_unswept acts', same, m.play_unswept]
    rw [receipts, (follows.play ready (alike.symm ▸ room)).1, alike]
  · have there : (m.play acts).2 = (((m.play before).2.ask k l).2.play after).2 := by
      rw [split, m.play_append]
      rfl
    have asked : ((m.play before).2.ask k l).2.Roomy := Memory.play_roomy (there ▸ room)
    obtain ⟨-, follows, ready⟩ := follows.play ready (Memory.ask_roomy asked)
    exact Session.ask_failed ready follows asked failed j

/-- Two calls a millisecond apart, a third when the entry ends, and sweeps around it. -/
def recalls (k : Credential) : List Act :=
  [.asks k [], .pause (.passes 1), .asks k [], .pause (.passes 1), .pause .sweeps, .asks k [.sweeps]]

/-- The second call is answered from memory, the third one is not. -/
theorem recalls_refine :
    let k : Credential := ⟨"t"⟩
    let a : Authorization := ⟨⟨"acct"⟩, .card, none⟩
    let ttl := Span.ofMillis 2
    let cache : Cache := ⟨ttl, Span.ofMillis 500, Table.empty⟩
    let authority : Credential → Cache.Finding := fun _ => .answered (.ok (.valid a))
    Cache.make ttl (Span.ofMillis 500) = .ok cache ∧
      ((Memory.start 0 ttl (Span.ofMillis 500) authority).play (recalls k)).2.Roomy ∧
      (Session.play ⟨Gate.start 0 cache (Limiter.localOnly Policy.standard) none, authority⟩ (recalls k)).1 =
        [⟨some (.authorization (.ok a)), 1⟩, ⟨some (.authorization (.ok a)), 0⟩,
          ⟨some (.authorization (.ok a)), 1⟩] := by
  intro k a ttl cache authority
  have made : Cache.make ttl (Span.ofMillis 500) = .ok cache := rfl
  have room : ((Memory.start 0 ttl (Span.ofMillis 500) authority).play (recalls k)).2.Roomy := by
    show (2000000 : Int) + 2000000 ≤ Instant.last.nanos + 999999
    decide
  exact ⟨made, room, (refines made room).1⟩

end Recall

end Gateway
