/-
  Gateway.Proofs.SharedAttempts — attempts of several instances in one keyspace.

  The keyspace forgets a counter by itself at the end that the counter was given, and a
  counter is given an end once: at its first attempt, one width from there. The instances
  share the keyspace and its clock; each opens its own connection. Every attempt is on
  the key of its instant, and on none that was counted before. (Widths are exact here; a store
  that reads them as floating-point numbers has them exact below 2^53 milliseconds.)

  An attempt lies in the window of its key, so the end set by the first one lies behind
  the window's end: whoever comes later in this window still finds the counter. What the
  keyspace holds under the names of keys is therefore told by the attempts so far, as a
  function of their list (`counter?`). The proof carries this over one attempt
  (`Holds.step`) and from there over a run (`Holds.run`).

  Proved:
  - `record_found`: an attempt leaves a counter that it finds with an end, its own if it had
    one.
  - `attempts_agree`: for every run, each count that an instance is told is the number of
    attempts on the key and the count of an instance's own counters; every counter has an
    end, which is not before that of its window.
-/

import Gateway.Proofs.Counts
import Gateway.Proofs.Numerals
import Gateway.Proofs.Windows

namespace Gateway

/-! ## Texts that end -/

namespace Table

variable {α β : Type} [DecidableEq α]

theorem insert_insert (t : Table α β) (k : α) (v w : β) : (t.insert k v).insert k w = t.insert k w := by
  simp [insert, erase, filter]

end Table

namespace Keyspace

variable {s : Keyspace} {name : String} {now t : Instant} {e : Entry}

theorem entry?_eq (s : Keyspace) (name : String) (now : Instant) :
    s.entry? name now = (s.entries.get? name).filter (Entry.lasts · now) :=
  Table.get?_filter _ _ _

theorem Entry.lasts_mono (later : now ≤ t) (h : e.lasts t = true) : e.lasts now = true := by
  unfold lasts at h ⊢
  cases ends : e.ends with
  | none => rfl
  | some u =>
    rw [ends] at h
    have before : t < u := of_decide_eq_true h
    exact decide_eq_true (Int.lt_of_le_of_lt later before)

/-- What is gone was not to be found later. -/
theorem entry?_purge (later : now ≤ t) (s : Keyspace) (name : String) :
    entry? (s.purge now) name t = s.entry? name t := by
  rw [entry?_eq, entry?_eq, purge, Table.get?_filter, Option.filter_filter]
  refine congrArg (fun p => (s.entries.get? name).filter p) (funext fun e => ?_)
  cases h : e.lasts t with
  | false => exact Bool.and_false _
  | true => exact (Bool.and_true _).trans (Entry.lasts_mono later h)

theorem entry?_later (h : s.entry? name now = none) (later : now ≤ t) : s.entry? name t = none := by
  rw [entry?_eq, Option.filter_eq_none_iff] at h ⊢
  exact fun e he lasts => h e he (Entry.lasts_mono later lasts)

def attempted (found : Option Entry) (ends : Instant) : Option (Int × Entry) :=
  match found with
  | none => some (1, ⟨"1", some ends⟩)
  | some e => e.next?.map fun n => (n, ⟨toString n, some (e.ends.getD ends)⟩)

theorem bound_insert (t : Table String Entry) (name : String) (e : Entry) (ends : Instant) :
    bound ⟨t.insert name e⟩ name ends = ⟨t.insert name { e with ends := some (e.ends.getD ends) }⟩ := by
  unfold bound Table.update
  simp only [Table.get?_insert_self, Table.insert_insert]

theorem attempt?_eq {found : Option Entry} (h : s.entry? name now = found) (width : Nat) :
    s.attempt? name width now = (attempted found (now + width)).map fun r =>
      (r.1, ⟨(s.purge now).entries.insert name r.2⟩) := by
  unfold attempt? increment? attempted
  rw [h]
  cases found with
  | none => simp only [Option.map_some, bound_insert, Option.getD_none]
  | some e => simp only [Option.map_map, Function.comp_def, bound_insert]

/-- What is found after an entry has been put. -/
theorem entry?_insert (later : now ≤ t) (s : Keyspace) (name : String) (e : Entry) (j : String) :
    entry? ⟨(s.purge now).entries.insert name e⟩ j t =
      if j = name then (some e).filter (Entry.lasts · t) else s.entry? j t := by
  rw [entry?_eq, Table.get?_insert]
  split
  · rfl
  · rw [← entry?_eq, entry?_purge later]

/-- An attempt puts what it leads to, and leaves the other entries. -/
theorem attempt?_counts {found : Option Entry} {width : Nat} {n : Int} (h : s.entry? name now = found)
    (counts : attempted found (now + width) = some (n, e)) : ∃ s', s.attempt? name width now = some (n, s') ∧
      ∀ j t, now ≤ t → s'.entry? j t = if j = name then (some e).filter (Entry.lasts · t) else s.entry? j t := by
  rw [attempt?_eq h, counts]
  exact ⟨_, rfl, fun j t later => entry?_insert later s name e j⟩

/-- The greatest word cannot be counted up. -/
theorem next?_toString {m : Nat} (h : m ≤ Word.greatest.toNat) (ends : Option Int) :
    Entry.next? ⟨toString m, ends⟩ = if m < Word.greatest.toNat then some ((m + 1 : Nat) : Int) else none := by
  have word : ((m : Int) < Word.greatest) ↔ m < Word.greatest.toNat := by
    unfold Word.greatest
    omega
  unfold Entry.next?
  rw [Numeral.signed_toString h]
  exact if_congr word rfl rfl

end Keyspace

namespace SharedStore

variable {s : SharedStore} {k : WindowKey} {now : Instant} {patience : Option Span}

/-! ## Attempts of one instance -/

/-- A store that is reached and in order does what it is told. -/
theorem send_well {α : Type} (well : s.conduct = .well) (reached : s.reachable = true) (patience : Option Span)
    (failed : String → Failure) (command : Keyspace → Except Failure α × Keyspace) :
    (s.send patience failed command).reply = .ended (command s.keyspace).1 ∧
      (s.send patience failed command).next.keyspace = (command s.keyspace).2 := by
  obtain ⟨stem, l, conduct, reachable, connected⟩ := s
  subst well reached
  cases connected <;> exact ⟨rfl, rfl⟩

/-- An attempt at such a store. -/
theorem record_well (well : s.conduct = .well) (reached : s.reachable = true) (k : WindowKey) (now : Instant)
    (patience : Option Span) :
    (s.record k now patience).reply = .ended (match s.keyspace.attempt? (s.nameOf k) k.width now with
        | some r => .ok (Word.unsigned r.1)
        | none => .error (recordFailed "the counter cannot go up")) ∧
      (s.record k now patience).next.keyspace =
        ((s.keyspace.attempt? (s.nameOf k) k.width now).map Prod.snd).getD s.keyspace := by
  unfold record
  obtain ⟨reply, next⟩ := send_well well reached patience recordFailed _
  rw [reply, next]
  cases s.keyspace.attempt? (s.nameOf k) k.width now <;> exact ⟨rfl, rfl⟩

/-! ## Attempts of all instances -/

structure Call where
  caller : Nat
  key : WindowKey
  now : Instant
  patience : Option Span

structure Pool where
  stem : String
  keyspace : Keyspace
  connected : Nat → Bool

namespace Pool

def storeOf (s : Pool) (i : Nat) : SharedStore := ⟨s.stem, s.keyspace, .well, true, s.connected i⟩

def nameOf (s : Pool) (k : WindowKey) : String := (s.storeOf 0).nameOf k

def found (s : Pool) (k : WindowKey) (now : Instant) : Option Keyspace.Entry := s.keyspace.entry? (s.nameOf k) now

def step (s : Pool) (c : Call) : Exchange Nat × Pool :=
  let attempt := (s.storeOf c.caller).record c.key c.now c.patience
  (attempt.reply, { s with keyspace := attempt.next.keyspace
                           connected := Function.update s.connected c.caller attempt.next.connected })

def replies (s : Pool) : List Call → List (Exchange Nat)
  | [] => []
  | c :: cs => (s.step c).1 :: replies (s.step c).2 cs

def after (s : Pool) (cs : List Call) : Pool := cs.foldl (fun s c => (s.step c).2) s

end Pool

def locally (l : Counters) : List Call → List Nat
  | [] => []
  | c :: cs => (l.record c.key).1 :: locally (l.record c.key).2 cs

/-- The attempts follow one another from `t` on, each on a key of its instant. -/
def Timely : Instant → List Call → Prop
  | _, [] => True
  | t, c :: cs =>
    t ≤ c.now ∧ c.now.InRange ∧ (∃ p o w, WindowKey.containing p o w c.now = .ok c.key) ∧ Timely c.now cs

/-! ### What the attempts tell -/

def tally (seen : List Call) (k : WindowKey) : Nat := seen.countP fun c => c.key = k

/-- The number of each attempt among those on its key. -/
def numbers (seen : List Call) : List Call → List Nat
  | [] => []
  | c :: cs => (tally seen c.key + 1) :: numbers (seen ++ [c]) cs

/-- What is replied to the attempt of that number. -/
def told (n : Nat) : Exchange Nat :=
  .ended (if n ≤ Word.greatest.toNat then .ok n else .error (recordFailed "the counter cannot go up"))

/-- The counter of that key, as long as it lasts: it ends a width after the first attempt. -/
def counter? (seen : List Call) (k : WindowKey) : Option Keyspace.Entry :=
  (seen.find? fun c => c.key = k).map fun first =>
    ⟨toString (min (tally seen k) Word.greatest.toNat), some (first.now + k.width)⟩

variable {p : Pool} {seen cs : List Call} {c : Call} {t u : Instant}

theorem tally_snoc (seen : List Call) (c : Call) (k : WindowKey) :
    tally (seen ++ [c]) k = tally seen k + if c.key = k then 1 else 0 := by
  unfold tally
  rw [List.countP_append, List.countP_singleton]
  by_cases e : c.key = k <;> simp [e]

theorem counter?_snoc_self (seen : List Call) (c : Call) :
    counter? (seen ++ [c]) c.key = some
      ⟨toString (min (tally seen c.key + 1) Word.greatest.toNat),
        some (((seen.find? fun b => b.key = c.key).getD c).now + c.key.width)⟩ := by
  unfold counter?
  rw [tally_snoc, if_pos rfl, List.find?_append]
  cases seen.find? fun b => b.key = c.key <;> simp

theorem counter?_snoc_ne (seen : List Call) (ne : k ≠ c.key) : counter? (seen ++ [c]) k = counter? seen k := by
  unfold counter?
  rw [tally_snoc, if_neg (Ne.symm ne), List.find?_append]
  simp [Ne.symm ne]

theorem counter?_of_mem (h : c ∈ seen) : ∃ e, counter? seen c.key = some e := by
  have first : (seen.find? fun b => b.key = c.key).isSome = true :=
    List.find?_isSome.mpr ⟨c, h, decide_eq_true rfl⟩
  obtain ⟨b, hb⟩ := Option.isSome_iff_exists.mp first
  unfold counter?
  rw [hb]
  exact ⟨_, rfl⟩

/-- While there is room, an attempt leaves what it and those before tell. -/
theorem attempted_room (room : tally seen c.key < Word.greatest.toNat) :
    ∃ e, Keyspace.attempted (counter? seen c.key) (c.now + c.key.width) = some (((tally seen c.key + 1 : Nat) : Int), e) ∧
      counter? (seen ++ [c]) c.key = some e := by
  refine ⟨_, ?_, counter?_snoc_self seen c⟩
  rw [Nat.min_eq_left room]
  unfold counter?
  cases first : seen.find? fun b => b.key = c.key with
  | none =>
    have none : tally seen c.key = 0 := by
      unfold tally
      rw [List.countP_eq_zero]
      exact List.find?_eq_none.mp first
    rw [none]
    rfl
  | some b =>
    rw [Option.map_some, Nat.min_eq_left (Nat.le_of_lt room)]
    simp only [Keyspace.attempted, Keyspace.next?_toString (Nat.le_of_lt room), if_pos room]
    rfl

theorem attempted_full (full : ¬ tally seen c.key < Word.greatest.toNat) (ends : Instant) :
    Keyspace.attempted (counter? seen c.key) ends = none ∧ counter? (seen ++ [c]) c.key = counter? seen c.key := by
  have counted : (seen.find? fun b => b.key = c.key).isSome = true := by
    rw [List.find?_isSome]
    have : 0 < tally seen c.key := Nat.lt_of_lt_of_le (by decide) (Nat.not_lt.mp full)
    exact List.countP_pos_iff.mp this
  obtain ⟨b, first⟩ := Option.isSome_iff_exists.mp counted
  rw [counter?_snoc_self]
  unfold counter?
  rw [first, Option.map_some, Nat.min_eq_right (Nat.not_lt.mp full), Nat.min_eq_right (by omega)]
  refine ⟨?_, rfl⟩
  simp only [Keyspace.attempted, Keyspace.next?_toString (Nat.le_refl _), Nat.lt_irrefl, if_false, Option.map_none]

/-! ### One attempt -/

namespace Pool

theorem step_eq (p : Pool) (c : Call) :
    (p.step c).1 = .ended (match p.keyspace.attempt? (p.nameOf c.key) c.key.width c.now with
        | some r => .ok (Word.unsigned r.1)
        | none => .error (recordFailed "the counter cannot go up")) ∧
      (p.step c).2.keyspace = ((p.keyspace.attempt? (p.nameOf c.key) c.key.width c.now).map Prod.snd).getD p.keyspace :=
  record_well (s := p.storeOf c.caller) rfl rfl c.key c.now c.patience

/-- An attempt that counts leaves what it leads to, and the other counters as they are. -/
theorem step_counts {n : Int} {e : Keyspace.Entry}
    (h : Keyspace.attempted (p.found c.key c.now) (c.now + c.key.width) = some (n, e)) :
    (p.step c).1 = .ended (.ok (Word.unsigned n)) ∧
      ∀ k u, c.now ≤ u → (p.step c).2.found k u =
        if k = c.key then (some e).filter (Keyspace.Entry.lasts · u) else p.found k u := by
  obtain ⟨reply, next⟩ := p.step_eq c
  obtain ⟨l, attempt, entries⟩ := Keyspace.attempt?_counts rfl h
  rw [attempt] at reply next
  refine ⟨reply, fun k u later => ?_⟩
  show (p.step c).2.keyspace.entry? (p.nameOf k) u = _
  rw [next]
  refine (entries _ u later).trans (if_congr ?_ rfl rfl)
  exact (WindowKey.names_eq_iff (p.storeOf 0) k c.key).2

/-- An attempt that cannot count leaves everything. -/
theorem step_refuses (h : Keyspace.attempted (p.found c.key c.now) (c.now + c.key.width) = none) :
    (p.step c).1 = .ended (.error (recordFailed "the counter cannot go up")) ∧
      (p.step c).2.keyspace = p.keyspace := by
  obtain ⟨reply, next⟩ := p.step_eq c
  have found : p.keyspace.entry? (p.nameOf c.key) c.now = p.found c.key c.now := rfl
  rw [Keyspace.attempt?_eq found, h] at reply next
  exact ⟨reply, next⟩

end Pool

/-! ### All attempts -/

/-- The attempts were made by `t`, each on a key of its instant, and tell what is counted from
then on for the keys that were not counted before. -/
structure Holds (fresh : WindowKey → Prop) (p : Pool) (seen : List Call) (t : Instant) : Prop where
  past : ∀ c ∈ seen, c.now ≤ t ∧ c.now.InRange ∧ c.key.Around c.now
  tells : ∀ k, fresh k → ∀ u, t ≤ u → p.found k u = (counter? seen k).filter (Keyspace.Entry.lasts · u)

variable {fresh : WindowKey → Prop}

theorem Holds.mono (h : Holds fresh p seen t) (later : t ≤ u) : Holds fresh p seen u :=
  ⟨fun c hc => ⟨Int.le_trans (h.past c hc).1 later, (h.past c hc).2⟩,
    fun k new v hv => h.tells k new v (Int.le_trans later hv)⟩

/-- A counter has an end, and not before that of its window. -/
theorem Holds.ends (h : Holds fresh p seen t) {k : WindowKey} {e : Keyspace.Entry} (he : counter? seen k = some e) :
    ∃ v, e = ⟨toString (min (tally seen k) Word.greatest.toNat), some v⟩ ∧ k.stop ≤ v := by
  unfold counter? at he
  cases first : seen.find? fun b => b.key = k with
  | none => rw [first] at he; cases he
  | some b =>
    rw [first, Option.map_some, Option.some.injEq] at he
    subst he
    obtain ⟨-, inRange, on⟩ := h.past b (List.mem_of_find?_eq_some first)
    have same : b.key = k := by simpa using List.find?_some first
    rw [same] at on
    exact ⟨_, rfl, on.stop_le inRange⟩

/-- Before its window has ended, no counter is gone. -/
theorem Holds.found_of_lt_stop (h : Holds fresh p seen t) {k : WindowKey} (new : fresh k) (later : t ≤ u)
    (running : u < k.stop) : p.found k u = counter? seen k := by
  rw [h.tells k new u later]
  cases he : counter? seen k with
  | none => rfl
  | some e =>
    obtain ⟨v, rfl, covers⟩ := h.ends he
    exact Option.filter_some_pos (decide_eq_true (Int.lt_of_lt_of_le running covers))

theorem Holds.step (h : Holds fresh p seen t) (new : fresh c.key) (later : t ≤ c.now) (inRange : c.now.InRange)
    (on : c.key.Around c.now) :
    (p.step c).1 = told (tally seen c.key + 1) ∧ Holds fresh (p.step c).2 (seen ++ [c]) c.now := by
  have past : ∀ b ∈ seen ++ [c], b.now ≤ c.now ∧ b.now.InRange ∧ b.key.Around b.now := fun b hb => by
    rcases List.mem_append.mp hb with hb | hb
    · exact (h.mono later).past b hb
    · cases List.mem_singleton.mp hb
      exact ⟨Int.le_refl _, inRange, on⟩
  have here : p.found c.key c.now = counter? seen c.key := h.found_of_lt_stop new later (on.lt_stop inRange)
  unfold told
  by_cases room : tally seen c.key + 1 ≤ Word.greatest.toNat
  · obtain ⟨e, attempted, leaves⟩ := attempted_room room
    obtain ⟨reply, found⟩ := Pool.step_counts (p := p) (here ▸ attempted)
    have word : Word.unsigned ((tally seen c.key + 1 : Nat) : Int) = tally seen c.key + 1 := by
      unfold Word.greatest at room
      unfold Word.unsigned Word.size
      omega
    refine ⟨by rw [reply, word, if_pos room], past, fun k new u hu => ?_⟩
    rw [found k u hu]
    split
    · rename_i same
      rw [same, leaves]
    · rename_i ne
      rw [counter?_snoc_ne seen ne, h.tells k new u (Int.le_trans later hu)]
  · obtain ⟨refused, leaves⟩ := attempted_full room (c.now + c.key.width)
    obtain ⟨reply, same⟩ := Pool.step_refuses (p := p) (here ▸ refused)
    refine ⟨by rw [reply, if_neg room], past, fun k new u hu => ?_⟩
    have kept : (p.step c).2.found k u = p.found k u := congrArg (Keyspace.entry? · (p.nameOf k) u) same
    rw [kept, h.tells k new u (Int.le_trans later hu)]
    by_cases e : k = c.key
    · rw [e, leaves]
    · rw [counter?_snoc_ne seen e]

theorem Holds.run (h : Holds fresh p seen t) (new : ∀ c ∈ cs, fresh c.key) (timely : Timely t cs) :
    p.replies cs = (numbers seen cs).map told ∧
      ∀ u, t ≤ u → (∀ c ∈ cs, c.now ≤ u) → Holds fresh (p.after cs) (seen ++ cs) u := by
  induction cs generalizing p seen t with
  | nil => exact ⟨rfl, fun u later _ => by rw [List.append_nil]; exact h.mono later⟩
  | cons c cs ih =>
    obtain ⟨later, inRange, ⟨_, _, _, key⟩, rest⟩ := timely
    obtain ⟨reply, next⟩ := h.step (new c List.mem_cons_self) later inRange (WindowKey.around_of_containing key)
    obtain ⟨replies, last⟩ := ih next (fun b hb => new b (List.mem_cons_of_mem c hb)) rest
    refine ⟨congrArg₂ List.cons reply replies, fun u hu made => ?_⟩
    rw [List.append_cons]
    exact last u (made c List.mem_cons_self) fun b hb => made b (List.mem_cons_of_mem c hb)

theorem locally_eq {l : Counters} (h : ∀ k, l.count k = min (tally seen k) Word.top) (cs : List Call) :
    locally l cs = (numbers seen cs).map (min · Word.top) := by
  induction cs generalizing l seen with
  | nil => rfl
  | cons c cs ih =>
    have here : (l.record c.key).1 = min (tally seen c.key + 1) Word.top := by
      rw [Counters.record_fst, h]
      omega
    refine congrArg₂ List.cons here (ih fun k => ?_)
    rw [Counters.record_count, tally_snoc, here]
    by_cases e : k = c.key
    · rw [if_pos e, if_pos e.symm, e]
    · rw [if_neg e, if_neg (Ne.symm e), h]
      rfl

theorem numbers_le {n : Nat} (h : n ∈ numbers seen cs) : n ≤ seen.length + cs.length := by
  induction cs generalizing seen with
  | nil => cases h
  | cons c cs ih =>
    rw [List.length_cons]
    rcases List.mem_cons.mp h with rfl | h
    · have : tally seen c.key ≤ seen.length := List.countP_le_length
      omega
    · have := ih h
      rw [List.length_append, List.length_singleton] at this
      omega

theorem told_eq_ok {m n : Nat} (h : told m = .ended (.ok n)) : m = n ∧ n ≤ Word.greatest.toNat := by
  unfold told at h
  split at h
  · cases h
    exact ⟨rfl, ‹_›⟩
  · cases h

/-- A counter that an attempt finds has an end after it: its own, or a width from there if it
had none. -/
theorem record_found {e : Keyspace.Entry} {n : Int} (narrow : 0 < c.key.width) (found : p.found c.key c.now = some e)
    (counts : e.next? = some n) :
    (p.step c).1 = .ended (.ok (Word.unsigned n)) ∧
      (p.step c).2.found c.key c.now = some ⟨toString n, some (e.ends.getD (c.now + c.key.width))⟩ := by
  have leads : Keyspace.attempted (p.found c.key c.now) (c.now + c.key.width) =
      some (n, ⟨toString n, some (e.ends.getD (c.now + c.key.width))⟩) := by
    rw [found]
    simp only [Keyspace.attempted, counts, Option.map_some]
  have lasts : e.lasts c.now = true := by
    have : p.keyspace.entry? (p.nameOf c.key) c.now = some e := found
    rw [Keyspace.entry?_eq] at this
    exact (Option.filter_eq_some_iff.mp this).2
  obtain ⟨reply, after⟩ := Pool.step_counts leads
  refine ⟨reply, ?_⟩
  rw [after c.key c.now (Int.le_refl _), if_pos rfl]
  refine Option.filter_some_pos ?_
  unfold Keyspace.Entry.lasts at lasts ⊢
  cases ends : e.ends with
  | none => exact decide_eq_true (Int.lt_add_of_pos_right _ (Int.natCast_pos.mpr narrow))
  | some v => rwa [ends] at lasts

/-- Instances that share a keyspace make attempts from `t` on, one after the other, each on the key
of its instant and on none that was counted before. Each is told its number among those
on the key, or, beyond the greatest word, that the counter cannot go up. Each count that is
told is the one that the counters of one instance tell of these attempts, and all of them are
if there are no more than the greatest word. From then on what is found of any key not counted before is told by
the attempts: whatever is found has an end, which is not before that of the window, and the
counter of every attempt is found until its window has ended. Besides, in any keyspace, a
counter that an attempt finds without an end is given one, and one with an end keeps it. -/
theorem attempts_agree (fresh : ∀ c ∈ cs, p.found c.key t = none) (timely : Timely t cs) :
    p.replies cs = (numbers [] cs).map told ∧
      (∀ i n : Nat, (p.replies cs)[i]? = some (Exchange.ended (.ok n)) → (locally .empty cs)[i]? = some n) ∧
      (cs.length ≤ Word.greatest.toNat → p.replies cs = (locally .empty cs).map fun n => Exchange.ended (.ok n)) ∧
      (∀ u, t ≤ u → (∀ c ∈ cs, c.now ≤ u) →
        (∀ k, p.found k t = none → (p.after cs).found k u = (counter? cs k).filter (Keyspace.Entry.lasts · u)) ∧
        (∀ k e, p.found k t = none → (p.after cs).found k u = some e → ∃ v, e.ends = some v ∧ k.stop ≤ v) ∧
        ∀ c ∈ cs, u < c.key.stop → ∃ v, c.key.stop ≤ v ∧ (p.after cs).found c.key u =
          some ⟨toString (min (tally cs c.key) Word.greatest.toNat), some v⟩) ∧
      ∀ (q : Pool) (c : Call) e n, 0 < c.key.width → q.found c.key c.now = some e → e.next? = some n →
        (q.step c).1 = .ended (.ok (Word.unsigned n)) ∧
          (q.step c).2.found c.key c.now = some ⟨toString n, some (e.ends.getD (c.now + c.key.width))⟩ := by
  have start : Holds (fun k => p.found k t = none) p [] t :=
    ⟨fun _ hc => absurd hc List.not_mem_nil, fun _ new _ later => Keyspace.entry?_later new later⟩
  obtain ⟨replies, last⟩ := start.run fresh timely
  have same : locally .empty cs = (numbers [] cs).map (min · Word.top) := locally_eq (fun _ => rfl) cs
  refine ⟨replies, fun i n hi => ?_, fun short => ?_, fun u later made => ?_, fun q c e n => record_found⟩
  · rw [replies, List.getElem?_map, Option.map_eq_some_iff] at hi
    obtain ⟨m, hm, hn⟩ := hi
    obtain ⟨rfl, word⟩ := told_eq_ok hn
    rw [same, List.getElem?_map, hm, Option.map_some, Nat.min_eq_left (Nat.le_trans word (by decide))]
  · rw [replies, same, List.map_map]
    refine List.map_congr_left fun n hn => ?_
    have few : n ≤ Word.greatest.toNat := Nat.le_trans (numbers_le hn) (by simpa using short)
    unfold told
    rw [if_pos few, Function.comp_apply, Nat.min_eq_left (Nat.le_trans few (by decide))]
  · have holds : Holds (fun k => p.found k t = none) (p.after cs) cs u := last u later made
    refine ⟨fun k new => holds.tells k new u (Int.le_refl _), fun k e new he => ?_, fun c hc running => ?_⟩
    · rw [holds.tells k new u (Int.le_refl _)] at he
      obtain ⟨v, rfl, covers⟩ := holds.ends (Option.filter_eq_some_iff.mp he).1
      exact ⟨v, rfl, covers⟩
    · obtain ⟨e, he⟩ := counter?_of_mem hc
      obtain ⟨v, rfl, covers⟩ := holds.ends he
      exact ⟨v, covers, (holds.found_of_lt_stop (fresh c hc) (Int.le_refl _) running).trans he⟩

def threeAttempts : List Call :=
  let key (n : Int) : WindowKey := ⟨"acct", .create, 1000, n⟩
  [⟨0, key 1700000000, 1700000000000, none⟩, ⟨1, key 1700000000, 1700000000400, none⟩,
    ⟨0, key 1700000001, 1700000001000, none⟩]

/-- They are numbered from one, beside a counter that was there before. -/
theorem threeAttempts_agree :
    let old : Keyspace := ⟨Table.empty.insert "paygate:rate_limit:create:acct:1000ms:1699999999" ⟨"7", none⟩⟩
    let pool : Pool := ⟨"paygate:rate_limit", old, fun _ => false⟩
    (∀ c ∈ threeAttempts, pool.found c.key 1700000000000 = none) ∧ Timely 1700000000000 threeAttempts ∧
      threeAttempts.length ≤ Word.greatest.toNat ∧
      pool.replies threeAttempts = [.ended (.ok 1), .ended (.ok 2), .ended (.ok 1)] := by
  intro old pool
  have fresh : ∀ c ∈ threeAttempts, pool.found c.key 1700000000000 = none := by decide +kernel
  have onKey : ∀ n : Int, WindowKey.containing ⟨"acct"⟩ .create (Span.ofSeconds 1) n =
      .ok ⟨"acct", .create, 1000, n / 1000⟩ := fun _ => rfl
  have timely : Timely 1700000000000 threeAttempts :=
    ⟨by decide, by decide, ⟨_, _, _, onKey _⟩, by decide, by decide, ⟨_, _, _, onKey _⟩, by decide, by decide,
      ⟨_, _, _, onKey _⟩, trivial⟩
  have short : threeAttempts.length ≤ Word.greatest.toNat := by decide
  have counts : locally .empty threeAttempts = [1, 2, 1] := by decide +kernel
  obtain ⟨-, -, exact, -⟩ := attempts_agree fresh timely
  refine ⟨fresh, timely, short, (exact short).trans ?_⟩
  rw [counts]
  rfl

end SharedStore

end Gateway
