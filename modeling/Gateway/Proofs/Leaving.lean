/-
  Gateway.Proofs.Leaving — callers of one credential that leave their flights in two steps.

  A caller joins the flight of the credential, takes turns, and goes when it has the
  outcome or gives up. It then tests whether it is the last (`Flights.test`), and only
  after that lets go (`Flights.release`). The steps of all callers interleave freely; an
  event that does not apply changes nothing. Done at once, the two steps are
  `Flights.leave` (`test_then_release`).

  Proved:
  (1) Whoever has not tested yet is on the flight that stands in the map (`Inv.stands`),
      and the holders of a flight are exactly the callers between joining and letting go.
  (2) Once all callers are through, a flight is left in the map exactly if the last test
      was made while another caller of that flight stood between its own test and its
      letting go (`left_iff_clashed`).
  Trace: two callers that both test before either lets go leave their flight behind, and
  a later caller is handed its outcome (`a_clash_leaves_the_flight`).
-/

import Mathlib.Logic.Function.Basic
import Gateway.Proofs.FlightLaws

namespace Gateway.Leaving

inductive Whereabouts where
  | ashore
  | aboard (f : FlightId)
  /-- Has the outcome or gave up. -/
  | leaving (f : FlightId)
  | tested (f : FlightId)
  | gone
  deriving DecidableEq, Repr

structure State where
  flights : Flights
  whereabouts : CallId → Whereabouts

def start : State := ⟨Flights.empty, fun _ => .ashore⟩

inductive Event where
  | join (c : CallId)
  /-- Takes the turn to look up, or queues for it. -/
  | claim (c : CallId)
  /-- Whoever has the turn comes to an outcome. -/
  | settle (c : CallId) (o : Outcome)
  | obtain (c : CallId)
  | cancel (c : CallId)
  | test (c : CallId)
  | release (c : CallId)
  deriving Repr

def move (s : State) (c : CallId) (w : Whereabouts) (fl : Flights) : State :=
  ⟨fl, Function.update s.whereabouts c w⟩

variable (k : Credential)

def step (s : State) : Event → State
  | .join c => match s.whereabouts c with
    | .ashore => move s c (.aboard (s.flights.join k c).1) (s.flights.join k c).2
    | _ => s
  | .claim c => match s.whereabouts c with
    | .aboard f => { s with flights := s.flights.claim f c }
    | _ => s
  | .settle c o => match s.whereabouts c with
    | .aboard f => if s.flights.hasTurn f c then move s c (.leaving f) (s.flights.settle f o) else s
    | _ => s
  | .obtain c => match s.whereabouts c with
    | .aboard f => if (s.flights.flight f).outcome.isSome then move s c (.leaving f) s.flights else s
    | _ => s
  | .cancel c => match s.whereabouts c with
    | .aboard f => move s c (.leaving f) (s.flights.withdraw f c)
    | _ => s
  | .test c => match s.whereabouts c with
    | .leaving f => move s c (.tested f) (s.flights.test k f)
    | _ => s
  | .release c => match s.whereabouts c with
    | .tested f => move s c .gone (s.flights.release f c)
    | _ => s

def run (s : State) (es : List Event) : State := es.foldl (step k) s

def Through (s : State) : Prop := ∀ c, s.whereabouts c = .ashore ∨ s.whereabouts c = .gone

theorem test_then_release (s : State) (c : CallId) (f : FlightId) (h : s.whereabouts c = .leaving f) :
    (run k s [.test c, .release c]).flights = s.flights.leave k f c := by
  simp [run, step, h, move, Flights.leave]

/-! ## (1) Who holds what -/

def Untested (s : State) (c : CallId) (f : FlightId) : Prop :=
  s.whereabouts c = .aboard f ∨ s.whereabouts c = .leaving f

def Holds (s : State) (c : CallId) (f : FlightId) : Prop := Untested s c f ∨ s.whereabouts c = .tested f

structure Inv (s : State) : Prop where
  held : ∀ f c, c ∈ (s.flights.flight f).holders ↔ Holds s c f
  once : ∀ f, (s.flights.flight f).holders.Nodup
  stands : ∀ c f, Untested s c f → s.flights.current.get? k = some f
  known : ∀ c f, Holds s c f → f < s.flights.next
  numbered : ∀ f, s.flights.current.get? k = some f → f < s.flights.next

theorem start_inv : Inv k start := by
  refine ⟨fun f c => ?_, fun f => ?_, ?_, ?_, ?_⟩
  · have : (start.flights.flight f).holders = [] := rfl
    rw [this]
    simp [Holds, Untested, start]
  · exact List.nodup_nil
  · intro c f h
    rcases h with h | h <;> cases h
  · intro c f h
    rcases h with (h | h) | h <;> cases h
  · intro f h
    cases h

variable {k}

theorem untested_move_ne {s : State} {c d : CallId} {w : Whereabouts} {fl : Flights} (h : d ≠ c) (f : FlightId) :
    Untested (move s c w fl) d f ↔ Untested s d f := by
  simp [Untested, move, Function.update_of_ne h]

theorem holds_move_ne {s : State} {c d : CallId} {w : Whereabouts} {fl : Flights} (h : d ≠ c) (f : FlightId) :
    Holds (move s c w fl) d f ↔ Holds s d f := by
  simp only [Holds, untested_move_ne h]
  simp [move, Function.update_of_ne h]

theorem untested_move_self {s : State} {c : CallId} {w : Whereabouts} {fl : Flights} (f : FlightId) :
    Untested (move s c w fl) c f ↔ w = .aboard f ∨ w = .leaving f := by
  simp [Untested, move]

theorem holds_move_self {s : State} {c : CallId} {w : Whereabouts} {fl : Flights} (f : FlightId) :
    Holds (move s c w fl) c f ↔ (w = .aboard f ∨ w = .leaving f) ∨ w = .tested f := by
  simp only [Holds, untested_move_self]
  simp [move]

/-- A caller that only goes on aboard or turns to leave keeps every hold. -/
theorem same_inv {s t : State} (hi : Inv k s) (hs : Flights.SameHold s.flights t.flights)
    (hu : ∀ c f, Untested t c f ↔ Untested s c f) (hh : ∀ c f, Holds t c f ↔ Holds s c f) : Inv k t := by
  refine ⟨fun f c => ?_, fun f => ?_, fun c f h => ?_, fun c f h => ?_, fun f h => ?_⟩
  · rw [hs.holders, hh]; exact hi.held f c
  · rw [hs.holders]; exact hi.once f
  · rw [hs.current]; exact hi.stands c f ((hu c f).mp h)
  · rw [hs.next]; exact hi.known c f ((hh c f).mp h)
  · rw [hs.next]; rw [hs.current] at h; exact hi.numbered f h

theorem turn_to_leave {s : State} {c : CallId} {f : FlightId} {fl : Flights} (h : s.whereabouts c = .aboard f) :
    (∀ d g, Untested (move s c (.leaving f) fl) d g ↔ Untested s d g) ∧
      ∀ d g, Holds (move s c (.leaving f) fl) d g ↔ Holds s d g := by
  refine ⟨fun d g => ?_, fun d g => ?_⟩
  · by_cases e : d = c
    · subst e; rw [untested_move_self]; simp [Untested, h]
    · exact untested_move_ne e g
  · by_cases e : d = c
    · subst e; rw [holds_move_self]; simp [Holds, Untested, h]
    · exact holds_move_ne e g

/-- Nobody holds a flight whose number is not given out yet. -/
theorem next_unheld {s : State} (hi : Inv k s) : (s.flights.flight s.flights.next).holders = [] := by
  refine List.eq_nil_iff_forall_not_mem.mpr fun c hc => ?_
  exact absurd (hi.known c _ ((hi.held _ c).mp hc)) (Nat.lt_irrefl _)

theorem join_inv {s : State} (hi : Inv k s) {c : CallId} (hc : s.whereabouts c = .ashore) :
    Inv k (move s c (.aboard (s.flights.join k c).1) (s.flights.join k c).2) := by
  have free : ∀ f, c ∉ (s.flights.flight f).holders := fun f h => by
    rcases (hi.held f c).mp h with (h | h) | h <;> simp [hc] at h
  have known := Flights.take_known hi.numbered
  refine ⟨fun f d => ?_, fun f => ?_, fun d f h => ?_, fun d f h => ?_, fun f h => ?_⟩
  · show d ∈ ((s.flights.join k c).2.flight f).holders ↔ _
    rw [Flights.mem_join_holders (next_unheld hi), hi.held]
    by_cases e : d = c
    · subst e
      rw [holds_move_self]
      simp [Holds, Untested, hc, eq_comm]
    · rw [holds_move_ne e]
      simp [e]
  · exact Flights.nodup_join_holders (next_unheld hi) k (hi.once f) (free f)
  · show (s.flights.join k c).2.current.get? k = some f
    rw [Flights.join_current]
    by_cases e : d = c
    · subst e
      rw [untested_move_self] at h
      simpa using h
    · rw [Flights.join_stays c (hi.stands d f ((untested_move_ne e f).mp h))]
  · show f < (s.flights.take k).2.next
    by_cases e : d = c
    · subst e
      rw [holds_move_self] at h
      have : (s.flights.join k d).1 = f := by simpa using h
      rw [← this]; exact known.1
    · exact Nat.lt_of_lt_of_le (hi.known d f ((holds_move_ne e f).mp h)) known.2
  · have h : (s.flights.join k c).2.current.get? k = some f := h
    rw [Flights.join_current] at h
    show f < (s.flights.take k).2.next
    rw [← Option.some.inj h]; exact known.1

theorem test_inv {s : State} (hi : Inv k s) {c : CallId} {f : FlightId} (hc : s.whereabouts c = .leaving f) :
    Inv k (move s c (.tested f) (s.flights.test k f)) := by
  have holds : ∀ d g, Holds (move s c (.tested f) (s.flights.test k f)) d g ↔ Holds s d g := by
    intro d g
    by_cases e : d = c
    · subst e; rw [holds_move_self]; simp [Holds, Untested, hc]
    · exact holds_move_ne e g
  have keeps : ∀ g, (s.flights.test k f).current.get? k = some g → s.flights.current.get? k = some g := by
    intro g h
    rw [Flights.test_current] at h
    split at h
    · simp [Table.get?_erase] at h
    · exact h
  refine ⟨fun g d => ?_, fun g => ?_, fun d g h => ?_, fun d g h => ?_, fun g h => ?_⟩
  · show d ∈ ((s.flights.test k f).flight g).holders ↔ _
    rw [Flights.test_flight, holds]; exact hi.held g d
  · show ((s.flights.test k f).flight g).holders.Nodup
    rw [Flights.test_flight]; exact hi.once g
  · by_cases e : d = c
    · subst e; rw [untested_move_self] at h; simp at h
    · rw [untested_move_ne e] at h
      have hg : g = f := Option.some.inj ((hi.stands d g h).symm.trans (hi.stands c f (Or.inr hc)))
      subst hg
      show (s.flights.test k g).current.get? k = some g
      rw [Flights.test_current, if_neg]
      · exact hi.stands d g h
      · -- two callers hold the flight, so the test finds it held
        intro w
        obtain ⟨-, hl⟩ := w
        have hd := (hi.held g d).mpr (Or.inl h)
        have hc := (hi.held g c).mpr (Or.inl (Or.inr hc))
        exact e ((Flights.alone_iff (hi.once g) hc).mp hl d hd)
  · show g < (s.flights.test k f).next
    rw [Flights.test_next]; exact hi.known d g ((holds d g).mp h)
  · show g < (s.flights.test k f).next
    rw [Flights.test_next]; exact hi.numbered g (keeps g h)

theorem release_inv {s : State} (hi : Inv k s) {c : CallId} {f : FlightId} (hc : s.whereabouts c = .tested f) :
    Inv k (move s c .gone (s.flights.release f c)) := by
  refine ⟨fun g d => ?_, fun g => ?_, fun d g h => ?_, fun d g h => ?_, fun g h => hi.numbered g h⟩
  · show d ∈ ((s.flights.release f c).flight g).holders ↔ _
    rw [Flights.mem_release_holders (hi.once g), hi.held]
    by_cases e : d = c
    · subst e
      rw [holds_move_self]
      simp [Holds, Untested, hc, eq_comm]
    · rw [holds_move_ne e]
      simp [e]
  · exact Flights.nodup_release_holders (hi.once g) f c
  · by_cases e : d = c
    · subst e; rw [untested_move_self] at h; simp at h
    · exact hi.stands d g ((untested_move_ne e g).mp h)
  · by_cases e : d = c
    · subst e; rw [holds_move_self] at h; simp at h
    · exact hi.known d g ((holds_move_ne e g).mp h)

theorem step_inv {s : State} (hi : Inv k s) (e : Event) : Inv k (step k s e) := by
  cases e with
  | join c =>
    simp only [step]
    split
    · exact join_inv hi ‹_›
    · exact hi
  | claim c =>
    simp only [step]
    split
    · exact same_inv hi (Flights.claim_same _ _ _) (fun _ _ => Iff.rfl) fun _ _ => Iff.rfl
    · exact hi
  | settle c o =>
    simp only [step]
    split
    · rename_i h
      split
      · exact same_inv hi (Flights.settle_same _ _ _) (turn_to_leave h).1 (turn_to_leave h).2
      · exact hi
    · exact hi
  | obtain c =>
    simp only [step]
    split
    · rename_i h
      split
      · exact same_inv hi ⟨fun _ => rfl, rfl, rfl⟩ (turn_to_leave h).1 (turn_to_leave h).2
      · exact hi
    · exact hi
  | cancel c =>
    simp only [step]
    split
    · rename_i h
      exact same_inv hi (Flights.withdraw_same _ _ _) (turn_to_leave h).1 (turn_to_leave h).2
    · exact hi
  | test c =>
    simp only [step]
    split
    · exact test_inv hi ‹_›
    · exact hi
  | release c =>
    simp only [step]
    split
    · exact release_inv hi ‹_›
    · exact hi

/-! ## (2) What is left when all are through -/

/-- Another caller of the flight has tested and not let go. -/
def Overtaken (s : State) (c : CallId) (f : FlightId) : Prop := ∃ d, d ≠ c ∧ s.whereabouts d = .tested f

/-- The last test of the run was made while another caller of that flight stood between
its own test and its letting go; `b` says so of what came before. -/
def Clashed (k : Credential) (s : State) (b : Prop) : List Event → Prop
  | [] => b
  | .test c :: es => match s.whereabouts c with
    | .leaving f => Clashed k (step k s (.test c)) (Overtaken s c f) es
    | _ => Clashed k (step k s (.test c)) b es
  | e :: es => Clashed k (step k s e) b es

/-- A flight stands exactly if somebody has yet to test or the last test clashed. -/
def Stands (k : Credential) (s : State) (b : Prop) : Prop :=
  (∃ f, s.flights.current.get? k = some f) ↔ (∃ c f, Untested s c f) ∨ b

theorem start_stands : Stands k start False := by
  constructor
  · intro w
    obtain ⟨f, h⟩ := w
    cases h
  · intro w
    rcases w with ⟨c, f, h | h⟩ | h
    · cases h
    · cases h
    · exact h.elim

theorem same_stands {s t : State} {b : Prop} (h : Stands k s b) (hc : t.flights.current = s.flights.current)
    (hu : ∀ c f, Untested t c f ↔ Untested s c f) : Stands k t b := by
  simp only [Stands, hc, hu]
  exact h

theorem join_stands {s : State} {b : Prop} (c : CallId) :
    Stands k (move s c (.aboard (s.flights.join k c).1) (s.flights.join k c).2) b := by
  refine iff_of_true ⟨_, Flights.join_current _ _ _⟩ (Or.inl ⟨c, (s.flights.join k c).1, ?_⟩)
  rw [untested_move_self]
  exact Or.inl rfl

theorem test_stands {s : State} (hi : Inv k s) {c : CallId} {f : FlightId} (hc : s.whereabouts c = .leaving f) :
    Stands k (move s c (.tested f) (s.flights.test k f)) (Overtaken s c f) := by
  have hf := hi.stands c f (Or.inr hc)
  have hm := (hi.held f c).mpr (Or.inl (Or.inr hc))
  -- whoever else holds the flight has tested or has yet to
  have others : (∃ d, d ≠ c ∧ d ∈ (s.flights.flight f).holders) ↔
      (∃ d g, Untested (move s c (.tested f) (s.flights.test k f)) d g) ∨ Overtaken s c f := by
    constructor
    · intro w
      obtain ⟨d, hd, hh⟩ := w
      rcases (hi.held f d).mp hh with h | h
      · exact Or.inl ⟨d, f, (untested_move_ne hd f).mpr h⟩
      · exact Or.inr ⟨d, hd, h⟩
    · intro w
      rcases w with ⟨d, g, h⟩ | ⟨d, hd, h⟩
      · by_cases e : d = c
        · subst e; rw [untested_move_self] at h; simp at h
        · have h := (untested_move_ne e g).mp h
          have hg : g = f := Option.some.inj ((hi.stands d g h).symm.trans hf)
          exact ⟨d, e, (hi.held f d).mpr (Or.inl (hg ▸ h))⟩
      · exact ⟨d, hd, (hi.held f d).mpr (Or.inr h)⟩
  unfold Stands
  rw [← others]
  show (∃ g, (s.flights.test k f).current.get? k = some g) ↔ _
  rw [Flights.test_current]
  have alone := Flights.alone_iff (hi.once f) hm
  by_cases hl : (s.flights.flight f).holders.length ≤ 1
  · rw [if_pos ⟨hf, hl⟩]
    exact iff_of_false (fun ⟨g, h⟩ => by simp [Table.get?_erase] at h) fun ⟨d, hd, h⟩ => hd (alone.mp hl d h)
  · rw [if_neg fun h => hl h.2]
    refine iff_of_true ⟨f, hf⟩ ?_
    by_contra none
    exact hl (alone.mpr fun d hd => by_contra fun e => none ⟨d, e, hd⟩)

theorem run_stands {s : State} {b : Prop} (es : List Event) (hi : Inv k s) (hb : Stands k s b) :
    Stands k (run k s es) (Clashed k s b es) := by
  induction es generalizing s b with
  | nil => exact hb
  | cons e es ih =>
    have hi' := step_inv hi e
    cases e with
    | join c =>
      refine ih hi' ?_
      simp only [step]
      split
      · exact join_stands c
      · exact hb
    | claim c =>
      refine ih hi' ?_
      simp only [step]
      split
      · exact hb
      · exact hb
    | settle c o =>
      refine ih hi' ?_
      simp only [step]
      split
      · split
        · exact same_stands hb rfl (turn_to_leave ‹_›).1
        · exact hb
      · exact hb
    | obtain c =>
      refine ih hi' ?_
      simp only [step]
      split
      · split
        · exact same_stands hb rfl (turn_to_leave ‹_›).1
        · exact hb
      · exact hb
    | cancel c =>
      refine ih hi' ?_
      simp only [step]
      split
      · exact same_stands hb rfl (turn_to_leave ‹_›).1
      · exact hb
    | test c =>
      show Stands k (run k (step k s (.test c)) es) _
      simp only [Clashed]
      split
      · rename_i f hc
        refine ih hi' ?_
        simp only [step, hc]
        exact test_stands hi hc
      · refine ih hi' ?_
        simp only [step]
        exact hb
    | release c =>
      refine ih hi' ?_
      simp only [step]
      split
      · rename_i f hc
        refine same_stands hb rfl fun d g => ?_
        by_cases e : d = c
        · subst e; rw [untested_move_self]; simp [Untested, hc]
        · exact untested_move_ne e g
      · exact hb

/-- Once every caller is through, a flight of the credential is left in the map exactly
if the last test was made while another caller of that flight stood between its own test
and its letting go. -/
theorem left_iff_clashed (k : Credential) (es : List Event) (h : Through (run k start es)) :
    (∃ f, (run k start es).flights.current.get? k = some f) ↔ Clashed k start False es := by
  have hs := run_stands es (start_inv k) start_stands
  refine hs.trans (or_iff_right ?_)
  intro w
  rcases w with ⟨c, f, hu | hu⟩ <;> rcases h c with e | e <;> rw [e] at hu <;> cases hu

/-! ## Two that leave at once -/

/-- Callers 0 and 1 share a lookup that is refused. Both test before either lets go. -/
def clash : List Event :=
  [.join 0, .claim 0, .join 1, .settle 0 (.rejected "credential is not recognised"), .obtain 1,
    .test 0, .test 1, .release 0, .release 1]

theorem clash_through : Through (run ⟨"t"⟩ start clash) := by
  intro c
  rcases c with _ | _ | c
  · exact Or.inr (by decide)
  · exact Or.inr (by decide)
  · exact Or.inl rfl

/-- Each finds the other holding the flight, so it is left in the map. -/
theorem clash_leaves_iff : Through (run ⟨"t"⟩ start clash) ∧
    ((∃ f, (run ⟨"t"⟩ start clash).flights.current.get? ⟨"t"⟩ = some f) ↔ Clashed ⟨"t"⟩ start False clash) :=
  ⟨clash_through, left_iff_clashed ⟨"t"⟩ clash clash_through⟩

/-- The flight that they leave has no holder any more, and caller 2, who comes when both
have gone, is put on it and handed the refusal. -/
theorem a_clash_leaves_the_flight :
    Through (run ⟨"t"⟩ start clash) ∧ (run ⟨"t"⟩ start clash).flights.current.get? ⟨"t"⟩ = some 0 ∧
      ((run ⟨"t"⟩ start clash).flights.flight 0).holders = [] ∧
      let later := run ⟨"t"⟩ start (clash ++ [.join 2])
      later.whereabouts 2 = .aboard 0 ∧
        (later.flights.flight 0).outcome = some (.rejected "credential is not recognised") :=
  ⟨clash_through, by decide, by decide, by decide, by decide⟩

end Gateway.Leaving
