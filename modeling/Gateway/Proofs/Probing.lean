/-
  Gateway.Proofs.Probing — which calls try a store that is kept away from.

  Any number of calls ask whether to try the store, at instants in any order, and nobody
  records an outcome. A call whose time has come tries to move the mark that it has read
  on to its own instant plus the cool-down. As the cool-down is not empty the mark only
  grows, so a mark that was left never comes back, and whoever has read it has lost.

  Proved, for every state of the cells:
  (1) The calls that move the mark take turns: each moves what the one before it has set,
      and comes when its time is over (`run_relay`).
  (2) So each mark is moved by one call at most, those calls come at least a cool-down
      apart, and no two of them at one instant; if the mark was set to begin with, they
      are the calls that try the store (`probes_exclusive`).
-/

import Gateway.Proofs.Overlap

namespace Gateway

namespace Overlap

open Health (Act)

/-! ## Moves of the mark -/

/-- A call that has moved the mark, and what it has moved it from. -/
structure Win where
  call : CallId
  mark : Int
  deriving DecidableEq, Repr

def asks (date : CallId → Instant) : CallId → Act := fun c => .probe (date c)

def wins (s : State) (c : CallId) : Option Win :=
  match s.stage c with
  | .contending m => if s.health.mark = m then some ⟨c, m⟩ else none
  | _ => none

def winners (date : CallId → Instant) (h : Health) (cs : List CallId) : List Win :=
  trace (asks date) wins (start h) cs

def Tries (s : State) (c : CallId) : Prop := s.stage c = .ended (.tries true)

variable {date : CallId → Instant} {h : Health} {s : State} {c : CallId} {cs : List CallId} {g : Stage}
  {m : Int} {v w : Win} {ws : List Win}

theorem wins_call (hw : wins s c = some w) : w.call = c := by
  unfold wins at hw
  split at hw
  · split at hw
    · cases hw; rfl
    · cases hw
  · cases hw

theorem winners_call (hw : w ∈ trace (asks date) wins s cs) : w.call ∈ cs := by
  obtain ⟨c, hc, t, told⟩ := mem_trace hw
  rw [wins_call told]
  exact hc

theorem tries_move (s : State) (c b : CallId) (g : Stage) (h : Health) :
    Tries (s.move c g h) b ↔ if b = c then g = .ended (.tries true) else Tries s b := by
  unfold Tries
  by_cases e : b = c
  · subst e; rw [move_self, if_pos rfl]
  · rw [move_ne e, if_neg e]

/-! ## (1) Turns -/

/-- Whoever contends has come when the time of the mark that it has read was over. -/
def Due (date : CallId → Instant) (s : State) : Prop := ∀ c m, s.stage c = .contending m → m ≤ date c

theorem start_due (h : Health) : Due date (start h) := fun _ _ w => by cases w

/-- A step moves the mark on to the caller's deadline and sends the caller to the store, or it
leaves the mark; then it sends nobody there if the mark is set. -/
inductive Turn (date : CallId → Instant) (s : State) (c : CallId) (t : State) : Prop where
  | lost (none : wins s c = none) (health : t.health = s.health)
      (tries : s.health.mark ≠ Health.well → ∀ b, Tries t b ↔ Tries s b)
  | won (moves : wins s c = some ⟨c, s.health.mark⟩) (due : s.health.mark ≤ date c)
      (health : t.health = { s.health with mark := s.health.deadline (date c) })
      (tries : ∀ b, Tries t b ↔ b = c ∨ Tries s b)

theorem wins_eq_none (hs : ∀ m, s.stage c ≠ .contending m) : wins s c = none := by
  unfold wins
  split
  · exact absurd ‹_› (hs _)
  · rfl

theorem tries_aside (was : ¬ Tries s c) (is : g ≠ .ended (.tries true)) (b : CallId) :
    Tries (s.move c g h) b ↔ Tries s b := by
  rw [tries_move]
  by_cases e : b = c
  · subst e; rw [if_pos rfl]; exact iff_of_false is was
  · rw [if_neg e]

theorem step_turn (hd : Due date s) (c : CallId) :
    Turn date s c (step (asks date) s c) ∧ Due date (step (asks date) s c) := by
  have access := step_access (asks date) s c
  generalize step (asks date) s c = t, (marks (asks date) s c).toList = ms,
    (counts (asks date) s c).toList = ns at access ⊢
  cases access with
  | idle probed => exact ⟨.lost (wins_eq_none (probed rfl)) rfl fun _ _ => Iff.rfl, hd⟩
  | reads now probes fresh g told =>
    cases probes
    have idle : ¬ Tries s c := by unfold Tries; rw [fresh]; exact Stage.noConfusion
    have quiet : wins s c = none := wins_eq_none fun m => by rw [fresh]; exact Stage.noConfusion
    constructor
    · refine .lost quiet rfl fun armed => tries_aside idle ?_
      rintro rfl
      rcases told with ⟨-, free⟩ | ⟨e, -⟩ | ⟨m, e, -⟩
      · exact armed (Health.read_eq_free_iff.mp free)
      · cases e
      · cases e
    · refine contending_move hd ?_
      rintro m rfl
      rcases told with ⟨e, -⟩ | ⟨e, -⟩ | ⟨m, e, contends⟩
      · cases e
      · cases e
      · cases e
        exact (Health.read_eq_contend_iff.mp contends).2.2
  | exchanges now m probes contends =>
    cases probes
    have idle : ¬ Tries s c := by unfold Tries; rw [contends]; exact Stage.noConfusion
    refine ⟨?_, contending_move hd fun _ w => by cases w⟩
    by_cases same : s.health.mark = m
    · subst same
      have moved : s.health.exchange s.health.mark (date c) =
          (true, { s.health with mark := s.health.deadline (date c) }) := if_pos rfl
      rw [moved]
      refine .won ?_ (hd c _ contends) rfl fun b => ?_
      · simp only [wins, contends, if_true]
      · rw [tries_move]
        by_cases e : b = c <;> simp [e]
    · have kept : s.health.exchange m (date c) = (false, s.health) := if_neg same
      rw [kept]
      refine .lost ?_ rfl fun _ => tries_aside idle (by simp)
      simp only [wins, contends, if_neg same]
  | clearsMark succeeds => cases succeeds
  | clearsCount succeeds => cases succeeds
  | setsMark now fails => cases fails
  | counts now fails => cases fails

/-- Each of these calls has moved the mark that the one before it has set, and came when its
time was over; the first has moved `m`. -/
def Relay (date : CallId → Instant) (h : Health) : Int → List Win → Prop
  | _, [] => True
  | m, w :: ws => w.mark = m ∧ m ≤ date w.call ∧ Relay date h (h.deadline (date w.call)) ws

/-- The induction is on the schedule; `h` gives the cool-down, and a mark that is set stays set. -/
theorem run_relay (hd : Due date s) (hc : s.health.cooldown = h.cooldown) (cools : 0 < h.cooldown)
    (dated : ∀ c ∈ cs, (date c).InRange) :
    Relay date h s.health.mark (trace (asks date) wins s cs) ∧
      (s.health.mark ≠ Health.well →
        ∀ b, Tries (run (asks date) s cs) b ↔ Tries s b ∨ ∃ w ∈ trace (asks date) wins s cs, w.call = b) := by
  induction cs generalizing s with
  | nil => exact ⟨trivial, fun _ b => by simp [trace, run]⟩
  | cons c cs ih =>
    obtain ⟨turn, due'⟩ := step_turn hd c
    have rest := fun hc => ih due' hc fun b hb => dated b (List.mem_cons_of_mem _ hb)
    have inRange := dated c List.mem_cons_self
    rw [run_cons, trace]
    cases turn with
    | lost none health tries =>
      obtain ⟨relay, told⟩ := rest (by rw [health]; exact hc)
      rw [health] at relay told
      rw [none, Option.toList_none, List.nil_append]
      exact ⟨relay, fun armed b => by rw [told armed, tries armed]⟩
    | won moves due health tries =>
      obtain ⟨relay, told⟩ := rest (by rw [health]; exact hc)
      have deadline : s.health.deadline (date c) = h.deadline (date c) := by unfold Health.deadline; rw [hc]
      have armed : h.deadline (date c) ≠ Health.well :=
        Int.ne_of_gt (Int.lt_trans (Health.least_lt_of_inRange inRange) (Health.lt_deadline cools inRange))
      rw [health, deadline] at relay told
      rw [moves, Option.toList_some, List.singleton_append]
      refine ⟨⟨rfl, due, relay⟩, fun _ b => ?_⟩
      rw [told armed, tries]
      simp only [List.mem_cons, exists_eq_or_imp]
      tauto

/-! ## (2) Those who move the mark -/

theorem Relay.due (hr : Relay date h m ws) (hw : w ∈ ws) : w.mark ≤ date w.call := by
  induction ws generalizing m with
  | nil => cases hw
  | cons v ws ih =>
    obtain ⟨moved, due, rest⟩ := hr
    rcases List.mem_cons.mp hw with rfl | hw
    · rw [moved]; exact due
    · exact ih rest hw

/-- Marks only grow. -/
theorem Relay.le (hr : Relay date h m ws) (cools : 0 < h.cooldown) (dated : ∀ w ∈ ws, (date w.call).InRange)
    (hw : w ∈ ws) : m ≤ w.mark := by
  induction ws generalizing m with
  | nil => cases hw
  | cons v ws ih =>
    obtain ⟨moved, due, rest⟩ := hr
    rcases List.mem_cons.mp hw with rfl | hw
    · exact Int.le_of_eq moved.symm
    · calc m ≤ date v.call := due
        _ ≤ h.deadline (date v.call) := Int.le_of_lt (Health.lt_deadline cools (dated v List.mem_cons_self))
        _ ≤ w.mark := ih rest (fun u hu => dated u (List.mem_cons_of_mem _ hu)) hw

theorem Relay.pairwise (hr : Relay date h m ws) (cools : 0 < h.cooldown) (dated : ∀ w ∈ ws, (date w.call).InRange) :
    ws.Pairwise fun v w => v.mark < w.mark ∧ date v.call < date w.call := by
  induction ws generalizing m with
  | nil => exact .nil
  | cons v ws ih =>
    have due := hr.due List.mem_cons_self
    obtain ⟨-, -, rest⟩ := hr
    have tail : ∀ w ∈ ws, (date w.call).InRange := fun w hw => dated w (List.mem_cons_of_mem _ hw)
    refine .cons (fun w hw => ?_) (ih rest tail)
    have later : date v.call < w.mark :=
      Int.lt_of_lt_of_le (Health.lt_deadline cools (dated v List.mem_cons_self)) (rest.le cools tail hw)
    exact ⟨Int.lt_of_le_of_lt due later, Int.lt_of_lt_of_le later (rest.due hw)⟩

theorem Relay.isChain (hr : Relay date h m ws) :
    ws.IsChain fun v w => w.mark = h.deadline (date v.call) ∧ h.deadline (date v.call) ≤ date w.call := by
  induction ws generalizing m with
  | nil => exact .nil
  | cons v ws ih =>
    obtain ⟨-, -, rest⟩ := hr
    cases ws with
    | nil => exact .singleton v
    | cons w ws => exact .cons_cons ⟨rest.1, rest.2.1⟩ (ih rest)

structure Exclusive (date : CallId → Instant) (h : Health) (cs : List CallId) : Prop where
  once : ((winners date h cs).map Win.mark).Nodup
  first : ∀ w, (winners date h cs).head? = some w → w.mark = h.mark ∧ h.mark ≤ date w.call
  later : (winners date h cs).IsChain fun v w => w.mark = Word.clamp (date v.call + h.cooldown) ∧
    Word.clamp (date v.call + h.cooldown) ≤ date w.call
  apart : ∀ v ∈ winners date h cs, ∀ w ∈ winners date h cs, date v.call = date w.call → v = w
  /-- Nobody else tries a store whose mark is set. -/
  tries : h.mark ≠ Health.well →
    ∀ c, Tries (run (asks date) (start h) cs) c ↔ ∃ w ∈ winners date h cs, w.call = c

/-- Calls at any instants of the calendar ask, in any interleaving, whether to try the store.
Each value of the mark is moved by one call at most. The first call that moves it comes
when the time that it was set to is over, and each later one when the cool-down since the
one before it is over; so no two of them come at one instant. Exactly these calls try a
store whose mark is set. -/
theorem probes_exclusive (h : Health) (date : CallId → Instant) (cs : List CallId) (cools : 0 < h.cooldown)
    (dated : ∀ c ∈ cs, (date c).InRange) : Exclusive date h cs := by
  obtain ⟨relay, told⟩ := run_relay (start_due h) rfl cools dated
  have inRange : ∀ w ∈ winners date h cs, (date w.call).InRange := fun w hw => dated _ (winners_call hw)
  have ordered := relay.pairwise cools inRange
  refine ⟨?_, fun w hw => ?_, relay.isChain, fun v hv w hw same => ?_, fun armed c => ?_⟩
  · exact List.pairwise_map.mpr (ordered.imp fun o => Int.ne_of_lt o.1)
  · obtain ⟨ws, hws⟩ := List.head?_eq_some_iff.mp hw
    rw [winners] at hws
    rw [hws] at relay
    exact ⟨relay.1, relay.2.1⟩
  · -- of two calls in the list, whichever is first, one comes later
    refine List.Pairwise.forall_of_forall_of_flip (R := fun v w => date v.call = date w.call → v = w)
      (fun _ _ _ => rfl) (ordered.imp fun o same => ?_) (ordered.imp fun o same => ?_) hv hw same
    · exact absurd same (Int.ne_of_lt o.2)
    · exact absurd same.symm (Int.ne_of_lt o.2)
  · exact (told armed c).trans (or_iff_right Stage.noConfusion)

def rivals : CallId → Instant
  | 0 => 5000
  | 1 => 5000
  | 2 => 12000
  | _ => 11000

def fallen : Health := ((Health.start (Span.ofMillis 5000)).failed 0).2

theorem rivals_exclusive :
    fallen.degraded = true ∧ fallen.mark ≠ Health.well ∧
      winners rivals fallen [0, 1, 1, 0, 2, 3, 2, 3] = [⟨1, 5000⟩, ⟨2, 10000⟩] ∧
      Exclusive rivals fallen [0, 1, 1, 0, 2, 3, 2, 3] :=
  ⟨by decide, by decide, by decide, probes_exclusive fallen rivals [0, 1, 1, 0, 2, 3, 2, 3] (by decide) (by decide)⟩

end Overlap

end Gateway
