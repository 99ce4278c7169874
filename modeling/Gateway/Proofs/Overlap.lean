/-
  Gateway.Proofs.Overlap — operations on the health of the shared store that overlap.

  An operation touches one cell at a time. A success clears the mark and then the count;
  a failure sets the mark and then counts; a probe reads the mark and, if its time has
  come, tries to move it. Each of any number of calls makes one operation, and their
  single accesses interleave freely: a schedule names the call that makes its next
  access. A call that has ended makes none. With no other access between its two, a call
  does what the operation does at once (`undisturbed`).

  What a step can do is said once (`step_access`); `trace` collects what is told of the
  steps of a run.
-/

import Mathlib.Logic.Function.Basic
import Gateway.Flights
import Gateway.Proofs.Streaks

namespace Gateway.Overlap

open Health (Act)

inductive Reply where
  | tries (b : Bool)
  | recovers (b : Bool)
  | failures (n : Nat)
  deriving DecidableEq, Repr

inductive Stage where
  | fresh
  /-- Has read this mark, whose time has come. -/
  | contending (mark : Int)
  /-- Has written the mark and not yet the count. -/
  | halfway
  | ended (r : Reply)
  deriving DecidableEq, Repr

structure State where
  health : Health
  stage : CallId → Stage

def start (h : Health) : State := ⟨h, fun _ => .fresh⟩

def State.move (s : State) (c : CallId) (g : Stage) (h : Health) : State := ⟨h, Function.update s.stage c g⟩

def Stage.half : Stage → Bool
  | .contending _ => true
  | .halfway => true
  | _ => false

/-- No operation is half done. -/
def Settled (s : State) : Prop := ∀ c, (s.stage c).half = false

variable (act : CallId → Act)

def step (s : State) (c : CallId) : State :=
  match act c, s.stage c with
  | .probe now, .fresh => match s.health.read now with
    | .free => s.move c (.ended (.tries true)) s.health
    | .skip => s.move c (.ended (.tries false)) s.health
    | .contend m => s.move c (.contending m) s.health
  | .probe now, .contending m =>
    s.move c (.ended (.tries (s.health.exchange m now).1)) (s.health.exchange m now).2
  | .success, .fresh => s.move c .halfway s.health.clearMark
  | .success, .halfway => s.move c (.ended (.recovers s.health.clearFailures.1)) s.health.clearFailures.2
  | .failure now, .fresh => s.move c .halfway (s.health.setMark now)
  | .failure _, .halfway => s.move c (.ended (.failures s.health.countFailure.1)) s.health.countFailure.2
  | _, _ => s

def run (s : State) (cs : List CallId) : State := cs.foldl (step act) s

/-- The steps of a run of which `f` tells something, and what it tells. -/
def trace {α : Type} (f : State → CallId → Option α) (s : State) : List CallId → List α
  | [] => []
  | c :: cs => (f s c).toList ++ trace f (step act s c) cs

variable {act} {s : State} {c d : CallId} {g : Stage} {h : Health}

@[simp] theorem move_health (s : State) (c : CallId) (g : Stage) (h : Health) : (s.move c g h).health = h := rfl

@[simp] theorem move_self (s : State) (c : CallId) (g : Stage) (h : Health) : (s.move c g h).stage c = g :=
  Function.update_self ..

theorem move_ne (hd : d ≠ c) : (s.move c g h).stage d = s.stage d := Function.update_of_ne hd ..

/-- What holds of every mark that a call contends for. -/
theorem contending_move {P : CallId → Int → Prop} (hs : ∀ c m, s.stage c = .contending m → P c m)
    (hg : ∀ m, g = .contending m → P c m) (b : CallId) (m : Int) (hb : (s.move c g h).stage b = .contending m) :
    P b m := by
  by_cases e : b = c
  · subst e
    rw [move_self] at hb
    exact hg m hb
  · rw [move_ne e] at hb
    exact hs b m hb

theorem run_cons (s : State) (c : CallId) (cs : List CallId) : run act s (c :: cs) = run act (step act s c) cs := rfl

theorem run_snoc (s : State) (cs : List CallId) (c : CallId) :
    run act s (cs ++ [c]) = step act (run act s cs) c := List.foldl_append

theorem trace_snoc {α : Type} (f : State → CallId → Option α) (s : State) (cs : List CallId) (c : CallId) :
    trace act f s (cs ++ [c]) = trace act f s cs ++ (f (run act s cs) c).toList := by
  induction cs generalizing s with
  | nil => exact List.append_nil _
  | cons b cs ih => rw [List.cons_append, trace, ih, trace, List.append_assoc]; rfl

/-- What is told is told of a step of the schedule. -/
theorem mem_trace {α : Type} {f : State → CallId → Option α} {s : State} {cs : List CallId} {x : α}
    (hx : x ∈ trace act f s cs) : ∃ c ∈ cs, ∃ t, f t c = some x := by
  induction cs generalizing s with
  | nil => cases hx
  | cons c cs ih =>
    rcases List.mem_append.mp hx with hx | hx
    · exact ⟨c, List.mem_cons_self, s, Option.mem_toList.mp hx⟩
    · obtain ⟨b, hb, told⟩ := ih hx
      exact ⟨b, List.mem_cons_of_mem _ hb, told⟩

/-! ## What a step can do -/

def marks (act : CallId → Act) (s : State) (c : CallId) : Option CallId :=
  if (act c).records = true ∧ s.stage c = .fresh then some c else none

def counts (act : CallId → Act) (s : State) (c : CallId) : Option CallId :=
  if (act c).records = true ∧ s.stage c = .halfway then some c else none

/-- All that a step of `c` can do, with one case for each access to a cell; the lists are
those who write the mark and the count. -/
inductive Access (act : CallId → Act) (s : State) (c : CallId) : State → List CallId → List CallId → Prop where
  | idle (probed : (act c).records = false → ∀ m, s.stage c ≠ .contending m) : Access act s c s [] []
  | reads (now : Instant) (probes : act c = .probe now) (fresh : s.stage c = .fresh) (g : Stage)
      (told : g = .ended (.tries true) ∧ s.health.read now = .free ∨
        g = .ended (.tries false) ∧ s.health.read now = .skip ∨
        ∃ m, g = .contending m ∧ s.health.read now = .contend m) : Access act s c (s.move c g s.health) [] []
  | exchanges (now : Instant) (m : Int) (probes : act c = .probe now) (contends : s.stage c = .contending m) :
      Access act s c (s.move c (.ended (.tries (s.health.exchange m now).1)) (s.health.exchange m now).2) [] []
  | clearsMark (succeeds : act c = .success) (fresh : s.stage c = .fresh) :
      Access act s c (s.move c .halfway s.health.clearMark) [c] []
  | clearsCount (succeeds : act c = .success) (halfway : s.stage c = .halfway) :
      Access act s c (s.move c (.ended (.recovers s.health.clearFailures.1)) s.health.clearFailures.2) [] [c]
  | setsMark (now : Instant) (fails : act c = .failure now) (fresh : s.stage c = .fresh) :
      Access act s c (s.move c .halfway (s.health.setMark now)) [c] []
  | counts (now : Instant) (fails : act c = .failure now) (halfway : s.stage c = .halfway) :
      Access act s c (s.move c (.ended (.failures s.health.countFailure.1)) s.health.countFailure.2) [] [c]

theorem step_access (act : CallId → Act) (s : State) (c : CallId) :
    Access act s c (step act s c) (marks act s c).toList (counts act s c).toList := by
  cases hs : s.stage c with
  | fresh =>
    have uncounted : counts act s c = none := by simp [counts, hs]
    rw [uncounted]
    cases ha : act c with
    | probe now =>
      have unmarked : marks act s c = none := by simp [marks, ha, Act.records]
      rw [unmarked]
      simp only [step, ha, hs]
      cases hr : s.health.read now with
      | free => exact .reads now ha hs _ (Or.inl ⟨rfl, hr⟩)
      | skip => exact .reads now ha hs _ (Or.inr (Or.inl ⟨rfl, hr⟩))
      | contend m => exact .reads now ha hs _ (Or.inr (Or.inr ⟨m, rfl, hr⟩))
    | success =>
      have marked : marks act s c = some c := by simp [marks, ha, hs, Act.records]
      simp only [marked, step, ha, hs]
      exact .clearsMark ha hs
    | failure now =>
      have marked : marks act s c = some c := by simp [marks, ha, hs, Act.records]
      simp only [marked, step, ha, hs]
      exact .setsMark now ha hs
  | contending m =>
    have aside : marks act s c = none ∧ counts act s c = none := by simp [marks, counts, hs]
    rw [aside.1, aside.2]
    cases ha : act c with
    | probe now =>
      simp only [step, ha, hs]
      exact .exchanges now m ha hs
    | success =>
      simp only [step, ha, hs]
      exact .idle (by simp [ha, Act.records])
    | failure now =>
      simp only [step, ha, hs]
      exact .idle (by simp [ha, Act.records])
  | halfway =>
    have unmarked : marks act s c = none := by simp [marks, hs]
    rw [unmarked]
    cases ha : act c with
    | probe now =>
      have uncounted : counts act s c = none := by simp [counts, ha, Act.records]
      simp only [uncounted, step, ha, hs]
      exact .idle fun _ m => by simp [hs]
    | success =>
      have counted : counts act s c = some c := by simp [counts, ha, hs, Act.records]
      simp only [counted, step, ha, hs]
      exact .clearsCount ha hs
    | failure now =>
      have counted : counts act s c = some c := by simp [counts, ha, hs, Act.records]
      simp only [counted, step, ha, hs]
      exact .counts now ha hs
  | ended r =>
    have aside : marks act s c = none ∧ counts act s c = none := by simp [marks, counts, hs]
    have stays : step act s c = s := by
      unfold step
      rw [hs]
      cases act c <;> rfl
    rw [aside.1, aside.2, stays]
    exact .idle fun _ m => by simp [hs]

/-! ## One operation at a time -/

def reply (h : Health) : Act → Reply
  | .probe now => .tries (h.probe now).1
  | .success => .recovers h.succeeded.1
  | .failure now => .failures (h.failed now).1

theorem undisturbed (fresh : s.stage c = .fresh) :
    run act s [c, c] = s.move c (.ended (reply s.health (act c))) (s.health.apply (act c)) := by
  have again : ∀ g h g' h', (s.move c g h).move c g' h' = s.move c g' h' := fun g h g' h' =>
    congrArg (State.mk h') (Function.update_idem ..)
  show step act (step act s c) c = _
  cases ha : act c with
  | probe now =>
    cases hr : s.health.read now with
    | free => simp [step, ha, fresh, hr, reply, Health.apply, Health.probe]
    | skip => simp [step, ha, fresh, hr, reply, Health.apply, Health.probe]
    | contend m => simp [step, ha, fresh, hr, reply, Health.apply, Health.probe, again]
  | success => simp [step, ha, fresh, reply, Health.apply, Health.succeeded, again]
  | failure now => simp [step, ha, fresh, reply, Health.apply, Health.failed, again]

end Gateway.Overlap
