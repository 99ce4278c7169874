/-
  Gateway.Proofs.Modes — whether the reported mode tells where calls are routed.

  The mode is read off the count and the routing off the mark. Whoever records an outcome
  writes the mark first and the count after it, so calls that overlap can write the two
  cells in different orders.

  Proved, for any number of overlapping operations at instants of the calendar on a store
  that was well, with fewer failures than there are words of 32 bits:
  (1) At every moment the mark is that of a well store exactly if the call that wrote it
      last was no failure, and the count is zero exactly if the call that wrote it last
      was none (`run_cells`).
  (2) So once no operation is half done, the mode is the one that calls are routed by
      unless two calls crossed: one recorded a success and the other a failure, one wrote
      both its cells between the two writes of the other, and nobody has written either
      cell since (`modes_agree_iff`).
  (3) In particular it is if nobody begins to record an outcome while one of the other
      kind is half recorded (`modes_agree_of_apart`).
  Traces: a failure within a success leaves a store that is kept away from and reported
  well (`a_failure_within_a_success_is_hidden`); a success within a failure leaves one
  that is tried and reported degraded (`a_success_within_a_failure_is_hidden`).
-/

import Gateway.Proofs.Overlap

namespace Gateway.Overlap

open Health (Act)

/-! ## Writes -/

def markers (act : CallId → Act) (h : Health) (cs : List CallId) : List CallId := trace act (marks act) (start h) cs

def counters (act : CallId → Act) (h : Health) (cs : List CallId) : List CallId := trace act (counts act) (start h) cs

def LastFails (act : CallId → Act) (cs : List CallId) : Prop := cs.getLast?.any (fun c => (act c).fails) = true

/-- Call `a` has written the mark last and call `b` the count. One recorded a failure and the
other a success, and `a` wrote both cells between the two writes of `b`. -/
structure Crossed (act : CallId → Act) (ms ns : List CallId) (a b : CallId) : Prop where
  marked : ms.getLast? = some a
  counted : ns.getLast? = some b
  opposed : (act a).fails ≠ (act b).fails
  marked_before : [b, a].Sublist ms
  counted_before : [a, b].Sublist ns

variable {act : CallId → Act} {s : State} {c : CallId} {g : Stage} {h : Health} {d : Span} {ms ns : List CallId}

theorem not_lastFails_nil : ¬ LastFails act [] := by
  simp [LastFails]

theorem lastFails_snoc (cs : List CallId) (c : CallId) : LastFails act (cs ++ [c]) ↔ (act c).fails = true := by
  simp [LastFails]

/-! ## Who has written -/

structure Roll (act : CallId → Act) (s : State) (ms ns : List CallId) : Prop where
  marked : ∀ c, c ∈ ms ↔ (act c).records = true ∧ s.stage c ≠ .fresh
  counted : ∀ c, c ∈ ns ↔ (act c).records = true ∧ ∃ r, s.stage c = .ended r

theorem start_roll (h : Health) : Roll act (start h) [] [] := by
  constructor <;> intro c <;> simp [start]

theorem Roll.aside (hr : Roll act s ms ns) (probes : (act c).records = false) : Roll act (s.move c g h) ms ns := by
  constructor
  · intro b
    by_cases e : b = c
    · subst e; rw [hr.marked]; simp [probes]
    · rw [hr.marked, move_ne e]
  · intro b
    by_cases e : b = c
    · subst e; rw [hr.counted]; simp [probes]
    · rw [hr.counted, move_ne e]

theorem Roll.mark (hr : Roll act s ms ns) (records : (act c).records = true) (fresh : s.stage c = .fresh) :
    Roll act (s.move c .halfway h) (ms ++ [c]) ns := by
  constructor
  · intro b
    by_cases e : b = c
    · subst e; simp [records]
    · rw [move_ne e, ← hr.marked]; simp [e]
  · intro b
    by_cases e : b = c
    · subst e; rw [hr.counted]; simp [fresh]
    · rw [hr.counted, move_ne e]

theorem Roll.count (hr : Roll act s ms ns) (records : (act c).records = true) (halfway : s.stage c = .halfway) (r : Reply) :
    Roll act (s.move c (.ended r) h) ms (ns ++ [c]) := by
  constructor
  · intro b
    by_cases e : b = c
    · subst e; rw [hr.marked]; simp [halfway]
    · rw [hr.marked, move_ne e]
  · intro b
    by_cases e : b = c
    · subst e; simp [records]
    · rw [move_ne e, ← hr.counted]; simp [e]

/-! ## (1) What the cells hold -/

structure Cells (act : CallId → Act) (d : Span) (s : State) (ms ns : List CallId) : Prop where
  cooldown : s.health.cooldown = Word.clamp d.millis
  mark : s.health.mark = Health.well ↔ ¬ LastFails act ms
  count : s.health.failures = 0 ↔ ¬ LastFails act ns
  bound : s.health.failures ≤ ns.countP fun c => (act c).fails
  armed : ∀ c m, s.stage c = .contending m → m ≠ Health.well

theorem start_cells (d : Span) : Cells act d (start (Health.start d)) [] [] :=
  ⟨rfl, iff_of_true rfl not_lastFails_nil, iff_of_true rfl not_lastFails_nil, Nat.le_refl 0, fun _ _ w => by cases w⟩

/-- Whoever counts a failure does not make the word wrap. -/
theorem step_cells (hc : Cells act d s ms ns) (hr : Roll act s ms ns) (dated : (act c).InRange)
    (few : (ns ++ (counts act s c).toList).countP (fun c => (act c).fails) < Word.halfSize) :
    Cells act d (step act s c) (ms ++ (marks act s c).toList) (ns ++ (counts act s c).toList) ∧
      Roll act (step act s c) (ms ++ (marks act s c).toList) (ns ++ (counts act s c).toList) := by
  have access := step_access act s c
  generalize step act s c = t, (marks act s c).toList = m, (counts act s c).toList = n at access few ⊢
  cases access with
  | idle =>
    simp only [List.append_nil]
    exact ⟨hc, hr⟩
  | reads now probes fresh g told =>
    have aside : (act c).records = false := by rw [probes]; rfl
    simp only [List.append_nil]
    refine ⟨⟨hc.cooldown, hc.mark, hc.count, hc.bound, contending_move hc.armed fun m hm => ?_⟩, hr.aside aside⟩
    rcases told with ⟨e, -⟩ | ⟨e, -⟩ | ⟨m', e, hread⟩
    · rw [e] at hm; cases hm
    · rw [e] at hm; cases hm
    · rw [e] at hm
      cases hm
      exact (Health.read_eq_contend_iff.mp hread).2.1
  | exchanges now m probes contends =>
    have aside : (act c).records = false := by rw [probes]; rfl
    have inRange : now.InRange := by rw [probes] at dated; exact dated
    have well := Health.exchange_well_iff hc.cooldown inRange (hc.armed c m contends)
    simp only [List.append_nil]
    refine ⟨⟨?_, well.trans hc.mark, ?_, ?_, contending_move hc.armed fun _ w => by cases w⟩, hr.aside aside⟩
    · rw [move_health, Health.exchange_cooldown]; exact hc.cooldown
    · rw [move_health, Health.exchange_failures]; exact hc.count
    · rw [move_health, Health.exchange_failures]; exact hc.bound
  | clearsMark succeeds fresh =>
    have records : (act c).records = true := by rw [succeeds]; rfl
    rw [List.append_nil]
    refine ⟨⟨hc.cooldown, ?_, hc.count, hc.bound, contending_move hc.armed fun _ w => by cases w⟩, hr.mark records fresh⟩
    rw [lastFails_snoc, succeeds]
    exact iff_of_true rfl Bool.false_ne_true
  | clearsCount succeeds halfway =>
    have records : (act c).records = true := by rw [succeeds]; rfl
    rw [List.append_nil]
    refine ⟨⟨hc.cooldown, hc.mark, ?_, Nat.zero_le _, contending_move hc.armed fun _ w => by cases w⟩,
      hr.count records halfway _⟩
    rw [lastFails_snoc, succeeds]
    exact iff_of_true rfl Bool.false_ne_true
  | setsMark now fails fresh =>
    have records : (act c).records = true := by rw [fails]; rfl
    have inRange : now.InRange := by rw [fails] at dated; exact dated
    rw [List.append_nil]
    refine ⟨⟨hc.cooldown, ?_, hc.count, hc.bound, contending_move hc.armed fun _ w => by cases w⟩, hr.mark records fresh⟩
    rw [lastFails_snoc, fails]
    exact iff_of_false (Health.deadline_ne_well hc.cooldown inRange) fun w => w rfl
  | counts now fails halfway =>
    have records : (act c).records = true := by rw [fails]; rfl
    have grown : (ns ++ [c]).countP (fun c => (act c).fails) = ns.countP (fun c => (act c).fails) + 1 := by
      rw [List.countP_append, List.countP_singleton, fails]
      rfl
    have bound : s.health.failures + 1 ≤ (ns ++ [c]).countP fun c => (act c).fails := by
      rw [grown]
      exact Nat.add_le_add_right hc.bound 1
    have counted : s.health.countFailure.2.failures = s.health.failures + 1 :=
      Nat.mod_eq_of_lt (Nat.lt_of_le_of_lt bound few)
    rw [List.append_nil]
    refine ⟨⟨hc.cooldown, hc.mark, ?_, ?_, contending_move hc.armed fun _ w => by cases w⟩, hr.count records halfway _⟩
    · rw [move_health, counted, lastFails_snoc, fails]
      exact iff_of_false (Nat.succ_ne_zero _) fun w => w rfl
    · rw [move_health, counted]
      exact bound

theorem run_cells (d : Span) (cs : List CallId) (dated : ∀ c ∈ cs, (act c).InRange)
    (few : (counters act (Health.start d) cs).countP (fun c => (act c).fails) < Word.halfSize) :
    Cells act d (run act (start (Health.start d)) cs) (markers act (Health.start d) cs) (counters act (Health.start d) cs) ∧
      Roll act (run act (start (Health.start d)) cs) (markers act (Health.start d) cs) (counters act (Health.start d) cs) := by
  induction cs using List.reverseRecOn with
  | nil => exact ⟨start_cells d, start_roll _⟩
  | append_singleton cs c ih =>
    have before : (counters act (Health.start d) cs).countP (fun c => (act c).fails) < Word.halfSize := by
      rw [counters, trace_snoc, List.countP_append] at few
      exact Nat.lt_of_le_of_lt (Nat.le_add_right _ _) few
    obtain ⟨cells, roll⟩ := ih (fun b hb => dated b (List.mem_append_left _ hb)) before
    rw [counters, trace_snoc] at few
    rw [run_snoc, markers, counters, trace_snoc, trace_snoc]
    exact step_cells cells roll (dated c (List.mem_append_right _ (List.mem_singleton.mpr rfl))) few

theorem Cells.reported (hc : Cells act d s ms ns) : s.health.degraded = false ↔ ¬ LastFails act ns := by
  rw [← Bool.not_eq_true, Health.degraded_iff, Nat.pos_iff_ne_zero, not_not]
  exact hc.count

/-! ## (2) When they agree -/

theorem sublist_of_getLast? {l : List CallId} {x y : CallId} (hl : l.getLast? = some y) (hx : x ∈ l) (ne : x ≠ y) :
    [x, y].Sublist l := by
  obtain ⟨l', rfl⟩ := List.getLast?_eq_some_iff.mp hl
  have hx : x ∈ l' := by simpa [ne] using hx
  exact (List.singleton_sublist.mpr hx).append (List.Sublist.refl [y])

/-- Once everybody has ended, the last writers of the two cells are of different kinds only
if they crossed. -/
theorem Roll.crossed (hr : Roll act s ms ns) (settled : Settled s) (differ : ¬ (LastFails act ms ↔ LastFails act ns)) :
    ∃ a b, Crossed act ms ns a b := by
  -- who has written the mark has written the count
  have same : ∀ c, c ∈ ms ↔ c ∈ ns := by
    intro c
    rw [hr.marked, hr.counted]
    refine and_congr_right fun records => ?_
    have hs := settled c
    cases hg : s.stage c with
    | fresh => simp
    | contending m => rw [hg] at hs; cases hs
    | halfway => rw [hg] at hs; cases hs
    | ended r => simp
  cases hm : ms.getLast? with
  | none =>
    have none : ns = [] := List.eq_nil_iff_forall_not_mem.mpr fun c hc => by
      have := (same c).mpr hc
      rw [List.getLast?_eq_none_iff.mp hm] at this
      cases this
    rw [List.getLast?_eq_none_iff.mp hm, none] at differ
    exact absurd Iff.rfl differ
  | some a =>
    have ha : a ∈ ns := (same a).mp (List.mem_of_getLast? hm)
    cases hn : ns.getLast? with
    | none => rw [List.getLast?_eq_none_iff.mp hn] at ha; cases ha
    | some b =>
      have hb : b ∈ ms := (same b).mpr (List.mem_of_getLast? hn)
      have opposed : (act a).fails ≠ (act b).fails := fun e => differ (by simp only [LastFails, hm, hn, Option.any_some, e])
      have ne : a ≠ b := fun e => opposed (by rw [e])
      exact ⟨a, b, hm, hn, opposed, sublist_of_getLast? hm hb ne.symm, sublist_of_getLast? hn ha ne⟩

theorem Crossed.differ {a b : CallId} (hx : Crossed act ms ns a b) : ¬ (LastFails act ms ↔ LastFails act ns) := by
  intro same
  simp only [LastFails, hx.marked, hx.counted, Option.any_some] at same
  exact hx.opposed (Bool.eq_iff_iff.mpr same)

/-- Any number of operations on a store that was well overlap in any way. Once none is half
done, the mode is reported well exactly if the mark lets every call try the store, unless
the calls that wrote the mark and the count last have crossed. -/
theorem modes_agree_iff (d : Span) (act : CallId → Act) (cs : List CallId) (dated : ∀ c ∈ cs, (act c).InRange)
    (few : (counters act (Health.start d) cs).countP (fun c => (act c).fails) < Word.halfSize)
    (settled : Settled (run act (start (Health.start d)) cs)) :
    ((run act (start (Health.start d)) cs).health.degraded = false ↔
        (run act (start (Health.start d)) cs).health.mark = Health.well) ↔
      ¬ ∃ a b, Crossed act (markers act (Health.start d) cs) (counters act (Health.start d) cs) a b := by
  obtain ⟨cells, roll⟩ := run_cells d cs dated few
  rw [cells.reported, cells.mark, not_iff_not]
  constructor
  · intro same w
    obtain ⟨a, b, crossed⟩ := w
    exact crossed.differ same.symm
  · intro apart
    by_contra differ
    exact apart (roll.crossed settled fun same => differ same.symm)

def oneSuccess : CallId → Act := fun c => if c = 0 then .success else .failure 0

def opening : State := start (Health.start (Span.ofMillis 5000))

/-- Call 0 clears the mark, call 1 sets it and counts, and call 0 clears the count. -/
def failureWithin : List CallId := [0, 1, 1, 0]

theorem failureWithin_settled : Settled (run oneSuccess opening failureWithin) := by
  intro c
  rcases c with _ | _ | c
  · decide
  · decide
  · rfl

theorem failureWithin_agree_iff :
    Settled (run oneSuccess opening failureWithin) ∧
      (((run oneSuccess opening failureWithin).health.degraded = false ↔
          (run oneSuccess opening failureWithin).health.mark = Health.well) ↔
        ¬ ∃ a b, Crossed oneSuccess (markers oneSuccess (Health.start (Span.ofMillis 5000)) failureWithin)
          (counters oneSuccess (Health.start (Span.ofMillis 5000)) failureWithin) a b) :=
  ⟨failureWithin_settled, modes_agree_iff (Span.ofMillis 5000) oneSuccess failureWithin (by decide) (by decide)
    failureWithin_settled⟩

/-- The store is reported well, and calls keep away from it until the cool-down is over. -/
theorem a_failure_within_a_success_is_hidden :
    let s := run oneSuccess opening failureWithin
    (∀ c ∈ failureWithin, (oneSuccess c).InRange) ∧
      (counters oneSuccess (Health.start (Span.ofMillis 5000)) failureWithin).countP (fun c => (oneSuccess c).fails) = 1 ∧
      Settled s ∧ s.health.degraded = false ∧ s.health.mark = 5000 ∧
      ¬ (s.health.degraded = false ↔ s.health.mark = Health.well) ∧ (s.health.probe 4999).1 = false :=
  ⟨by decide, by decide, failureWithin_settled, by decide, by decide, by decide, by decide⟩

def successWithin : List CallId := [1, 0, 0, 1]

/-- Every call tries the store, and it is reported degraded. -/
theorem a_success_within_a_failure_is_hidden :
    let s := run oneSuccess opening successWithin
    Settled s ∧ s.health.degraded = true ∧ s.health.mark = Health.well ∧ ∀ now, s.health.probe now = (true, s.health) := by
  intro s
  refine ⟨fun c => ?_, by decide, by decide, Health.probe_well (by decide)⟩
  rcases c with _ | _ | c
  · decide
  · decide
  · rfl

/-! ## (3) Recordings that keep apart -/

/-- Nobody begins to record while an outcome of the other kind is half recorded. -/
def KeepApart (act : CallId → Act) (s : State) : List CallId → Prop
  | [] => True
  | c :: cs => ((act c).records = true → s.stage c = .fresh → ∀ b, s.stage b = .halfway → (act b).fails = (act c).fails) ∧
      KeepApart act (step act s c) cs

/-- Whatever is half recorded is of the kind of the last marker, and when nothing is, the last
writers of both cells are of one kind. -/
structure OneKind (act : CallId → Act) (s : State) (ms ns : List CallId) : Prop where
  halfway : ∀ c, s.stage c = .halfway → (LastFails act ms ↔ (act c).fails = true)
  whole : (∀ c, s.stage c ≠ .halfway) → (LastFails act ms ↔ LastFails act ns)

theorem OneKind.aside (ho : OneKind act s ms ns) (was : s.stage c ≠ .halfway) (is : g ≠ .halfway) :
    OneKind act (s.move c g h) ms ns := by
  have same : ∀ b, (s.move c g h).stage b = .halfway ↔ s.stage b = .halfway := by
    intro b
    by_cases e : b = c
    · subst e; rw [move_self]; exact iff_of_false is was
    · rw [move_ne e]
  constructor
  · intro b hb
    exact ho.halfway b ((same b).mp hb)
  · intro none
    exact ho.whole fun b hb => none b ((same b).mpr hb)

theorem OneKind.mark (alike : ∀ b, s.stage b = .halfway → (act b).fails = (act c).fails) :
    OneKind act (s.move c .halfway h) (ms ++ [c]) ns := by
  constructor
  · intro b hb
    rw [lastFails_snoc]
    by_cases e : b = c
    · rw [e]
    · rw [move_ne e] at hb
      rw [alike b hb]
  · intro none
    exact absurd (move_self ..) (none c)

theorem OneKind.count (ho : OneKind act s ms ns) (halfway : s.stage c = .halfway) (r : Reply) :
    OneKind act (s.move c (.ended r) h) ms (ns ++ [c]) := by
  constructor
  · intro b hb
    by_cases e : b = c
    · subst e; rw [move_self] at hb; cases hb
    · rw [move_ne e] at hb
      exact ho.halfway b hb
  · intro _
    rw [lastFails_snoc]
    exact ho.halfway c halfway

theorem step_oneKind (ho : OneKind act s ms ns)
    (alike : (act c).records = true → s.stage c = .fresh → ∀ b, s.stage b = .halfway → (act b).fails = (act c).fails) :
    OneKind act (step act s c) (ms ++ (marks act s c).toList) (ns ++ (counts act s c).toList) := by
  have access := step_access act s c
  generalize step act s c = t, (marks act s c).toList = m, (counts act s c).toList = n at access ⊢
  cases access with
  | idle =>
    simp only [List.append_nil]
    exact ho
  | reads now probes fresh g told =>
    simp only [List.append_nil]
    refine ho.aside (by rw [fresh]; exact Stage.noConfusion) ?_
    rcases told with ⟨e, -⟩ | ⟨e, -⟩ | ⟨m, e, -⟩ <;> rw [e] <;> exact Stage.noConfusion
  | exchanges now m probes contends =>
    simp only [List.append_nil]
    exact ho.aside (by rw [contends]; exact Stage.noConfusion) Stage.noConfusion
  | clearsMark succeeds fresh =>
    rw [List.append_nil]
    exact .mark (alike (by rw [succeeds]; rfl) fresh)
  | clearsCount succeeds halfway =>
    rw [List.append_nil]
    exact ho.count halfway _
  | setsMark now fails fresh =>
    rw [List.append_nil]
    exact .mark (alike (by rw [fails]; rfl) fresh)
  | counts now fails halfway =>
    rw [List.append_nil]
    exact ho.count halfway _

theorem run_oneKind (ho : OneKind act s ms ns) (cs : List CallId) (apart : KeepApart act s cs) :
    OneKind act (run act s cs) (ms ++ trace act (marks act) s cs) (ns ++ trace act (counts act) s cs) := by
  induction cs generalizing s ms ns with
  | nil =>
    rw [trace, trace, List.append_nil, List.append_nil]
    exact ho
  | cons c cs ih =>
    rw [run_cons, trace, trace, ← List.append_assoc, ← List.append_assoc]
    exact ih (step_oneKind ho apart.1) apart.2

/-- While outcomes of one kind are recorded, none of the other kind begins to be: then the mode
is the one that calls are routed by whenever no operation is half done. -/
theorem modes_agree_of_apart (d : Span) (act : CallId → Act) (cs : List CallId) (dated : ∀ c ∈ cs, (act c).InRange)
    (few : (counters act (Health.start d) cs).countP (fun c => (act c).fails) < Word.halfSize)
    (settled : Settled (run act (start (Health.start d)) cs)) (apart : KeepApart act (start (Health.start d)) cs) :
    (run act (start (Health.start d)) cs).health.degraded = false ↔
      (run act (start (Health.start d)) cs).health.mark = Health.well := by
  obtain ⟨cells, -⟩ := run_cells d cs dated few
  have fresh : OneKind act (start (Health.start d)) [] [] := ⟨fun _ w => (Stage.noConfusion w), fun _ => Iff.rfl⟩
  have whole := (run_oneKind fresh cs apart).whole fun c w => by
    have half := settled c
    rw [w] at half
    cases half
  rw [cells.reported, cells.mark]
  exact not_congr whole.symm

end Gateway.Overlap
