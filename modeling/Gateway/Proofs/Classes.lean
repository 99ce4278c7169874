/-
  Gateway.Proofs.Classes — the class of a request and the place that answers it.

  The class is read off the segments of the path that are not empty (`Place.steps`). The place
  is found with the empty ones (`Place.ofPath?_eq_some`), and it names the class that is meant
  (`Place.operation`): a collection is searched and every other place read, and a change is of
  the class of the one step after the identifier, if that step is an act. The two readings part
  where an identifier is empty, for the step that follows is then taken for it (`Place.Misread`).

  Proved (`class_of_steps`):
  - The class depends only on whether the method reads and on the steps, so an empty segment
    changes nothing wherever it stands.
  - A method that reads has one of the two classes that read, every other method one of the
    other four.
  - The class of a path that names a place is the one that is meant exactly if the request is
    not misread.
  Trace: a payment with an empty identifier is cancelled on the budget for creations
  (`an_empty_id_is_passed_over`).
-/

import Gateway.Proofs.Texts
import Gateway.Place

namespace Gateway

variable {path path' method method' id part s : String} {l before after : List String} {p : Place}

/-! ## Steps -/

namespace Place

/-- The segments of a path that are not empty. -/
def steps (path : String) : List String := (segments path).filter fun s => !s.isEmpty

theorem segments_ne_nil : segments path ≠ [] := by
  intro none
  have none := List.map_eq_nil_iff.mp none
  rw [Text.splitAt_eq_splitOn] at none
  exact List.splitOn_ne_nil _ _ none

theorem not_mem_of_mem_segments (h : s ∈ segments path) : '/' ∉ s.toList := by
  obtain ⟨m, inside, rfl⟩ := List.mem_map.mp h
  rw [String.toList_ofList]
  exact Text.not_mem_of_mem_splitAt inside

theorem segments_intercalate (ne : l ≠ []) (whole : ∀ s ∈ l, '/' ∉ s.toList) : segments ("/".intercalate l) = l := by
  have whole : ∀ m ∈ l.map String.toList, '/' ∉ m := by
    rintro m inside
    obtain ⟨s, hs, rfl⟩ := List.mem_map.mp inside
    exact whole s hs
  rw [segments, String.toList_intercalate]
  have cut := Text.splitAt_intercalate whole (mt List.map_eq_nil_iff.mp ne)
  rw [show "/".toList = ['/'] from rfl, cut, Text.map_ofList_toList]

theorem intercalate_segments : "/".intercalate (segments path) = path := by
  apply String.toList_inj.mp
  rw [String.toList_intercalate, segments, Text.map_toList_ofList]
  exact Text.intercalate_splitAt

theorem steps_append (a b : String) : steps (a ++ "/" ++ b) = steps a ++ steps b := by
  have joined : (a ++ "/" ++ b).toList = a.toList ++ '/' :: b.toList := by
    rw [String.toList_append, String.toList_append, List.append_assoc]
    rfl
  unfold steps segments
  rw [joined, Text.splitAt_append, List.map_append, List.filter_append]

theorem steps_intercalate : steps ("/".intercalate l) = l.flatMap steps := by
  induction l with
  | nil => rfl
  | cons s l ih =>
    cases l with
    | nil => rw [String.intercalate_singleton, List.flatMap_singleton]
    | cons t l =>
      rw [String.intercalate_cons_cons, steps_append, ih]
      rfl

/-- An empty segment is no step. -/
theorem steps_insert : steps ("/".intercalate (before ++ "" :: after)) = steps ("/".intercalate (before ++ after)) := by
  have none : steps "" = [] := rfl
  rw [steps_intercalate, steps_intercalate, List.flatMap_append, List.flatMap_cons, none, List.nil_append,
    List.flatMap_append]

/-! ## Places -/

def parts : Place → List String
  | payments => ["", "v1", "payments"]
  | payment id => ["", "v1", "payments", id]
  | paymentPart id part => "" :: "v1" :: "payments" :: id :: segments part
  | refunds => ["", "v1", "refunds"]
  | agreements => ["", "v1", "agreements"]
  | agreement id => ["", "v1", "agreements", id]
  | agreementCancel id => ["", "v1", "agreements", id, "cancel"]
  | health => ["", "healthcheck"]

def Ends : Place → Prop
  | payment id => id ≠ ""
  | paymentPart _ part => part ≠ ""
  | agreement id => id ≠ ""
  | _ => True

theorem ofPath?_eq_some : ofPath? path = some p ↔ segments path = p.parts ∧ p.Ends := by
  constructor
  · -- The part below a payment was joined from segments, so its own segments are those.
    intro named
    have whole : ∀ s ∈ segments path, '/' ∉ s.toList := fun s => not_mem_of_mem_segments
    unfold ofPath? at named
    split at named
    case h_4 id rest more found =>
      have below : segments ("/".intercalate rest) = rest := by
        refine segments_intercalate more fun s hs => whole s ?_
        rw [found]
        simp [hs]
      obtain ⟨ne, rfl⟩ : "/".intercalate rest ≠ "" ∧ paymentPart id ("/".intercalate rest) = p := by
        simpa using named
      exact ⟨by rw [found, parts, below], ne⟩
    case h_3 id found =>
      obtain ⟨ne, rfl⟩ : id ≠ "" ∧ payment id = p := by simpa using named
      exact ⟨found, ne⟩
    case h_7 id found =>
      obtain ⟨ne, rfl⟩ : id ≠ "" ∧ agreement id = p := by simpa using named
      exact ⟨found, ne⟩
    case h_9 => exact absurd named (by simp)
    all_goals
      obtain rfl := Option.some.inj named
      exact ⟨‹_›, trivial⟩
  · rintro ⟨found, ends⟩
    unfold ofPath?
    rw [found]
    cases p with
    | paymentPart id part =>
      have back : "/".intercalate (segments part) = part := intercalate_segments
      cases rest : segments part with
      | nil => exact absurd rest segments_ne_nil
      | cons s l =>
        rw [rest] at back
        have ne : part ≠ "" := ends
        simp [parts, rest, back, ne]
    | payment id =>
      have ne : id ≠ "" := ends
      simp [parts, ne]
    | agreement id =>
      have ne : id ≠ "" := ends
      simp [parts, ne]
    | _ => rfl

theorem steps_of_named (named : ofPath? path = some p) : steps path = p.parts.filter fun s => !s.isEmpty := by
  rw [steps, (ofPath?_eq_some.mp named).1]

end Place

/-! ## Classes -/

namespace Operation

def collections : List (List String) := [["v1", "payments"], ["v1", "refunds"], ["v1", "agreements"]]

def ofAct : List String → Operation
  | ["cancel"] => .cancel
  | ["capture"] => .capture
  | ["refunds"] => .refund
  | _ => .create

def acts : List String := ["cancel", "capture", "refunds"]

theorem ofAct_eq_create : ofAct l = .create ↔ ∀ act ∈ acts, l ≠ [act] := by
  unfold ofAct
  split
  all_goals simp_all [acts]

/-- One step more changes the class exactly if an act stands alone or behind that step. -/
theorem ofAct_tail : ofAct (s :: l) = ofAct l ↔ ¬ ∃ act ∈ acts, s :: l = [act] ∨ ∃ t, s :: l = [t, act] := by
  rcases l with _ | ⟨t, _ | ⟨u, l⟩⟩
  · have none : ofAct [] = .create := rfl
    rw [none, ofAct_eq_create]
    simpa using List.forall_mem_ne
  · have two : ofAct [s, t] = .create := ofAct_eq_create.mpr fun act _ => by simp
    rw [two, eq_comm, ofAct_eq_create]
    simpa using List.forall_mem_ne
  · have more : ∀ v, ofAct (v :: t :: u :: l) = .create := fun v => ofAct_eq_create.mpr fun act _ => by simp
    have two : ofAct (t :: u :: l) = .create := ofAct_eq_create.mpr fun act _ => by simp
    rw [more, two]
    simp

theorem ofRequest_reading (reads : reading method = true) :
    ofRequest method path = if Place.steps path ∈ collections then .search else .read := by
  unfold ofRequest Place.steps
  rw [if_pos reads]
  split
  all_goals simp_all [collections]

theorem ofRequest_payment (writes : reading method = false) (found : Place.steps path = "v1" :: "payments" :: id :: l) :
    ofRequest method path = ofAct l := by
  unfold Place.steps at found
  unfold ofRequest
  rw [found, writes]
  rcases l with _ | ⟨w, _ | ⟨x, l⟩⟩
  · rfl
  · by_cases known : w ∈ acts
    · simp only [acts, List.mem_cons, List.not_mem_nil, or_false] at known
      obtain rfl | rfl | rfl := known
      all_goals rfl
    · simp only [acts, List.mem_cons, List.not_mem_nil, or_false, not_or] at known
      simp [ofAct, known]
  · simp [ofAct]

theorem ofRequest_agreement (writes : reading method = false)
    (found : Place.steps path = "v1" :: "agreements" :: id :: l) :
    ofRequest method path = if l = ["cancel"] then .cancel else .create := by
  unfold Place.steps at found
  unfold ofRequest
  rw [found, writes]
  rcases l with _ | ⟨w, _ | ⟨x, l⟩⟩
  · rfl
  · by_cases here : w = "cancel"
    all_goals simp [here]
  · simp

theorem ofRequest_short (writes : reading method = false) (short : (Place.steps path).length < 4) :
    ofRequest method path = .create := by
  unfold Place.steps at short
  unfold ofRequest
  rw [if_neg (by rw [writes]; exact Bool.false_ne_true)]
  split
  case h_5 => rfl
  all_goals
    rename_i found
    rw [found] at short
    exact absurd short (Nat.lt_irrefl 4)

end Operation

namespace Place

def toRead : Place → Operation
  | payments => .search
  | refunds => .search
  | agreements => .search
  | _ => .read

def toWrite : Place → Operation
  | paymentPart _ part => .ofAct (steps part)
  | agreementCancel _ => .cancel
  | _ => .create

def operation (p : Place) (method : String) : Operation := if reading method then p.toRead else p.toWrite

/-- The identifier is empty and the class is another without it: the step that follows is taken for
the identifier. -/
def Misread (method : String) : Place → Prop
  | paymentPart id part =>
    id = "" ∧ if reading method then steps part = []
      else ∃ act ∈ Operation.acts, steps part = [act] ∨ ∃ s, steps part = [s, act]
  | agreementCancel id => id = "" ∧ reading method = false
  | _ => False

theorem steps_part_of_ne (named : ofPath? path = some (.paymentPart id part)) (ne : id ≠ "") :
    steps path = "v1" :: "payments" :: id :: steps part := by
  rw [steps_of_named named]
  simp [parts, steps, ne]

theorem steps_part_of_empty (named : ofPath? path = some (.paymentPart "" part)) :
    steps path = "v1" :: "payments" :: steps part := by
  rw [steps_of_named named]
  rfl

theorem read_agrees (named : ofPath? path = some p) (reads : reading method = true) :
    Operation.ofRequest method path = p.toRead ↔ ¬ p.Misread method := by
  rw [Operation.ofRequest_reading reads]
  cases p with
  | paymentPart id part =>
    by_cases empty : id = ""
    · subst empty
      rw [steps_part_of_empty named]
      simp [Operation.collections, toRead, Misread, reads]
    · rw [steps_part_of_ne named empty]
      simp [Operation.collections, toRead, Misread, empty]
  | _ =>
    have found := steps_of_named named
    have ends := (ofPath?_eq_some.mp named).2
    simp_all [parts, Ends, Operation.collections, toRead, Misread]

theorem write_agrees (named : ofPath? path = some p) (writes : reading method = false) :
    Operation.ofRequest method path = p.toWrite ↔ ¬ p.Misread method := by
  cases p with
  | paymentPart id part =>
    by_cases empty : id = ""
    · subst empty
      have found := steps_part_of_empty named
      rcases rest : steps part with _ | ⟨s, l⟩
      · rw [rest] at found
        rw [Operation.ofRequest_short writes (by rw [found]; decide)]
        simp [toWrite, rest, Misread, Operation.ofAct, writes]
      · -- The first step of the part is taken for the identifier, so the class is that of the others.
        rw [rest] at found
        rw [Operation.ofRequest_payment writes found, toWrite, rest, eq_comm, Operation.ofAct_tail, ← rest]
        simp [Misread, writes]
    · rw [Operation.ofRequest_payment writes (steps_part_of_ne named empty)]
      simp [toWrite, Misread, empty]
  | agreementCancel id =>
    have found := steps_of_named named
    by_cases empty : id = ""
    · subst empty
      rw [Operation.ofRequest_short writes (by rw [found]; decide)]
      simp [toWrite, Misread, writes]
    · have found : steps path = ["v1", "agreements", id, "cancel"] := by
        rw [found]
        simp [parts, empty]
      rw [Operation.ofRequest_agreement writes found]
      simp [toWrite, Misread, empty]
  | _ =>
    have found := steps_of_named named
    have ends := (ofPath?_eq_some.mp named).2
    rw [Operation.ofRequest_short writes (by rw [found]; simp_all [parts, Ends])]
    simp [toWrite, Misread]

theorem operation_eq_iff (named : ofPath? path = some p) :
    Operation.ofRequest method path = p.operation method ↔ ¬ p.Misread method := by
  unfold operation
  by_cases reads : reading method = true
  · rw [if_pos reads]
    exact read_agrees named reads
  · rw [if_neg reads]
    exact write_agrees named (Bool.eq_false_iff.mpr reads)

end Place

/-! ## Agreement -/

theorem reading_iff : reading method = true ↔ method ∈ ["GET", "HEAD", "OPTIONS"] := List.contains_iff_mem

theorem Operation.ofRequest_congr (reads : reading method = reading method')
    (same : Place.steps path = Place.steps path') : ofRequest method path = ofRequest method' path' := by
  unfold Place.steps at same
  unfold ofRequest
  rw [reads, same]

theorem Operation.ofRequest_mem :
    ofRequest method path ∈ if reading method then [.read, .search] else [.create, .cancel, .capture, .refund] := by
  by_cases reads : reading method = true
  · rw [if_pos reads, ofRequest_reading reads]
    split
    all_goals decide
  · rw [if_neg reads]
    unfold ofRequest
    rw [if_neg reads]
    split
    all_goals decide

/-- The class of a request depends on whether it reads and on the steps of its path, and it is the one
that the place asks for unless an empty identifier is passed over. -/
theorem class_of_steps (method path : String) :
    (∀ method' path', (method ∈ ["GET", "HEAD", "OPTIONS"] ↔ method' ∈ ["GET", "HEAD", "OPTIONS"]) →
      Place.steps path = Place.steps path' → Operation.ofRequest method path = Operation.ofRequest method' path') ∧
    (∀ before after, Operation.ofRequest method ("/".intercalate (before ++ "" :: after)) =
      Operation.ofRequest method ("/".intercalate (before ++ after))) ∧
    Operation.ofRequest method path ∈
      (if method ∈ ["GET", "HEAD", "OPTIONS"] then [.read, .search] else [.create, .cancel, .capture, .refund]) ∧
    ∀ p, Place.ofPath? path = some p →
      (Operation.ofRequest method path = p.operation method ↔ ¬ p.Misread method) := by
  refine ⟨?_, ?_, ?_, ?_⟩
  · intro method' path' reads same
    rw [← reading_iff, ← reading_iff, ← Bool.eq_iff_iff] at reads
    exact Operation.ofRequest_congr reads same
  · intro before after
    exact Operation.ofRequest_congr rfl Place.steps_insert
  · simp only [← reading_iff]
    exact Operation.ofRequest_mem
  · intro p named
    exact Place.operation_eq_iff named

/-- The payment is called like an act, and slashes stand around the act. -/
theorem refunds_of_cancel :
    Operation.ofRequest "PUT" "//v1/payments/pay/" = Operation.ofRequest "POST" "/v1//payments/pay" ∧
    Place.ofPath? "/v1/payments/cancel//refunds/" = some (.paymentPart "cancel" "/refunds/") ∧
    Operation.ofRequest "POST" "/v1/payments/cancel//refunds/" = .refund := by
  obtain ⟨steps, -⟩ := class_of_steps "PUT" "//v1/payments/pay/"
  obtain ⟨-, -, -, place⟩ := class_of_steps "POST" "/v1/payments/cancel//refunds/"
  have named : Place.ofPath? "/v1/payments/cancel//refunds/" = some (.paymentPart "cancel" "/refunds/") := by decide
  have heard : ¬ (Place.paymentPart "cancel" "/refunds/").Misread "POST" := fun misread => absurd misread.1 (by decide)
  exact ⟨steps "POST" _ (by decide) (by decide), named, (place _ named).mpr heard⟩

theorem an_empty_id_is_passed_over :
    Place.ofPath? "/v1/payments//cancel" = some (.paymentPart "" "cancel") ∧
    (Place.paymentPart "" "cancel").serves "POST" = true ∧ (Place.paymentPart "" "cancel").controlled = true ∧
    Place.steps "cancel" = ["cancel"] ∧ Operation.ofRequest "POST" "/v1/payments//cancel" = .create := by
  decide

end Gateway
