/-
  Gateway.Proofs.Records — authorizations read back from their records.

  What a JSON value is the record of is said without reading it (`Records`): an object with
  the account and the payment type once each, the service name at most once and any other
  fields, or an array of the three; the account is any text, a payment type is its name or
  an object of its name and null, and a service name may be missing or null.

  An authorization that is written is an object of texts and nulls, so reading it gives
  this object back, whatever characters the texts have, and the object records the
  authorization (`ofWritten?_written`). All else follows: writing what a text was read as
  gives a text that is read, and written, as before.

  Proved:
  - `ofJson?_eq_some`: a value is read as the authorization that it records, and as no other.
  - `records_round_trip`: what is written is read back; of all the texts of an
    authorization one is canonical, and it is the canonical text of itself.
-/

import Gateway.Record
import Gateway.Proofs.Answers
import Gateway.Proofs.Quotes

namespace Gateway.Authorization

/-! ## Records -/

inductive Parts : Json → Json → Json → Option Json → Prop where
  | object {fields : List (Option String × Json)} {account tokenType : Json} {service : Option Json} :
      (∀ f ∈ fields, f.1 ≠ none) → Json.Field "account_id" fields (some account) →
      Json.Field "token_payment_type" fields (some tokenType) → Json.Field "service_name" fields service →
      Parts (.object fields) account tokenType service
  | array {account tokenType service : Json} :
      Parts (.array [account, tokenType, service]) account tokenType (some service)

inductive IsTokenType : Json → TokenType → Prop where
  | name (t : TokenType) : IsTokenType (.string (some t.name)) t
  | keyed (t : TokenType) : IsTokenType (.object [(some t.name, .null)]) t

inductive IsService : Option Json → Option String → Prop where
  | missing : IsService none none
  | null : IsService (some .null) none
  | text (s : String) : IsService (some (.string (some s))) (some s)

def Records (j : Json) (a : Authorization) : Prop :=
  ∃ tokenType service, Parts j (.string (some a.account.text)) tokenType service ∧
    IsTokenType tokenType a.tokenType ∧ IsService service a.service

def canonical (s : String) : Option String := (ofWritten? s).map written

variable {j account tokenType : Json} {service : Option Json} {a : Authorization} {t : TokenType} {s : String}

/-! ## Reading them -/

theorem ofName?_eq_some : TokenType.ofName? s = some t ↔ s = t.name := by
  constructor
  · intro h
    have named := List.find?_some h
    simpa using (decide_eq_true_iff.mp named).symm
  · rintro rfl
    cases t <;> rfl

theorem tokenType_eq_some : TokenType.ofJson? tokenType = some t ↔ IsTokenType tokenType t := by
  constructor
  · intro h
    unfold TokenType.ofJson? at h
    split at h
    · rw [ofName?_eq_some.mp h]
      exact .name t
    · rw [ofName?_eq_some.mp h]
      exact .keyed t
    · cases h
  · rintro (_ | _)
    · exact ofName?_eq_some.mpr rfl
    · exact ofName?_eq_some.mpr rfl

theorem service_eq_some {o : Option String} :
    (service.getD .null).optionalText? = some o ↔ IsService service o := by
  constructor
  · intro h
    cases service with
    | none =>
      cases h
      exact .missing
    | some j =>
      change j.optionalText? = some o at h
      unfold Json.optionalText? at h
      split at h
      · cases h
        exact .null
      · cases h
        exact .text _
      · cases h
  · rintro (_ | _ | _) <;> rfl

theorem text?_eq_some : account.text? = some s ↔ account = .string (some s) := by
  constructor
  · intro h
    unfold Json.text? at h
    split at h
    · rw [h]
    · cases h
  · rintro rfl
    rfl

theorem ofParts?_eq_some : ofParts? account tokenType (service.getD .null) = some a ↔
    account = .string (some a.account.text) ∧ IsTokenType tokenType a.tokenType ∧ IsService service a.service := by
  rw [← text?_eq_some, ← tokenType_eq_some, ← service_eq_some]
  simp only [ofParts?, Option.bind_eq_bind, Option.bind_eq_some_iff]
  constructor
  · rintro ⟨_, account, _, tokenType, _, service, ⟨⟩⟩
    exact ⟨account, tokenType, service⟩
  · rintro ⟨account, tokenType, service⟩
    exact ⟨_, account, _, tokenType, _, service, rfl⟩

theorem ofJson?_object {fields : List (Option String × Json)} : ofJson? (.object fields) = some a ↔
    ∃ account tokenType service, Parts (.object fields) account tokenType service ∧
      ofParts? account tokenType (service.getD .null) = some a := by
  simp only [ofJson?, Option.bind_eq_bind, Option.bind_eq_some_iff, Option.guard_eq_some', Authority.namesSound_iff,
    Json.field?_eq_some]
  constructor
  · rintro ⟨_, sound, service, hs, _, ha, account, rfl, _, ht, tokenType, rfl, h⟩
    exact ⟨account, tokenType, service, .object sound ha ht hs, h⟩
  · rintro ⟨account, tokenType, service, ⟨sound, ha, ht, hs⟩, h⟩
    exact ⟨(), sound, service, hs, _, ha, account, rfl, _, ht, tokenType, rfl, h⟩

/-- A value is read as the authorization that it records. -/
theorem ofJson?_eq_some : ofJson? j = some a ↔ Records j a := by
  have parts : ofJson? j = some a ↔ ∃ account tokenType service, Parts j account tokenType service ∧
      ofParts? account tokenType (service.getD .null) = some a := by
    by_cases object : ∃ fields, j = .object fields
    · obtain ⟨fields, rfl⟩ := object
      exact ofJson?_object
    · constructor
      · intro h
        unfold ofJson? at h
        split at h
        · exact absurd ⟨_, rfl⟩ object
        · exact ⟨_, _, _, .array, h⟩
        · cases h
      · rintro ⟨account, tokenType, service, parts, h⟩
        cases parts with
        | object => exact absurd ⟨_, rfl⟩ object
        | array => exact h
  rw [parts]
  constructor
  · rintro ⟨account, tokenType, service, parts, h⟩
    obtain ⟨rfl, isTokenType, isService⟩ := ofParts?_eq_some.mp h
    exact ⟨tokenType, service, parts, isTokenType, isService⟩
  · rintro ⟨tokenType, service, parts, isTokenType, isService⟩
    exact ⟨_, tokenType, service, parts, ofParts?_eq_some.mpr ⟨rfl, isTokenType, isService⟩⟩

theorem ofWritten?_eq_some : ofWritten? s = some a ↔ ∃ j, Json.ofText s = some j ∧ Records j a := by
  simp only [ofWritten?, Option.bind_eq_some_iff, ofJson?_eq_some]

/-! ## Writing -/

def fields (a : Authorization) : List (String × Option String) :=
  [("account_id", some a.account.text), ("token_payment_type", some a.tokenType.name), ("service_name", a.service)]

theorem written_eq (a : Authorization) :
    a.written = Json.writeObject (a.fields.map fun f => (f.1, Json.scalar f.2)) := rfl

theorem isService_ofScalar (o : Option String) : IsService (some (Json.ofScalar o)) o := by
  cases o with
  | none => exact .null
  | some s => exact .text s

theorem records_fields (a : Authorization) :
    Records (.object (a.fields.map fun f => (some f.1, Json.ofScalar f.2))) a := by
  refine ⟨_, _, .object ?_ (Json.field?_eq_some.mp rfl) (Json.field?_eq_some.mp rfl) (Json.field?_eq_some.mp rfl),
    .name a.tokenType, isService_ofScalar a.service⟩
  intro f hf
  obtain ⟨g, -, rfl⟩ := List.mem_map.mp hf
  exact Option.some_ne_none g.1

/-- What is written is read back, whatever characters its texts have. -/
theorem ofWritten?_written (a : Authorization) : ofWritten? a.written = some a :=
  ofWritten?_eq_some.mpr ⟨_, by rw [written_eq, Json.ofText_writeObject], records_fields a⟩

theorem written_injective : Function.Injective written := fun a b h => by
  have same := congrArg ofWritten? h
  rw [ofWritten?_written, ofWritten?_written] at same
  exact Option.some.inj same

/-- Every authorization is read back from its text. A text is read as what its value records,
with fields in any order and among others, or as an array. What it is read as has one
canonical text, which is read as the same and is canonical itself, and two texts have the
same canonical text exactly if they are read as the same. -/
theorem records_round_trip :
    (∀ a, ofWritten? a.written = some a) ∧
      (∀ s a, ofWritten? s = some a ↔ ∃ j, Json.ofText s = some j ∧ Records j a) ∧
      (∀ s a, ofWritten? s = some a →
        canonical s = some a.written ∧ ofWritten? a.written = some a ∧ canonical a.written = some a.written) ∧
      ∀ s t, canonical s = canonical t ↔ ofWritten? s = ofWritten? t := by
  refine ⟨ofWritten?_written, fun s a => ofWritten?_eq_some, fun s a read => ⟨?_, ofWritten?_written a, ?_⟩, fun s t => ?_⟩
  · rw [canonical, read, Option.map_some]
  · rw [canonical, ofWritten?_written, Option.map_some]
  · exact (Option.map_injective written_injective).eq_iff

/-- A record with spaces, another field before the three, these in another order, the payment
type as an object, and escapes in texts and in a name. -/
def sprawling : String :=
  " \x7b \"x\" : [-0.5e3, \x7b\"y\": [true]\x7d], \"service_name\" : \"\\u00E9\\ud83d\\ude00\\/\\n\"," ++
    "\"token_payment_type\":\x7b\"direct_debit\":null\x7d, \"\\u0061ccount_id\":\"\\u0000\\\"\" \x7d\n"

theorem sprawling_round_trips :
    ofWritten? sprawling = some ⟨⟨"\x00\""⟩, .directDebit, some "é😀/\n"⟩ ∧
      canonical sprawling = some ("\x7b\"account_id\":\"\\u0000\\\"\",\"token_payment_type\":\"direct_debit\"," ++
        "\"service_name\":\"é😀/\\n\"\x7d") ∧
      canonical sprawling = canonical "[\"\\u0000\\u0022\",\"direct_debit\",\"é😀/\\n\"]" := by
  have read : ofWritten? sprawling = some ⟨⟨"\x00\""⟩, .directDebit, some "é😀/\n"⟩ := by decide +kernel
  have array : ofWritten? "[\"\\u0000\\u0022\",\"direct_debit\",\"é😀/\\n\"]" =
      some ⟨⟨"\x00\""⟩, .directDebit, some "é😀/\n"⟩ := by decide +kernel
  refine ⟨read, ?_, (records_round_trip.2.2.2 _ _).mpr (read.trans array.symm)⟩
  rw [(records_round_trip.2.2.1 _ _ read).1]
  decide +kernel

end Gateway.Authorization
