/-
  Gateway.Proofs.Answers — what an answer of the authentication service is taken for.

  The status comes first: three say that the credential is not recognised, those from 200
  to 299 that there is an authorization in the body, and with any other the service has
  failed. What a body gives is said here without reading it (`Gives`): an object with the
  account and the payment type once each and the service name at most once, or an array
  of these, where the account is a text that is not blank or the numeral of a word.

  Proved:
  - `field?_eq_some`: a field is read exactly if it is not repeated.
  - `decode_eq_ok`: a body is decoded to exactly the authorization that it gives.
  - `lookup_classifies`: an answer is taken for a refusal exactly if its status is one of
    the three, for an authorization exactly if its whole body gives this one under a
    status of success, and for a failure of the service otherwise.
-/

import Mathlib.Data.Option.Basic
import Gateway.Authority
import Gateway.Proofs.Numerals
import Gateway.Proofs.Texts

namespace Gateway

/-! ## Fields -/

namespace Json

variable {name : String} {fields : List (Option String × Json)} {o : Option Json}

/-- The value of the only field of that name, or none if there is no such field. -/
def Field (name : String) (fields : List (Option String × Json)) : Option Json → Prop
  | none => ∀ f ∈ fields, f.1 ≠ some name
  | some v => ∃ before after, fields = before ++ (some name, v) :: after ∧
      (∀ f ∈ before, f.1 ≠ some name) ∧ ∀ f ∈ after, f.1 ≠ some name

theorem field?_missing : field? name fields = some none ↔ Field name fields none := by
  have absent : field? name fields = some none ↔ (fields.filter fun f => f.1 = some name) = [] := by
    unfold field?
    split
    · exact iff_of_true rfl ‹_›
    · exact iff_of_false (fun h => by cases h) fun h => by simp_all
    · exact iff_of_false (fun h => by cases h) ‹_›
  rw [absent, List.filter_eq_nil_iff]
  simp [Field]

theorem field?_present {v : Json} : field? name fields = some (some v) ↔ Field name fields (some v) := by
  have only : field? name fields = some (some v) ↔ (fields.filter fun f => f.1 = some name) = [(some name, v)] := by
    unfold field?
    split
    · simp [*]
    · rename_i f found
      have named : f.1 = some name := by
        have : f ∈ fields.filter fun f => f.1 = some name := found ▸ List.mem_cons_self
        simpa using (List.mem_filter.mp this).2
      rw [found]
      constructor
      · rintro ⟨rfl⟩
        rw [← named]
      · rintro ⟨rfl⟩
        rfl
    · rename_i several
      exact iff_of_false (fun h => by cases h) fun h => several _ h
  rw [only, List.filter_eq_cons_iff]
  simp [Field]

theorem field?_eq_some : field? name fields = some o ↔ Field name fields o := by
  cases o with
  | none => exact field?_missing
  | some v => exact field?_present

end Json

theorem TokenType.name_inj {t u : TokenType} (h : t.name = u.name) : t = u := by
  revert h
  cases t <;> cases u <;> decide

namespace Authority

/-! ## What a body gives -/

inductive Parts : Json → Json → Json → Option Json → Prop where
  | object {fields : List (Option String × Json)} {account tokenType : Json} {service : Option Json} :
      (∀ f ∈ fields, f.1 ≠ none) → Json.Field "account_id" fields (some account) →
      Json.Field "token_type" fields (some tokenType) → Json.Field "service_name" fields service →
      Parts (.object fields) account tokenType service
  | two {account tokenType : Json} : Parts (.array [account, tokenType]) account tokenType none
  | three {account tokenType service : Json} :
      Parts (.array [account, tokenType, service]) account tokenType (some service)

inductive IsAccount : Json → AccountId → Prop where
  | text {s : String} : (∃ c ∈ s.toList, Text.isBlank c = false) → IsAccount (.string (some s)) ⟨s⟩
  | number {n : Nat} : n ≤ Word.top → IsAccount (.natural n) ⟨toString n⟩

inductive IsTokenType : Json → TokenType → Prop where
  | text {s : String} {t : TokenType} : Text.lower s = t.name → IsTokenType (.string (some s)) t

inductive IsService : Option Json → Option String → Prop where
  | missing : IsService none none
  | null : IsService (some .null) none
  | blank {s : String} : Text.allBlank s = true → IsService (some (.string (some s))) none
  | named {s : String} : Text.allBlank s = false → IsService (some (.string (some s))) (some s)

def Gives (j : Json) (a : Authorization) : Prop :=
  ∃ account tokenType service, Parts j account tokenType service ∧
    IsAccount account a.account ∧ IsTokenType tokenType a.tokenType ∧ IsService service a.service

def Refuses (r : Reply) : Prop :=
  ∃ status body, r = .answered status body ∧ (status = 401 ∨ status = 403 ∨ status = 404)

def Grants (r : Reply) (a : Authorization) : Prop :=
  ∃ status bytes j, r = .answered status (some bytes) ∧ 200 ≤ status ∧ status < 300 ∧
    Json.ofBytes bytes = some j ∧ Gives j a

variable {j account tokenType : Json} {service : Option Json} {a : Authorization} {c : Claim} {status : Nat}

/-! ## Reading it -/

theorem namesSound_iff {fields : List (Option String × Json)} :
    Json.namesSound fields = true ↔ ∀ f ∈ fields, f.1 ≠ none := by
  unfold Json.namesSound
  rw [List.all_eq_true]
  exact forall₂_congr fun f _ => Option.isSome_iff_ne_none

theorem ofJson?_object {fields : List (Option String × Json)} : Claim.ofJson? (.object fields) = some c ↔
    ∃ account tokenType service, Parts (.object fields) account tokenType service ∧
      Claim.ofParts? account tokenType (service.getD .null) = some c := by
  simp only [Claim.ofJson?, Option.bind_eq_bind, Option.bind_eq_some_iff, Option.guard_eq_some', namesSound_iff,
    Json.field?_eq_some]
  constructor
  · rintro ⟨_, sound, service, hs, _, ha, account, rfl, _, ht, tokenType, rfl, h⟩
    exact ⟨account, tokenType, service, .object sound ha ht hs, h⟩
  · rintro ⟨account, tokenType, service, ⟨sound, ha, ht, hs⟩, h⟩
    exact ⟨(), sound, service, hs, _, ha, account, rfl, _, ht, tokenType, rfl, h⟩

theorem ofJson?_eq_some : Claim.ofJson? j = some c ↔
    ∃ account tokenType service, Parts j account tokenType service ∧
      Claim.ofParts? account tokenType (service.getD .null) = some c := by
  by_cases object : ∃ fields, j = .object fields
  · obtain ⟨fields, rfl⟩ := object
    exact ofJson?_object
  · constructor
    · intro h
      unfold Claim.ofJson? at h
      split at h
      · exact absurd ⟨_, rfl⟩ object
      · exact ⟨_, _, none, .two, h⟩
      · exact ⟨_, _, _, .three, h⟩
      · cases h
    · rintro ⟨account, tokenType, service, parts, h⟩
      cases parts with
      | object => exact absurd ⟨_, rfl⟩ object
      | two => exact h
      | three => exact h

theorem ofParts?_eq_some {service : Json} : Claim.ofParts? account tokenType service = some c ↔
    accountText? account = some c.account ∧ tokenType.text? = some c.tokenType ∧
      service.optionalText? = some c.service := by
  simp only [Claim.ofParts?, Option.bind_eq_bind, Option.bind_eq_some_iff]
  constructor
  · rintro ⟨_, account, _, tokenType, _, service, ⟨⟩⟩
    exact ⟨account, tokenType, service⟩
  · rintro ⟨account, tokenType, service⟩
    exact ⟨_, account, _, tokenType, _, service, rfl⟩

theorem authorization_eq_ok : c.authorization = .ok a ↔ AccountId.parse c.account = .ok a.account ∧
    TokenType.parse c.tokenType = .ok a.tokenType ∧ c.service.filter (fun s => !Text.allBlank s) = a.service := by
  simp only [Claim.authorization, bind_eq_ok, mapError_eq_ok]
  constructor
  · rintro ⟨_, account, _, tokenType, ⟨⟩⟩
    exact ⟨account, tokenType, rfl⟩
  · rintro ⟨account, tokenType, service⟩
    exact ⟨_, account, _, tokenType, congrArg (fun s => Except.ok (Authorization.mk a.account a.tokenType s)) service⟩

/-! ## The parts -/

theorem parse_account {s : String} {i : AccountId} :
    AccountId.parse s = .ok i ↔ (∃ c ∈ s.toList, Text.isBlank c = false) ∧ i = ⟨s⟩ := by
  have blank : Text.allBlank s = false ↔ ∃ c ∈ s.toList, Text.isBlank c = false := by
    unfold Text.allBlank
    rw [List.all_eq_false]
    simp
  rw [← blank, AccountId.parse, map_eq_ok]
  unfold nonBlank
  cases Text.allBlank s with
  | false => simp [eq_comm]
  | true => simp

theorem isBlank_of_isDigit {c : Char} (h : c.isDigit = true) : Text.isBlank c = false := by
  obtain ⟨lower, upper⟩ : 48 ≤ c.toNat ∧ c.toNat ≤ 57 := Char.isDigit_iff_toNat.mp h
  exact Text.isBlank_of_isVisible (Text.isVisible_iff.mpr ⟨by omega, by omega⟩)

theorem sameLetters_iff {t : TokenType} {s : String} : Text.sameLetters t.name s = true ↔ Text.lower s = t.name := by
  rw [Text.sameLetters_comm]
  exact Text.sameLetters_iff (by cases t <;> decide)

theorem parse_tokenType {s : String} {t : TokenType} : TokenType.parse s = .ok t ↔ Text.lower s = t.name := by
  unfold TokenType.parse
  cases found : TokenType.all.find? fun u => Text.sameLetters u.name s with
  | none =>
    refine iff_of_false (fun h => by cases h) fun h => ?_
    exact List.find?_eq_none.mp found t (by cases t <;> decide) (sameLetters_iff.mpr h)
  | some u =>
    have same : Text.sameLetters u.name s = true := by simpa using List.find?_some found
    have named : Text.lower s = u.name := sameLetters_iff.mp same
    rw [named]
    exact ⟨fun h => by cases h; rfl, fun h => by rw [TokenType.name_inj h]⟩

theorem account_iff {i : AccountId} :
    (∃ s, accountText? account = some s ∧ AccountId.parse s = .ok i) ↔ IsAccount account i := by
  constructor
  · rintro ⟨s, text, parsed⟩
    obtain ⟨shown, rfl⟩ := parse_account.mp parsed
    unfold accountText? at text
    split at text
    · cases text
      exact .text shown
    · split at text
      · cases text
        exact .number ‹_›
      · cases text
    · cases text
  · rintro (⟨shown⟩ | ⟨word⟩)
    · exact ⟨_, rfl, parse_account.mpr ⟨shown, rfl⟩⟩
    · obtain ⟨c, r, chars, digit⟩ := Numeral.toString_eq_cons _
      exact ⟨_, if_pos word, parse_account.mpr ⟨⟨c, chars ▸ List.mem_cons_self, isBlank_of_isDigit digit⟩, rfl⟩⟩

theorem tokenType_iff {t : TokenType} :
    (∃ s, tokenType.text? = some s ∧ TokenType.parse s = .ok t) ↔ IsTokenType tokenType t := by
  constructor
  · rintro ⟨s, text, parsed⟩
    unfold Json.text? at text
    split at text
    · subst text
      exact .text (parse_tokenType.mp parsed)
    · cases text
  · rintro ⟨letters⟩
    exact ⟨_, rfl, parse_tokenType.mpr letters⟩

theorem service_iff {o : Option String} :
    (∃ s, (service.getD .null).optionalText? = some s ∧ s.filter (fun s => !Text.allBlank s) = o) ↔
      IsService service o := by
  constructor
  · rintro ⟨s, text, rfl⟩
    cases service with
    | none =>
      cases text
      exact .missing
    | some j =>
      change j.optionalText? = some s at text
      unfold Json.optionalText? at text
      split at text
      · cases text
        exact .null
      · rename_i w
        cases text
        cases blank : Text.allBlank w with
        | true =>
          rw [Option.filter_some_neg (by simp [blank])]
          exact .blank blank
        | false =>
          rw [Option.filter_some_pos (by simp [blank])]
          exact .named blank
      · cases text
  · rintro (_ | _ | ⟨blank⟩ | ⟨named⟩)
    · exact ⟨none, rfl, rfl⟩
    · exact ⟨none, rfl, rfl⟩
    · exact ⟨_, rfl, Option.filter_some_neg (by simp [blank])⟩
    · exact ⟨_, rfl, Option.filter_some_pos (by simp [named])⟩

theorem gives_iff : Gives j a ↔ ∃ c, Claim.ofJson? j = some c ∧ c.authorization = .ok a := by
  constructor
  · rintro ⟨account, tokenType, service, parts, isAccount, isTokenType, isService⟩
    obtain ⟨s, account, parsed⟩ := account_iff.mpr isAccount
    obtain ⟨t, tokenType, parsed'⟩ := tokenType_iff.mpr isTokenType
    obtain ⟨o, service, kept⟩ := service_iff.mpr isService
    refine ⟨⟨s, t, o⟩, ofJson?_eq_some.mpr ⟨_, _, _, parts, ofParts?_eq_some.mpr ⟨account, tokenType, service⟩⟩, ?_⟩
    exact authorization_eq_ok.mpr ⟨parsed, parsed', kept⟩
  · rintro ⟨c, claim, authorization⟩
    obtain ⟨_, _, _, parts, claim⟩ := ofJson?_eq_some.mp claim
    obtain ⟨account, tokenType, service⟩ := ofParts?_eq_some.mp claim
    obtain ⟨parsed, parsed', kept⟩ := authorization_eq_ok.mp authorization
    exact ⟨_, _, _, parts, account_iff.mp ⟨_, account, parsed⟩, tokenType_iff.mp ⟨_, tokenType, parsed'⟩,
      service_iff.mp ⟨_, service, kept⟩⟩

theorem decode_eq_ok {body : List UInt8} : decode body = .ok a ↔ ∃ j, Json.ofBytes body = some j ∧ Gives j a := by
  unfold decode
  cases found : (Json.ofBytes body).bind Claim.ofJson? with
  | none =>
    refine iff_of_false (fun h => by cases h) ?_
    rintro ⟨j, read, gives⟩
    obtain ⟨c, claim, -⟩ := gives_iff.mp gives
    rw [Option.bind_eq_none_iff] at found
    exact absurd claim (by rw [found j read]; exact fun h => by cases h)
  | some c =>
    obtain ⟨j, read, claim⟩ := Option.bind_eq_some_iff.mp found
    rw [read]
    constructor
    · exact fun h => ⟨j, rfl, gives_iff.mpr ⟨c, claim, h⟩⟩
    · rintro ⟨_, ⟨⟩, gives⟩
      obtain ⟨c', claim', h⟩ := gives_iff.mp gives
      rw [claim] at claim'
      cases claim'
      exact h

theorem isSuccess_iff : Status.isSuccess status = true ↔ 200 ≤ status ∧ status < 300 := by
  unfold Status.isSuccess
  rw [decide_eq_true_iff]
  omega

theorem verdict_accepted : verdict status = .accepted ↔ 200 ≤ status ∧ status < 300 := by
  rw [← isSuccess_iff]
  unfold verdict
  split
  · exact iff_of_true rfl ‹_›
  · split <;> exact iff_of_false (fun h => by cases h) ‹_›

theorem verdict_refused : verdict status = .refused ↔ status = 401 ∨ status = 403 ∨ status = 404 := by
  unfold verdict
  split
  · rename_i success
    have := isSuccess_iff.mp success
    exact iff_of_false (fun h => by cases h) (by omega)
  · split
    · exact iff_of_true rfl ‹_›
    · exact iff_of_false (fun h => by cases h) ‹_›

theorem Refuses.lookup {r : Reply} (h : Refuses r) : lookup r = .ok .invalid := by
  obtain ⟨status, body, rfl, refused⟩ := h
  simp only [Authority.lookup, verdict_refused.mpr refused]

theorem Grants.lookup {r : Reply} (h : Grants r a) : lookup r = .ok (.valid a) := by
  obtain ⟨status, bytes, j, rfl, lower, upper, read, gives⟩ := h
  simp only [Authority.lookup, verdict_accepted.mpr ⟨lower, upper⟩]
  exact map_eq_ok.mpr ⟨a, decode_eq_ok.mpr ⟨j, read, gives⟩, rfl⟩

/-- A number for the account, and a blank service name. -/
example : (lookup (.answered 200 (some
    "\x7b\"account_id\":12,\"token_type\":\"CARD\",\"service_name\":\" \"\x7d".toUTF8.toList))).toOption =
      some (.valid ⟨⟨"12"⟩, .card, none⟩) := by decide +kernel

end Authority

end Gateway
