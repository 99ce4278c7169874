/-
  Gateway.Proofs.Identifiers — the ways in which an account id comes in.

  An account id is to show a character that is no blank (`Shows`), or the budgets of callers
  who have nothing to do with each other are one budget. The check of a text, the account
  ids that are parsed and the authorizations in the bodies of the authentication service all
  hold to this. A record does not go through the check: its account is the text that stands
  in the record, whatever that is.

  Proved (`shows_of_ways_in`):
  - A text passes the check, and is an account id, exactly if it shows.
  - The account of every body that is decoded shows.
  - The account of a record shows exactly if the text that the record has for it does, and
    records can have any text for it.
  Trace: a record with a blank account is read (`a_blank_account_is_read`).
-/

import Gateway.Proofs.Records

namespace Gateway

def Shows (s : String) : Prop := ∃ c ∈ s.toList, Text.isBlank c = false

instance (s : String) : Decidable (Shows s) := List.decidableBEx (fun c => Text.isBlank c = false) s.toList

variable {s t : String} {a : Authorization} {body : List UInt8}

/-! ## Checked ways -/

theorem nonBlank_eq_ok : nonBlank s = .ok t ↔ Shows s ∧ t = s := by
  have parsed := Authority.parse_account (s := s) (i := ⟨t⟩)
  rw [AccountId.parse, map_eq_ok, AccountId.mk.injEq] at parsed
  rw [Shows, ← parsed]
  constructor
  · intro h
    exact ⟨t, h, rfl⟩
  · rintro ⟨_, h, ⟨⟩⟩
    exact h

theorem Authority.IsAccount.shows {j : Json} {i : AccountId} (h : IsAccount j i) : Shows i.text := by
  obtain ⟨s, -, parsed⟩ := account_iff.mpr h
  obtain ⟨shown, rfl⟩ := parse_account.mp parsed
  exact shown

theorem decode_shows (h : Authority.decode body = .ok a) : Shows a.account.text := by
  obtain ⟨j, -, account, tokenType, service, -, isAccount, -⟩ := Authority.decode_eq_ok.mp h
  exact isAccount.shows

/-! ## Records -/

namespace Authorization

/-- A value has one account at most. -/
theorem Parts.account_eq {j x y tokenType tokenType' : Json} {service service' : Option Json}
    (h : Parts j x tokenType service) (h' : Parts j y tokenType' service') : x = y := by
  cases h with
  | object _ first =>
    cases h' with
    | object _ second =>
      have same := (Json.field?_eq_some.mpr first).symm.trans (Json.field?_eq_some.mpr second)
      exact Option.some.inj (Option.some.inj same)
  | array =>
    cases h'
    rfl

/-- The account of a record is the text that stands for it. -/
theorem shows_iff (h : ofWritten? s = some a) : Shows a.account.text ↔
    ∃ j t tokenType service, Json.ofText s = some j ∧ Parts j (.string (some t)) tokenType service ∧ Shows t := by
  obtain ⟨j, read, tokenType, service, parts, -⟩ := ofWritten?_eq_some.mp h
  constructor
  · intro shows_
    exact ⟨j, _, tokenType, service, read, parts, shows_⟩
  · rintro ⟨j', t, _, _, read', parts', shows_⟩
    obtain rfl : j = j' := Option.some.inj (read.symm.trans read')
    cases parts.account_eq parts'
    exact shows_

end Authorization

/-- The check passes the texts that show, and these are the account ids that are parsed. The
account of a body that is decoded shows. That of a record shows exactly if the text that
stands for it in the record does, and any account stands in some record. -/
theorem shows_of_ways_in (s : String) (body : List UInt8) (i : AccountId) :
    (∀ t, nonBlank s = .ok t ↔ Shows s ∧ t = s) ∧
      (AccountId.parse s = .ok i ↔ Shows s ∧ i = ⟨s⟩) ∧
      (∀ a, Authority.decode body = .ok a → Shows a.account.text) ∧
      (∀ a, Authorization.ofWritten? s = some a → (Shows a.account.text ↔
        ∃ j t tokenType service, Json.ofText s = some j ∧
          Authorization.Parts j (.string (some t)) tokenType service ∧ Shows t)) ∧
      ∃ t a, Authorization.ofWritten? t = some a ∧ a.account = i := by
  refine ⟨fun t => nonBlank_eq_ok, Authority.parse_account, fun a => decode_shows,
    fun a => Authorization.shows_iff, ?_⟩
  exact ⟨_, ⟨i, .card, none⟩, Authorization.ofWritten?_written _, rfl⟩

/-- The body is an array of the number 7 and a type. -/
theorem numbered_account_shows :
    ∃ a b, Authority.decode [0x5B, 0x37, 0x2C, 0x22, 0x43, 0x41, 0x52, 0x44, 0x22, 0x5D] = .ok a ∧
      a.account.text = "7" ∧ Shows a.account.text ∧
      Authorization.ofWritten? "[\"\\u2003x\",\"card\",null]" = some b ∧
      (∃ j t tokenType service, Json.ofText "[\"\\u2003x\",\"card\",null]" = some j ∧
        Authorization.Parts j (.string (some t)) tokenType service ∧ Shows t) := by
  have decoded : Authority.decode [0x5B, 0x37, 0x2C, 0x22, 0x43, 0x41, 0x52, 0x44, 0x22, 0x5D] =
      .ok ⟨⟨"7"⟩, .card, none⟩ := by decide +kernel
  have read : Authorization.ofWritten? "[\"\\u2003x\",\"card\",null]" = some ⟨⟨"\u2003x"⟩, .card, none⟩ := by
    decide +kernel
  obtain ⟨-, -, bodies, records, -⟩ := shows_of_ways_in "[\"\\u2003x\",\"card\",null]"
    [0x5B, 0x37, 0x2C, 0x22, 0x43, 0x41, 0x52, 0x44, 0x22, 0x5D] ⟨"7"⟩
  exact ⟨_, _, decoded, rfl, bodies _ decoded, read, (records _ read).mp (by decide)⟩

/-- A record with nothing but a blank for its account is read. -/
theorem a_blank_account_is_read :
    Authorization.ofWritten? "\x7b\"account_id\":\" \",\"token_payment_type\":\"card\"\x7d" =
        some ⟨⟨" "⟩, .card, none⟩ ∧
      ¬ ∀ s a, Authorization.ofWritten? s = some a → Shows a.account.text := by
  have read : Authorization.ofWritten? "\x7b\"account_id\":\" \",\"token_payment_type\":\"card\"\x7d" =
      some ⟨⟨" "⟩, .card, none⟩ := by decide +kernel
  exact ⟨read, fun all => absurd (all _ _ read) (by decide)⟩

end Gateway
