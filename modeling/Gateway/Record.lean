/-
  Gateway.Record — authorizations as JSON records.

  A record is an object with the account, the payment type and the service name. Read,
  its fields may come in any order and among others, none of the three twice; the service
  name may be missing; an array of the three values will do as well. A payment type is
  written as its name, or as an object with that name and null.
-/

import Gateway.Account
import Gateway.Json.Value

namespace Gateway

def TokenType.ofName? (s : String) : Option TokenType := TokenType.all.find? fun t => t.name = s

def TokenType.ofJson? : Json → Option TokenType
  | .string (some s) => ofName? s
  | .object [(some s, .null)] => ofName? s
  | _ => none

namespace Authorization

def written (a : Authorization) : String :=
  Json.writeObject
    [("account_id", Json.quote a.account.text),
     ("token_payment_type", Json.quote a.tokenType.name),
     ("service_name", (a.service.map Json.quote).getD "null")]

def ofParts? (account tokenType service : Json) : Option Authorization := do
  return ⟨⟨← account.text?⟩, ← TokenType.ofJson? tokenType, ← service.optionalText?⟩

def ofJson? : Json → Option Authorization
  | .object fields => do
    guard (Json.namesSound fields)
    let service ← Json.field? "service_name" fields
    ofParts? (← ← Json.field? "account_id" fields) (← ← Json.field? "token_payment_type" fields)
      (service.getD .null)
  | .array [account, tokenType, service] => ofParts? account tokenType service
  | _ => none

/-- The authorization that a text is the record of. -/
def ofWritten? (s : String) : Option Authorization := (Json.ofText s).bind ofJson?

end Authorization

end Gateway
