/-
  Gateway.Proofs.Quotes — quoted texts, and objects of them, read back.

  Between quotes a character may be spelled as itself, by a letter after a backslash, by the
  escape of its UTF-16 unit, or by the escapes of two units that form a pair (`Spells`).
  However it is spelled, reading it appends the character to what is read so far
  (`Spells.run`), and what is written is one of the spellings (`spells_escape`).

  Tokens follow each other without a mark between them, so what a text is read as is said
  for a lexer at rest (`Rests`): any character finds it as it would between tokens. A text
  that takes every lexer at rest to one at rest, with these tokens more, is their text
  (`Lexes`), and texts of tokens can be put together (`Lexes.append`, `Lexes.intercalate`).

  Proved:
  - `ofText_spelled`: a text between quotes, whatever the spelling, is read as the text.
  - `ofText_writeObject`: an object that is written with texts and nulls for its fields is
    read as the object of these fields.
-/

import Gateway.Json.Value

namespace Gateway.Json

/-! ## Spellings -/

/-- Four hexadecimal digits, in either letter case, that make a unit. -/
inductive IsUnit : List Char → Nat → Prop where
  | digits {a b c d : Char} {w x y z : Nat} : Text.hexValue? a = some w → Text.hexValue? b = some x →
      Text.hexValue? c = some y → Text.hexValue? d = some z → IsUnit [a, b, c, d] (16 * (16 * (16 * w + x) + y) + z)

inductive Spells : Char → List Char → Prop where
  | plain {c : Char} : c ≠ '"' → c ≠ '\\' → 0x20 ≤ c.toNat → Spells c [c]
  | short {c e : Char} : unescape? e = some c → Spells c ['\\', e]
  | unit {c : Char} {l : List Char} : IsUnit l c.toNat → Spells c ('\\' :: 'u' :: l)
  | pair {c : Char} {l m : List Char} {high low : Nat} : IsUnit l high → IsUnit m low →
      0xD800 ≤ high → high ≤ 0xDBFF → 0xDC00 ≤ low → low ≤ 0xDFFF →
      c.toNat = 0x10000 + (high - 0xD800) * 0x400 + (low - 0xDC00) →
      Spells c ('\\' :: 'u' :: l ++ '\\' :: 'u' :: m)

inductive SpellsText : List Char → List Char → Prop where
  | nil : SpellsText [] []
  | cons {c : Char} {s l m : List Char} : Spells c l → SpellsText s m → SpellsText (c :: s) (l ++ m)

variable {c e : Char} {s l m : List Char} {u n : Nat} {q : Content} {t : Token} {T ts us : List Token} {x : Lexer}

theorem hexValue?_hexDigit (h : n < 16) : Text.hexValue? (Text.hexDigit n) = some n := by
  have all : ∀ d : Fin 16, Text.hexValue? (Text.hexDigit d) = some (d : Nat) := by decide
  exact all ⟨n, h⟩

theorem unescape?_shortEscape? (h : shortEscape? c = some e) : unescape? e = some c := by
  unfold shortEscape? at h
  split at h <;> cases h <;> rfl

theorem spells_escape (c : Char) : Spells c (escape c) := by
  unfold escape
  cases named : shortEscape? c with
  | some e => exact .short (unescape?_shortEscape? named)
  | none =>
    by_cases control : c.toNat < 0x20
    · have digits : IsUnit ['0', '0', Text.hexDigit (c.toNat / 16), Text.hexDigit (c.toNat % 16)]
          (16 * (16 * (16 * 0 + 0) + c.toNat / 16) + c.toNat % 16) :=
        .digits rfl rfl (hexValue?_hexDigit (by omega)) (hexValue?_hexDigit (by omega))
      have value : 16 * (16 * (16 * 0 + 0) + c.toNat / 16) + c.toNat % 16 = c.toNat := by omega
      rw [value] at digits
      simp only [if_pos control]
      exact .unit digits
    · simp only [if_neg control]
      refine .plain ?_ ?_ (by omega)
      · rintro rfl
        cases named
      · rintro rfl
        cases named

theorem spells_flatMap (s : List Char) : SpellsText s (s.flatMap escape) := by
  induction s with
  | nil => exact .nil
  | cons c s ih => exact .cons (spells_escape c) ih

/-! ## Reading a spelling -/

namespace Lexer

def run (x : Lexer) (l : List Char) : Option Lexer := (l.map some).foldlM step x

@[simp] theorem run_nil : x.run [] = some x := rfl

@[simp] theorem run_cons : x.run (c :: l) = (x.step (some c)).bind fun y => y.run l := rfl

theorem run_append : x.run (l ++ m) = (x.run l).bind fun y => y.run m := by
  unfold run
  rw [List.map_append, List.foldlM_append]
  rfl

end Lexer

/-- A character is no half of a pair. -/
theorem pushUnit_toNat (q : Content) (c : Char) : q.pushUnit c.toNat = q.push c := by
  have valid : c.toNat < 0xD800 ∨ 0xDFFF < c.toNat := by
    rcases c.valid with below | above
    · exact Or.inl below
    · exact Or.inr above.1
  unfold Content.pushUnit
  rw [if_neg (by omega), if_neg (by omega), Char.ofNat_toNat]

theorem push_of_whole (whole : q.half = none) (c : Char) : q.push c = ⟨c :: q.chars, none, q.sound⟩ := by
  obtain ⟨chars, half, sound⟩ := q
  cases whole
  rfl

theorem IsUnit.run (h : IsUnit l u) (q : Content) (T : List Token) :
    (Lexer.mk (.unit q 3 0) T).run l = some ⟨.string (q.pushUnit u), T⟩ := by
  obtain ⟨ha, hb, hc, hd⟩ := h
  simp [Lexer.step, ha, hb, hc, hd]

theorem Spells.run (h : Spells c l) (whole : q.half = none) (T : List Token) :
    (Lexer.mk (.string q) T).run l = some ⟨.string (q.push c), T⟩ := by
  cases h with
  | plain quote backslash visible =>
    have stays : Lexer.inside T q (some c) = some ⟨.string (q.push c), T⟩ := by
      unfold Lexer.inside
      split
      · rename_i e
        cases e
      · rename_i e
        cases e
        exact absurd rfl quote
      · rename_i e
        cases e
        exact absurd rfl backslash
      · rename_i e
        cases e
        exact if_neg (by omega)
    simp [Lexer.step, stays]
  | short known =>
    rename_i e
    have letter : e ≠ 'u' := by
      rintro rfl
      cases known
    simp [Lexer.step, Lexer.inside, letter, known]
  | unit digits =>
    rename_i l
    have opens : (Lexer.mk (.string q) T).run ('\\' :: 'u' :: l) = (Lexer.mk (.unit q 3 0) T).run l := rfl
    rw [opens, digits.run, pushUnit_toNat]
  | pair first second high_le le_high low_le le_low value =>
    rename_i l m high low
    have opens : ∀ q : Content, ∀ l, (Lexer.mk (.string q) T).run ('\\' :: 'u' :: l) =
        (Lexer.mk (.unit q 3 0) T).run l := fun _ _ => rfl
    have half : q.pushUnit high = { q with half := some high } := by
      unfold Content.pushUnit Content.settle
      rw [if_neg (by omega), if_pos ⟨high_le, le_high⟩, whole]
    have both : ({ q with half := some high } : Content).pushUnit low = q.push c := by
      unfold Content.pushUnit
      rw [if_pos ⟨low_le, le_low⟩, push_of_whole whole]
      simp only [← value, Char.ofNat_toNat]
    rw [Lexer.run_append, opens, first.run, Option.bind_some, opens, second.run, half, both]

theorem SpellsText.run (h : SpellsText s l) (whole : q.half = none) (T : List Token) :
    (Lexer.mk (.string q) T).run l = some ⟨.string ⟨s.reverse ++ q.chars, none, q.sound⟩, T⟩ := by
  induction h generalizing q with
  | nil =>
    obtain ⟨chars, half, sound⟩ := q
    cases whole
    rfl
  | cons spelled _ ih =>
    rw [Lexer.run_append, spelled.run whole, Option.bind_some, push_of_whole whole, ih rfl]
    simp

/-! ## Texts of tokens -/

/-- The lexer takes the next character as it would between tokens, after these. -/
structure Rests (x : Lexer) (T : List Token) : Prop where
  step : ∀ c, x.step (some c) = Lexer.begin T c
  finish : x.finish = some T.reverse

theorem rests_between (T : List Token) : Rests ⟨.between, T⟩ T := ⟨fun _ => rfl, rfl⟩

theorem rests_word (t : Token) (T : List Token) : Rests ⟨.word [] t, T⟩ (t :: T) := ⟨fun _ => rfl, rfl⟩

def Lexes (l : List Char) (ts : List Token) : Prop :=
  ∀ x T, Rests x T → ∃ y, x.run l = some y ∧ Rests y (ts.reverse ++ T)

theorem lexes_nil : Lexes [] [] := fun _ _ rests => ⟨_, rfl, rests⟩

theorem Lexes.append (h : Lexes l ts) (h' : Lexes m us) : Lexes (l ++ m) (ts ++ us) := by
  intro x T rests
  obtain ⟨y, hy, rests⟩ := h x T rests
  obtain ⟨z, hz, rests⟩ := h' y _ rests
  refine ⟨z, ?_, ?_⟩
  · rw [Lexer.run_append, hy, Option.bind_some, hz]
  · rw [List.reverse_append, List.append_assoc]
    exact rests

/-- Texts of tokens with a separator between them. -/
theorem Lexes.intercalate {α : Type} {text : α → List Char} {read : α → List Token} (sep : Lexes l ts) {as : List α}
    (each : ∀ a ∈ as, Lexes (text a) (read a)) :
    Lexes (l.intercalate (as.map text)) (ts.intercalate (as.map read)) := by
  induction as with
  | nil => exact lexes_nil
  | cons a as ih =>
    cases as with
    | nil => simpa using each a List.mem_cons_self
    | cons b as =>
      have rest := ih fun c hc => each c (List.mem_cons_of_mem _ hc)
      simp only [List.map_cons, List.intercalate_cons_cons] at rest ⊢
      exact ((each a List.mem_cons_self).append sep).append rest

/-- A character that is a token, or none. -/
theorem lexes_char (h : ∀ T, Lexer.begin T c = some ⟨.between, ts.reverse ++ T⟩) : Lexes [c] ts := by
  intro x T rests
  refine ⟨_, ?_, rests_between _⟩
  simp [rests.step, h]

theorem SpellsText.lexes (h : SpellsText s l) : Lexes ('"' :: l ++ ['"']) [.string (some (String.ofList s))] := by
  intro x T rests
  refine ⟨_, ?_, rests_between _⟩
  have opens : x.step (some '"') = some ⟨.string .empty, T⟩ := rests.step '"'
  rw [List.cons_append, Lexer.run_cons, opens, Option.bind_some, Lexer.run_append, h.run (q := .empty) rfl]
  simp [Content.empty, Lexer.step, Lexer.inside, Content.text?, Content.settle]

theorem lexes_quote (s : String) : Lexes (quote s).toList [.string (some s)] := by
  have spelled := (spells_flatMap s.toList).lexes
  rw [String.ofList_toList] at spelled
  rw [quote, String.toList_ofList]
  exact spelled

theorem lexes_null : Lexes "null".toList [.null] := by
  intro x T rests
  have opens : x.step (some 'n') = some ⟨.word ['u', 'l', 'l'] .null, T⟩ := rests.step 'n'
  refine ⟨_, ?_, rests_word .null T⟩
  rw [show "null".toList = ['n', 'u', 'l', 'l'] from rfl, Lexer.run_cons, opens]
  rfl

theorem tokens_of_lexes {s : String} (h : Lexes s.toList ts) : tokens (Symbol.ofText s) = some ts := by
  obtain ⟨y, hy, rests⟩ := h _ _ (rests_between [])
  have run : (Symbol.ofText s).foldlM Lexer.step Lexer.start = some y := hy
  rw [tokens, run, Option.bind_some, rests.finish]
  simp

/-- However it is spelled, a text between quotes is read as the text. -/
theorem ofText_spelled (h : SpellsText s l) :
    ofText (String.ofList ('"' :: l ++ ['"'])) = some (.string (some (String.ofList s))) := by
  have lexes := h.lexes
  rw [← String.toList_ofList (l := '"' :: l ++ ['"'])] at lexes
  rw [ofText, read, tokens_of_lexes lexes]
  rfl

/-! ## Objects of texts -/

def scalar (o : Option String) : String := (o.map quote).getD "null"

def scalarToken (o : Option String) : Token := o.elim .null fun s => .string (some s)

def ofScalar (o : Option String) : Json := o.elim .null fun s => .string (some s)

theorem lexes_scalar (o : Option String) : Lexes (scalar o).toList [scalarToken o] := by
  cases o with
  | none => exact lexes_null
  | some s => exact lexes_quote s

def fieldTokens (f : String × Option String) : List Token := [.string (some f.1), .colon, scalarToken f.2]

theorem lexes_field (f : String × Option String) : Lexes (quote f.1 ++ ":" ++ scalar f.2).toList (fieldTokens f) := by
  have colon : Lexes ":".toList [.colon] := lexes_char fun _ => rfl
  rw [String.toList_append, String.toList_append]
  exact ((lexes_quote f.1).append colon).append (lexes_scalar f.2)

theorem lexes_writeObject (fields : List (String × Option String)) :
    Lexes (writeObject (fields.map fun f => (f.1, scalar f.2))).toList
      ([.openObject] ++ [Token.comma].intercalate (fields.map fieldTokens) ++ [.closeObject]) := by
  have opens : Lexes "\x7b".toList [.openObject] := lexes_char fun _ => rfl
  have comma : Lexes ",".toList [.comma] := lexes_char fun _ => rfl
  have closes : Lexes "\x7d".toList [.closeObject] := lexes_char fun _ => rfl
  have members := comma.intercalate fun f (_ : f ∈ fields) => lexes_field f
  rw [writeObject, String.toList_append, String.toList_append, String.toList_intercalate, List.map_map, List.map_map]
  exact (opens.append members).append closes

namespace Reader

variable {stack : List Frame} {fields : List (Option String × Json)} {name : Option String} {e : Expects}

/-- After a field stands a comma or the end of the object. -/
theorem steps_field (h : e = .name ∨ e = .nameOrClose) (f : String × Option String) :
    (fieldTokens f).foldlM step ⟨.object fields name :: stack, e, none⟩ =
      some ⟨.object ((some f.1, ofScalar f.2) :: fields) none :: stack, .commaOrClose, none⟩ := by
  obtain ⟨n, o⟩ := f
  rcases h with rfl | rfl <;> cases o <;> rfl

theorem steps_fields (h : e = .name ∨ e = .nameOrClose) (f : String × Option String)
    (fs : List (String × Option String)) :
    ([Token.comma].intercalate ((f :: fs).map fieldTokens)).foldlM step ⟨.object fields name :: stack, e, none⟩ =
      some ⟨.object (((f :: fs).map fun f => (some f.1, ofScalar f.2)).reverse ++ fields) none :: stack,
        .commaOrClose, none⟩ := by
  induction fs generalizing e f fields name with
  | nil =>
    rw [List.map_singleton, List.intercalate_singleton, steps_field h]
    rfl
  | cons g fs ih =>
    have comma : step ⟨.object ((some f.1, ofScalar f.2) :: fields) none :: stack, .commaOrClose, none⟩ .comma =
        some ⟨.object ((some f.1, ofScalar f.2) :: fields) none :: stack, .name, none⟩ := rfl
    have rest : ([Token.comma].intercalate ((g :: fs).map fieldTokens)).foldlM step
        ⟨.object ((some f.1, ofScalar f.2) :: fields) none :: stack, .name, none⟩ =
          some ⟨.object (((g :: fs).map fun f => (some f.1, ofScalar f.2)).reverse ++
            (some f.1, ofScalar f.2) :: fields) none :: stack, .commaOrClose, none⟩ := ih (Or.inl rfl) g
    rw [List.map_cons] at rest
    rw [List.map_cons, List.map_cons, List.intercalate_cons_cons, List.append_assoc, List.foldlM_append, steps_field h]
    simp [comma, rest]

end Reader

/-- An object of texts and nulls that is written is read as what it is. -/
theorem ofText_writeObject (fields : List (String × Option String)) :
    ofText (writeObject (fields.map fun f => (f.1, scalar f.2))) =
      some (.object (fields.map fun f => (some f.1, ofScalar f.2))) := by
  rw [ofText, read, tokens_of_lexes (lexes_writeObject fields), Option.bind_some]
  cases fields with
  | nil => rfl
  | cons f fs =>
    have opens : Reader.step Reader.start .openObject = some ⟨[.object [] none], .nameOrClose, none⟩ := rfl
    have members : ([Token.comma].intercalate ((f :: fs).map fieldTokens)).foldlM Reader.step
        ⟨[.object [] none], .nameOrClose, none⟩ =
          some ⟨[.object (((f :: fs).map fun f => (some f.1, ofScalar f.2)).reverse ++ []) none],
            .commaOrClose, none⟩ := Reader.steps_fields (Or.inr rfl) f fs
    have closes : ∀ l, Reader.step ⟨[.object l none], .commaOrClose, none⟩ .closeObject =
        some ⟨[], .commaOrClose, some (.object l.reverse)⟩ := fun _ => rfl
    simp only [List.singleton_append, List.foldlM_cons, List.foldlM_append, opens,
      Option.bind_eq_bind, Option.bind_some, members, closes, List.foldlM_nil, List.append_nil, List.reverse_reverse]
    rfl

end Gateway.Json
