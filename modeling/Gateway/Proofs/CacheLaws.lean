/-
  Gateway.Proofs.CacheLaws — what looking, keeping and sweeping do to the entries.

  Only `keep` adds an entry, and only for an authorization of that very instant. A look
  returns fresh entries only and forgets the one it refuses, so a second look at the same
  instant finds nothing either.
-/

import Gateway.Cache

namespace Gateway

namespace Cache

variable {c : Cache} {k : Credential} {now : Instant}

theorem eq_of_make {ttl patience : Span} (h : make ttl patience = .ok c) : c = ⟨ttl, patience, Table.empty⟩ := by
  unfold make at h
  split at h
  · cases h
  · split at h
    · cases h
    · cases h; rfl

theorem look_some {e : Entry} (h : (c.look k now).1 = some e) :
    c.entries.get? k = some e ∧ e.isFresh now = true := by
  unfold look at h
  split at h
  · split at h
    · cases h; exact ⟨‹_›, ‹_›⟩
    · cases h
  · cases h

theorem look_subset {j : Credential} {e : Entry} (h : (c.look k now).2.entries.get? j = some e) :
    c.entries.get? j = some e := by
  unfold look at h
  split at h
  · split at h
    · exact h
    · rw [Table.get?_erase] at h
      split at h
      · cases h
      · exact h
  · exact h

theorem look_fresh {e : Entry} (h : c.entries.get? k = some e) (fresh : e.isFresh now = true) :
    c.look k now = (some e, c) := by
  unfold look
  rw [h]
  exact if_pos fresh

/-- No look drops a fresh entry. -/
theorem look_keeps {j : Credential} {e : Entry} (h : c.entries.get? j = some e) (fresh : e.isFresh now = true) :
    (c.look k now).2.entries.get? j = some e := by
  by_cases hj : j = k
  · subst hj
    rw [look_fresh h fresh]; exact h
  · unfold look
    split
    · split
      · exact h
      · rw [Table.get?_erase, if_neg hj]; exact h
    · exact h

theorem look_none (h : (c.look k now).1 = none) : (c.look k now).2.entries.get? k = none := by
  unfold look at h ⊢
  split
  · split
    · simp_all
    · rw [Table.get?_erase, if_pos rfl]
  · assumption

@[simp] theorem look_ttl (c : Cache) (k : Credential) (now : Instant) : (c.look k now).2.ttl = c.ttl := by
  unfold look
  split
  · split <;> rfl
  · rfl

theorem sweep_subset {j : Credential} {e : Entry} (h : (c.sweep now).entries.get? j = some e) :
    c.entries.get? j = some e := by
  rw [sweep, Table.get?_filter, Option.filter_eq_some_iff] at h
  exact h.1

theorem sweep_keeps {j : Credential} {e : Entry} (h : c.entries.get? j = some e) (fresh : e.isFresh now = true) :
    (c.sweep now).entries.get? j = some e := by
  rw [sweep, Table.get?_filter, Option.filter_eq_some_iff]
  exact ⟨h, fresh⟩

/-- What is kept of an authorization. -/
theorem keep_entries {a : Authorization} {c' : Cache} (h : c.keep k a now = some c') {j : Credential} {e : Entry}
    (he : c'.entries.get? j = some e) :
    c.entries.get? j = some e ∨ (j = k ∧ e = ⟨a, now, now.nanos + c.ttl.nanos⟩) := by
  unfold keep at h
  simp only at h
  split at h
  · cases h; exact Or.inl he
  · split at h
    · cases h
    · cases h
      rw [Table.get?_insert] at he
      split at he
      · exact Or.inr ⟨‹_›, (Option.some.inj he).symm⟩
      · exact Or.inl he

theorem keep_other {a : Authorization} {c' : Cache} (h : c.keep k a now = some c') {j : Credential} (hj : j ≠ k) :
    c'.entries.get? j = c.entries.get? j := by
  unfold keep at h
  simp only at h
  split at h
  · cases h; rfl
  · split at h
    · cases h
    · cases h
      exact Table.get?_insert_of_ne _ _ hj

theorem keep_ttl {a : Authorization} {c' : Cache} (h : c.keep k a now = some c') : c'.ttl = c.ttl := by
  unfold keep at h
  simp only at h
  split at h
  · cases h; rfl
  · split at h <;> cases h; rfl

@[simp] theorem conclude_ttl (c : Cache) (k : Credential) (f : Finding) (now : Instant) :
    (c.conclude k f now).2.1.ttl = c.ttl := by
  unfold conclude
  split
  · rfl
  · rfl
  · split
    · rfl
    · exact keep_ttl ‹_›

/-- A lookup touches no entry of another credential. -/
theorem conclude_other {j : Credential} (hj : j ≠ k) (f : Finding) (now : Instant) :
    (c.conclude k f now).2.1.entries.get? j = c.entries.get? j := by
  unfold conclude
  split
  · rfl
  · rfl
  · split
    · rfl
    · exact keep_other ‹_› hj

/-- Only what the authority says is taken for an answer. -/
theorem lookup_ok {patience : Span} {f : Finding} {l : Lookup} (h : f.lookup patience = .ok l) :
    f = .answered (.ok l) := by
  cases f with
  | answered x =>
    cases x with
    | ok y => simp only [Finding.lookup, Except.ok.injEq] at h; rw [h]
    | error e => simp [Finding.lookup] at h
  | silent => simp [Finding.lookup] at h

/-- An entry that is there after a lookup was there before, or is the authorization just given. -/
theorem conclude_entries {f : Finding} {j : Credential} {e : Entry}
    (h : (c.conclude k f now).2.1.entries.get? j = some e) :
    c.entries.get? j = some e ∨
      (j = k ∧ f = .answered (.ok (.valid e.authorization)) ∧ e.since = now ∧ e.expires = now.nanos + c.ttl.nanos) := by
  unfold conclude at h
  split at h
  · exact Or.inl h
  · exact Or.inl h
  · rename_i a ha
    split at h
    · exact Or.inl h
    · rename_i c' hk
      rcases keep_entries hk h with h | ⟨hj, rfl⟩
      · exact Or.inl h
      · refine Or.inr ⟨hj, ?_, rfl, rfl⟩
        exact lookup_ok ha

end Cache

/-! ## What an outcome tells of the lookup -/

/-- What the authority must have said for a lookup to come to this outcome. -/
def Outcome.Tells (f : Cache.Finding) : Outcome → Prop
  | .authorized a => f = .answered (.ok (.valid a))
  | .rejected _ => f = .answered (.ok .invalid)
  | .unavailable _ => f = .silent ∨ ∃ e, f = .answered (.error e)
  | .failed _ => ∃ a, f = .answered (.ok (.valid a))

theorem Cache.conclude_tells (c : Cache) (k : Credential) (f : Finding) (now : Instant) :
    (Outcome.ofResult (c.conclude k f now).1).Tells f := by
  cases f with
  | silent => exact Or.inl rfl
  | answered x =>
    cases x with
    | error e =>
      unfold conclude Finding.lookup
      simp only
      split
      · rename_i he
        simp only [Outcome.ofResult, he]
        exact Or.inr ⟨e, rfl⟩
      · exact Or.inr ⟨e, rfl⟩
    | ok l =>
      cases l with
      | invalid => exact rfl
      | valid a =>
        unfold conclude Finding.lookup
        simp only
        split
        · exact ⟨a, rfl⟩
        · exact rfl

end Gateway
