/-
  Gateway.Table — finite maps.

  A table is a list of entries no two of which share a key. Everything a table says is
  said by `get?`; the lemmas give it for each operation.
-/

namespace Gateway

structure Table (α β : Type) where
  entries : List (α × β)
  nodup : (entries.map Prod.fst).Nodup

namespace Table

variable {α β : Type} [DecidableEq α]

def empty : Table α β := ⟨[], List.nodup_nil⟩

def size (t : Table α β) : Nat := t.entries.length

def lookup (k : α) : List (α × β) → Option β
  | [] => none
  | (k', v) :: r => if k' = k then some v else lookup k r

def get? (t : Table α β) (k : α) : Option β := lookup k t.entries

def filter (p : α → β → Bool) (t : Table α β) : Table α β :=
  ⟨t.entries.filter fun e => p e.1 e.2, t.nodup.sublist ((List.filter_sublist).map _)⟩

def erase (t : Table α β) (k : α) : Table α β := t.filter fun k' _ => !decide (k' = k)

theorem notMem_erase (t : Table α β) (k : α) : k ∉ (t.erase k).entries.map Prod.fst := by
  simp [erase, filter]

/-- Puts the entry in place of any entry of that key. -/
def insert (t : Table α β) (k : α) (v : β) : Table α β :=
  ⟨(k, v) :: (t.erase k).entries, List.nodup_cons.2 ⟨t.notMem_erase k, (t.erase k).nodup⟩⟩

/-- Changes the value of a key that is present. -/
def update (t : Table α β) (k : α) (f : β → β) : Table α β :=
  match t.get? k with
  | some v => t.insert k (f v)
  | none => t

/-! ## What `get?` says -/

theorem lookup_eq_none {k : α} {l : List (α × β)} (h : k ∉ l.map Prod.fst) : lookup k l = none := by
  induction l with
  | nil => rfl
  | cons e r ih =>
    simp only [List.map_cons, List.mem_cons, not_or] at h
    simp [lookup, Ne.symm h.1, ih h.2]

theorem lookup_filter (p : α → β → Bool) (k : α) {l : List (α × β)} (h : (l.map Prod.fst).Nodup) :
    lookup k (l.filter fun e => p e.1 e.2) = (lookup k l).filter (p k) := by
  induction l with
  | nil => rfl
  | cons e r ih =>
    obtain ⟨k', v⟩ := e
    simp only [List.map_cons, List.nodup_cons] at h
    by_cases hk : k' = k
    · subst hk
      have gone : lookup k' (r.filter fun e => p e.1 e.2) = none :=
        lookup_eq_none fun hm => h.1 ((List.filter_sublist.map Prod.fst).subset hm)
      by_cases hp : p k' v <;> simp [lookup, hp, gone, Option.filter]
    · by_cases hp : p k' v <;> simp [lookup, hp, hk, ih h.2]

@[simp] theorem get?_empty (k : α) : (empty : Table α β).get? k = none := rfl

@[simp] theorem get?_filter (p : α → β → Bool) (t : Table α β) (k : α) :
    (t.filter p).get? k = (t.get? k).filter (p k) := lookup_filter p k t.nodup

theorem get?_erase (t : Table α β) (k j : α) :
    (t.erase k).get? j = if j = k then none else t.get? j := by
  rw [erase, get?_filter]
  by_cases h : j = k <;> cases t.get? j <;> simp [h, Option.filter]

theorem get?_insert (t : Table α β) (k : α) (v : β) (j : α) :
    (t.insert k v).get? j = if j = k then some v else t.get? j := by
  have rest := t.get?_erase k j
  by_cases h : j = k
  · subst h; simp [insert, get?, lookup]
  · simpa [insert, get?, lookup, h, Ne.symm h] using rest

@[simp] theorem get?_insert_self (t : Table α β) (k : α) (v : β) : (t.insert k v).get? k = some v := by
  simp [get?_insert]

theorem get?_insert_of_ne (t : Table α β) {k j : α} (v : β) (h : j ≠ k) :
    (t.insert k v).get? j = t.get? j := by
  simp [get?_insert, h]

end Table

end Gateway
