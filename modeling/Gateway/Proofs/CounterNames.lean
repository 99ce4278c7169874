/-
  Gateway.Proofs.CounterNames — a counter's name tells its key.

  A name is made of fields between colons: class, principal, width and number. The
  principal is free text and may hold colons itself, so a name is read from both ends.
  The class is the word before the first colon. The number holds no colon, so it is what
  follows the last one; the width stands before it, again without a colon. What is left
  is the principal (`storageName_inj`). A store that counts for several puts its stem
  before the names, which keeps them apart (`nameOf_inj`). So two keys have one name
  exactly if they are one key (`names_eq_iff`).
-/

import Mathlib
import Gateway.SharedStore

namespace Gateway

/-! ## Fields without a colon -/

theorem cut_first {a b x y : List Char} {c : Char} (ha : c ∉ a) (hb : c ∉ b)
    (h : a ++ c :: x = b ++ c :: y) : a = b ∧ x = y := by
  induction a generalizing b with
  | nil =>
    cases b with
    | nil => simpa using h
    | cons d b => exact absurd (List.cons.inj h).1 (List.ne_of_not_mem_cons hb)
  | cons d a ih =>
    cases b with
    | nil => exact absurd (List.cons.inj h).1.symm (List.ne_of_not_mem_cons ha)
    | cons e b =>
      simp only [List.cons_append, List.cons.injEq, List.mem_cons, not_or] at h ha hb
      obtain ⟨rfl, h⟩ := h
      obtain ⟨rfl, rfl⟩ := ih ha.2 hb.2 h
      exact ⟨rfl, rfl⟩

theorem cut_last {a b x y : List Char} {c : Char} (hx : c ∉ x) (hy : c ∉ y)
    (h : a ++ c :: x = b ++ c :: y) : a = b ∧ x = y := by
  have hr : x.reverse ++ c :: a.reverse = y.reverse ++ c :: b.reverse := by
    simpa using congrArg List.reverse h
  obtain ⟨e, f⟩ := cut_first (by simpa using hx) (by simpa using hy) hr
  exact ⟨List.reverse_injective f, List.reverse_injective e⟩

theorem colon_notMem_digits (n : Nat) : ':' ∉ n.repr.toList := by
  intro h
  rw [Nat.toList_repr] at h
  exact absurd (Nat.isDigit_of_mem_toDigits (by omega) (by omega) h) (by decide)

theorem colon_notMem_signed (n : Int) : ':' ∉ n.repr.toList := by
  cases n with
  | ofNat m => exact colon_notMem_digits m
  | negSucc m =>
    show ':' ∉ ("-" ++ (m + 1).repr).toList
    rw [String.toList_append, List.mem_append, not_or]
    exact ⟨by decide, colon_notMem_digits (m + 1)⟩

namespace Operation

theorem colon_notMem_name (o : Operation) : ':' ∉ o.name.toList := by cases o <;> decide

theorem name_inj {o p : Operation} (h : o.name.toList = p.name.toList) : o = p := by
  cases o <;> cases p <;> first | rfl | exact absurd h (by decide)

end Operation

/-! ## Names -/

namespace WindowKey

theorem toList_storageName (k : WindowKey) :
    k.storageName.toList = k.operation.name.toList ++ ':' :: ((k.principal.toList ++
      ':' :: (k.width.repr.toList ++ ['m', 's'])) ++ ':' :: k.index.repr.toList) := by
  have hm : "ms:".toList = ['m', 's', ':'] := rfl
  have hc : ":".toList = [':'] := rfl
  have hi : toString k.index = k.index.repr := rfl
  simp only [storageName, String.toList_append, Nat.toString_eq_repr, hi, hm, hc, List.append_assoc,
    List.cons_append, List.nil_append]

/-- Keys that are counted under one name are one key. -/
theorem storageName_inj {a b : WindowKey} (h : a.storageName = b.storageName) : a = b := by
  have h := congrArg String.toList h
  rw [toList_storageName, toList_storageName] at h
  obtain ⟨ho, h⟩ := cut_first a.operation.colon_notMem_name b.operation.colon_notMem_name h
  obtain ⟨h, hi⟩ := cut_last (colon_notMem_signed _) (colon_notMem_signed _) h
  have hms : ∀ n : Nat, ':' ∉ n.repr.toList ++ ['m', 's'] := fun n hn => by
    rcases List.mem_append.mp hn with hn | hn
    · exact colon_notMem_digits n hn
    · exact absurd hn (by decide)
  obtain ⟨hp, hw⟩ := cut_last (hms _) (hms _) h
  have hw := Nat.repr_injective (String.toList_injective (List.append_cancel_right hw))
  have hi := Int.repr_injective (String.toList_injective hi)
  have ho := Operation.name_inj ho
  have hp := String.toList_injective hp
  cases a
  cases b
  simp_all

end WindowKey

/-! ## Names under a stem -/

/-- What stands before a colon is the same for all names of the store. -/
theorem SharedStore.nameOf_inj (s : SharedStore) {a b : WindowKey} (h : s.nameOf a = s.nameOf b) : a = b := by
  have h := congrArg String.toList h
  simp only [nameOf, String.toList_append, List.append_assoc] at h
  have h := List.append_cancel_left (List.append_cancel_left h)
  exact WindowKey.storageName_inj (String.toList_injective h)

/-- Whatever the principals are, an instance's own counters and a shared store under any
stem count two keys under one name exactly if they are one key. -/
theorem WindowKey.names_eq_iff (s : SharedStore) (a b : WindowKey) :
    (a.storageName = b.storageName ↔ a = b) ∧ (s.nameOf a = s.nameOf b ↔ a = b) := by
  constructor
  · exact ⟨storageName_inj, congrArg storageName⟩
  · exact ⟨s.nameOf_inj, congrArg s.nameOf⟩

end Gateway
