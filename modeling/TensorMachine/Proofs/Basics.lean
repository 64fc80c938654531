import Mathlib.Data.List.Nodup

/-!
# Answers and keyed lists

The parts of the project that proofs are mostly about, calls with a refusal and lists whose elements
are told apart by a key, rest on the few laws of this module.
-/

namespace TensorMachine

variable {α β κ ε : Type}

lemma Except.bind_eq_ok_iff {x : Except ε α} {g : α → Except ε β} {b : β} :
    (x >>= g) = .ok b ↔ ∃ a, x = .ok a ∧ g a = .ok b := by
  cases x with
  | error e => simp [bind, Except.bind]
  | ok a => simp [bind, Except.bind]

lemma Except.bind_eq_error_iff {x : Except ε α} {g : α → Except ε β} {e : ε} :
    (x >>= g) = .error e ↔ x = .error e ∨ ∃ a, x = .ok a ∧ g a = .error e := by
  cases x with
  | error e => simp [bind, Except.bind]
  | ok a => simp [bind, Except.bind]

lemma perm_append_right_comm (l l' l'' : List α) : (l ++ l' ++ l'').Perm (l ++ l'' ++ l') := by
  rw [List.append_assoc, List.append_assoc]
  exact List.perm_append_comm.append_left l

lemma append_diff_left [DecidableEq α] (l l' : List α) : (l ++ l').diff l = l' := by
  induction l with
  | nil => rfl
  | cons a l ih => simpa using ih

/-- When the keys differ, a lookup finds just what stands under the key. -/
lemma lookup_eq_some_iff_mem [BEq κ] [LawfulBEq κ] {l : List (κ × α)}
    (hkeys : (l.map Prod.fst).Nodup) {k : κ} {a : α} : l.lookup k = some a ↔ (k, a) ∈ l := by
  rw [List.lookup_eq_some_iff]
  constructor
  · rintro ⟨front, rest, rfl, -⟩
    exact List.mem_append_right front List.mem_cons_self
  · intro h
    obtain ⟨front, rest, rfl⟩ := List.append_of_mem h
    refine ⟨front, rest, rfl, fun x hx => ?_⟩
    rw [List.map_append, List.map_cons] at hkeys
    have hne : x.1 ≠ k := fun hk =>
      List.disjoint_of_nodup_append hkeys (List.mem_map_of_mem hx) (hk ▸ List.mem_cons_self)
    simpa using hne.symm

/-- When the keys differ, leaving out the key of an element leaves out just this element. -/
theorem perm_cons_filter_key [DecidableEq κ] {key : α → κ} {l : List α} (hkeys : (l.map key).Nodup)
    {a : α} (ha : a ∈ l) : l.Perm (a :: l.filter (key · != key a)) := by
  induction l with
  | nil => cases ha
  | cons x l ih =>
    rw [List.map_cons, List.nodup_cons] at hkeys
    rcases List.mem_cons.mp ha with rfl | ha
    · have hrest : l.filter (key · != key a) = l := by
        rw [List.filter_eq_self]
        intro y hy
        have hne : key y ≠ key a := fun h => hkeys.1 (h ▸ List.mem_map_of_mem hy)
        simpa using hne
      simp [hrest]
    · have hne : key x ≠ key a := fun h => hkeys.1 (h ▸ List.mem_map_of_mem ha)
      rw [List.filter_cons_of_pos (by simpa using hne)]
      exact ((ih hkeys.2 ha).cons x).trans (.swap a x _)

end TensorMachine
