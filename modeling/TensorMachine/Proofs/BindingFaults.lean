import TensorMachine.Proofs.Bindings
import Mathlib.Data.Nat.Find

/-!
# The first fault of a binding

Supplied identifiers that are not bound have a fault that is reported. It stands at the first
position where an identifier is not declared or supplied again. Only if there is none, some declared
identifier was left out, and the first of these is reported.
-/

namespace TensorMachine.Program

variable {p : Program} {supplied : List TensorId} {n : Nat} {id : TensorId}

/-- The identifier at the position is not declared, or it stands in front of the position too. -/
def FaultyAt (p : Program) (supplied : List TensorId) (n : Nat) : Prop :=
  ∃ id, supplied[n]? = some id ∧ (id ∉ p.inputs.map (·.id) ∨ id ∈ supplied.take n)

/-- The fault to report: the one at the first faulty position, where an identifier that is not
declared counts as such even if it is repeated, or else the first declaration that is left out. -/
inductive BindingFault (p : Program) (supplied : List TensorId) : ProtocolError → Prop
  | unexpected {n : Nat} {id : TensorId} (hfirst : ∀ k < n, ¬p.FaultyAt supplied k)
      (hid : supplied[n]? = some id) (hundeclared : id ∉ p.inputs.map (·.id)) :
      BindingFault p supplied (.unexpectedInput id)
  | duplicate {n : Nat} {id : TensorId} (hfirst : ∀ k < n, ¬p.FaultyAt supplied k)
      (hid : supplied[n]? = some id) (hdeclared : id ∈ p.inputs.map (·.id))
      (hrepeated : id ∈ supplied.take n) : BindingFault p supplied (.duplicateInput id)
  | missing {front rest : List Input} {i : Input} (hsound : ∀ n, ¬p.FaultyAt supplied n)
      (hinputs : p.inputs = front ++ i :: rest) (hfront : ∀ other ∈ front, other.id ∈ supplied)
      (hmissing : i.id ∉ supplied) : BindingFault p supplied (.missingInput i.id)

lemma forall_lt_not_faultyAt_iff (p : Program) (supplied : List TensorId) (n : Nat) :
    (∀ k < n, ¬p.FaultyAt supplied k) ↔
      (∀ id ∈ supplied.take n, id ∈ p.inputs.map (·.id)) ∧ (supplied.take n).Nodup := by
  induction n with
  | zero => simp
  | succ n ih =>
    rw [Nat.forall_lt_succ_right, ih, List.take_add_one]
    cases hid : supplied[n]? with
    | none => simp [FaultyAt, hid]
    | some id =>
      simp only [FaultyAt, hid, Option.some.injEq, exists_eq_left', not_or, not_not,
        Option.toList_some, List.mem_append, List.mem_singleton, List.nodup_append]
      grind

lemma checkSupplied_append {seen front : List TensorId} (h : p.checkSupplied seen front = .ok ())
    (rest : List TensorId) :
    p.checkSupplied seen (front ++ rest) = p.checkSupplied (front.reverse ++ seen) rest := by
  induction front generalizing seen with
  | nil => rfl
  | cons id front ih =>
    rw [checkSupplied] at h
    rw [List.cons_append, checkSupplied]
    split at h
    · cases h
    · next hdeclared =>
      split at h
      · cases h
      · next hnew =>
        rw [if_neg hdeclared, if_neg hnew, ih h, List.reverse_cons, List.append_assoc,
          List.singleton_append]

/-- What the check comes to at a position with sound positions in front of it. -/
lemma checkSupplied_at (hfirst : ∀ k < n, ¬p.FaultyAt supplied k) (hid : supplied[n]? = some id) :
    p.checkSupplied [] supplied =
      p.checkSupplied (supplied.take n).reverse (id :: supplied.drop (n + 1)) := by
  obtain ⟨hlt, rfl⟩ := List.getElem?_eq_some_iff.mp hid
  have hsplit : supplied.take n ++ supplied[n] :: supplied.drop (n + 1) = supplied := by
    rw [List.getElem_cons_drop, List.take_append_drop]
  obtain ⟨hdeclared, hnodup⟩ := (forall_lt_not_faultyAt_iff p supplied n).mp hfirst
  have hfront : p.checkSupplied [] (supplied.take n) = .ok () :=
    (checkSupplied_eq_ok_iff p [] _).mpr ⟨hdeclared, hnodup, fun _ _ => List.not_mem_nil⟩
  conv_lhs => rw [← hsplit]
  rw [checkSupplied_append hfront, List.append_nil]

lemma checkSupplied_of_sound (hsound : ∀ n, ¬p.FaultyAt supplied n) :
    p.checkSupplied [] supplied = .ok () := by
  have hall := (forall_lt_not_faultyAt_iff p supplied supplied.length).mp fun n _ => hsound n
  rw [List.take_length] at hall
  exact (checkSupplied_eq_ok_iff p [] supplied).mpr ⟨hall.1, hall.2, fun _ _ => List.not_mem_nil⟩

lemma checkBindings_of_checkSupplied {e : ProtocolError}
    (h : p.checkSupplied [] supplied = .error e) : p.checkBindings supplied = .error e := by
  rw [checkBindings, h]
  rfl

namespace BindingFault

lemma reported {e : ProtocolError} (h : p.BindingFault supplied e) :
    p.checkBindings supplied = .error e := by
  cases h with
  | unexpected hfirst hid hundeclared =>
    refine checkBindings_of_checkSupplied ?_
    rw [checkSupplied_at hfirst hid, checkSupplied,
      if_pos ((p.input?_eq_none_iff _).mpr hundeclared)]
  | duplicate hfirst hid hdeclared hrepeated =>
    have hinput := mt (p.input?_eq_none_iff _).mp (not_not.mpr hdeclared)
    refine checkBindings_of_checkSupplied ?_
    rw [checkSupplied_at hfirst hid, checkSupplied, if_neg hinput,
      if_pos (List.mem_reverse.mpr hrepeated)]
  | @missing front rest i hsound hinputs hfront hmissing =>
    have hfind : p.inputs.find? (fun i => !supplied.contains i.id) = some i :=
      List.find?_eq_some_iff_append.mpr ⟨by simpa using hmissing, front, rest, hinputs,
        fun other h => by simpa using hfront other h⟩
    rw [checkBindings, checkSupplied_of_sound hsound, hfind]
    rfl

lemma exists_of_not_suppliedBy (h : ¬p.SuppliedBy supplied) : ∃ e, p.BindingFault supplied e := by
  classical
  by_cases hfaulty : ∃ n, p.FaultyAt supplied n
  · have hfirst : ∀ k < Nat.find hfaulty, ¬p.FaultyAt supplied k := fun _ => Nat.find_min hfaulty
    obtain ⟨id, hid, hfault⟩ := Nat.find_spec hfaulty
    by_cases hdeclared : id ∈ p.inputs.map (·.id)
    · exact ⟨_, .duplicate hfirst hid hdeclared (hfault.resolve_left (not_not.mpr hdeclared))⟩
    · exact ⟨_, .unexpected hfirst hid hdeclared⟩
  · have hsound := not_exists.mp hfaulty
    cases hfind : p.inputs.find? (fun i => !supplied.contains i.id) with
    | none =>
      refine absurd ((p.checkBindings_eq_ok_iff supplied).mp ?_) h
      rw [checkBindings, checkSupplied_of_sound hsound, hfind]
      rfl
    | some i =>
      obtain ⟨hmissing, front, rest, hinputs, hfront⟩ := List.find?_eq_some_iff_append.mp hfind
      exact ⟨_, .missing hsound hinputs (fun other hother => by simpa using hfront other hother)
        (by simpa using hmissing)⟩

end BindingFault

/-- The binding of inputs, whatever is supplied: it is granted if the supplied identifiers differ
and are just the declared ones, and then the new pool takes all handles in the order of supply.
Otherwise the first fault is reported. -/
theorem binding_outcome {η : Type} (p : Program) (inputs : List (TensorId × η)) :
    (p.checkBindings (inputs.map Prod.fst) = .ok () ↔
      (inputs.map Prod.fst).Nodup ∧ ∀ id, id ∈ inputs.map Prod.fst ↔ id ∈ p.inputs.map (·.id)) ∧
    (∀ e, p.checkBindings (inputs.map Prod.fst) = .error e ↔
      p.BindingFault (inputs.map Prod.fst) e) ∧
    (p.checkBindings (inputs.map Prod.fst) = .ok () →
      Pool.bindInputs inputs .empty = (.ok (), .ofInputs inputs)) := by
  have hok := p.checkBindings_eq_ok_iff (inputs.map Prod.fst)
  refine ⟨hok, fun e => ⟨fun h => ?_, BindingFault.reported⟩, fun h => ?_⟩
  · have hnot : ¬p.SuppliedBy (inputs.map Prod.fst) := by
      rw [← hok, h]
      exact nofun
    obtain ⟨e', hfault⟩ := BindingFault.exists_of_not_suppliedBy hnot
    cases h.symm.trans hfault.reported
    exact hfault
  · exact Pool.bindInputs_of_nodup inputs (hok.mp h).1

/-- A program that declares 4, 2 and once more 4 takes 2 and 4. It reports 2 if this comes again in
front of an undeclared 7, and the 7 if that comes first. If only 2 is supplied, it misses 4. -/
theorem binding_outcome_repeated :
    let p : Program := ⟨[⟨4, ⟨.u8, [1]⟩⟩, ⟨2, ⟨.f32, [2]⟩⟩, ⟨4, ⟨.f32, [3]⟩⟩], [], []⟩
    p.checkBindings [2, 4] = .ok () ∧
      Pool.bindInputs [(2, "two"), (4, "four")] .empty =
        (.ok (), .ofInputs [(2, "two"), (4, "four")]) ∧
      p.BindingFault [2, 2, 7] (.duplicateInput 2) ∧
      p.BindingFault [2, 7, 2] (.unexpectedInput 7) ∧ p.BindingFault [2] (.missingInput 4) := by
  intro p
  have hok : p.checkBindings [2, 4] = .ok () := rfl
  have hbound := (binding_outcome p [(2, "two"), (4, "four")]).2.2 hok
  have hfault (inputs : List (TensorId × Unit)) := (binding_outcome p inputs).2.1
  exact ⟨hok, hbound, (hfault [(2, ()), (2, ()), (7, ())] _).mp rfl,
    (hfault [(2, ()), (7, ()), (2, ())] _).mp rfl, (hfault [(2, ())] _).mp rfl⟩

end TensorMachine.Program
