import TensorMachine.Machine.Run
import TensorMachine.Proofs.Steps

/-!
# Bound inputs

Supplied identifiers are bound exactly when they are the declared ones, each supplied once. The
pool then takes all supplied handles, in the order in which they were supplied. The pool of a
verification takes the declared types in the same way unless a declaration is repeated.
-/

namespace TensorMachine

variable {σ η θ : Type}

/-- The supplied identifiers are the declared ones, each supplied once. -/
def Program.SuppliedBy (p : Program) (supplied : List TensorId) : Prop :=
  supplied.Nodup ∧ ∀ id, id ∈ supplied ↔ id ∈ p.inputs.map (·.id)

namespace Program

lemma input?_eq_none_iff (p : Program) (id : TensorId) :
    p.input? id = none ↔ id ∉ p.inputs.map (·.id) := by
  simp only [input?, List.find?_eq_none, List.mem_map, not_exists, not_and, beq_iff_eq]

lemma checkSupplied_eq_ok_iff (p : Program) (seen supplied : List TensorId) :
    p.checkSupplied seen supplied = .ok () ↔
      (∀ id ∈ supplied, id ∈ p.inputs.map (·.id)) ∧ supplied.Nodup ∧
        ∀ id ∈ supplied, id ∉ seen := by
  induction supplied generalizing seen with
  | nil => simp [checkSupplied]
  | cons id rest ih =>
    rw [checkSupplied]
    by_cases hdeclared : p.input? id = none
    · have hnot := (p.input?_eq_none_iff id).mp hdeclared
      simp only [hdeclared, if_true, reduceCtorEq, false_iff]
      intro h
      exact hnot (h.1 id List.mem_cons_self)
    · have hmem : id ∈ p.inputs.map (·.id) :=
        not_not.mp (mt (p.input?_eq_none_iff id).mpr hdeclared)
      by_cases hseen : id ∈ seen
      · simp only [hdeclared, hseen, if_false, if_true, reduceCtorEq, false_iff]
        intro h
        exact h.2.2 id List.mem_cons_self hseen
      · rw [if_neg hdeclared, if_neg hseen, ih]
        rw [List.forall_mem_cons, List.forall_mem_cons, List.nodup_cons]
        constructor
        · rintro ⟨hall, hnodup, hnew⟩
          exact ⟨⟨hmem, hall⟩, ⟨fun h => hnew id h List.mem_cons_self, hnodup⟩, hseen,
            fun x hx h => hnew x hx (List.mem_cons_of_mem id h)⟩
        · rintro ⟨⟨-, hall⟩, ⟨hid, hnodup⟩, -, hnew⟩
          refine ⟨hall, hnodup, fun x hx h => ?_⟩
          rcases List.mem_cons.mp h with rfl | h
          · exact hid hx
          · exact hnew x hx h

lemma find?_unsupplied_eq_none_iff (p : Program) (supplied : List TensorId) :
    p.inputs.find? (fun i => !supplied.contains i.id) = none ↔
      ∀ id ∈ p.inputs.map (·.id), id ∈ supplied := by
  simp

/-- Inputs are bound exactly if they are the declared ones, each supplied once. -/
theorem checkBindings_eq_ok_iff (p : Program) (supplied : List TensorId) :
    p.checkBindings supplied = .ok () ↔ p.SuppliedBy supplied := by
  have hbound : p.checkBindings supplied = .ok () ↔
      p.checkSupplied [] supplied = .ok () ∧
        p.inputs.find? (fun i => !supplied.contains i.id) = none := by
    rw [checkBindings, Except.bind_eq_ok_iff]
    cases p.inputs.find? (fun i => !supplied.contains i.id) with
    | none => exact ⟨fun ⟨_, h, _⟩ => ⟨h, rfl⟩, fun ⟨h, _⟩ => ⟨(), h, rfl⟩⟩
    | some i => simp
  rw [hbound, checkSupplied_eq_ok_iff, find?_unsupplied_eq_none_iff]
  constructor
  · rintro ⟨⟨hdeclared, hnodup, -⟩, hall⟩
    exact ⟨hnodup, fun id => ⟨hdeclared id, hall id⟩⟩
  · rintro ⟨hnodup, hsame⟩
    exact ⟨⟨fun id => (hsame id).mp, hnodup, by simp⟩, fun id => (hsame id).mpr⟩

lemma suppliedBy_of_accept {p : Program} {cfg : RunConfig} {supplied : List TensorId}
    (h : p.accept cfg supplied = .ok ()) : p.SuppliedBy supplied := by
  unfold accept at h
  split at h
  · cases h
  · split at h
    · cases h
    · next hbound => exact (p.checkBindings_eq_ok_iff supplied).mp hbound

end Program

namespace Pool

/-- The pool of handles that were introduced under their identifiers, all on the host side. -/
def ofInputs (inputs : List (TensorId × η)) : Pool η :=
  ⟨inputs.map fun input => ⟨input.1, input.2, .host⟩, []⟩

lemma ids_ofInputs (inputs : List (TensorId × η)) :
    (ofInputs inputs).ids = inputs.map Prod.fst := by
  simp [ofInputs, ids, Function.comp_def]

lemma isKnown_introduce (p : Pool η) (id x : TensorId) (handle : η) (side : Residence) :
    (p.introduce id handle side).isKnown x = (p.isKnown x || id == x) := by
  simp only [isKnown, contains, find?_introduce, fate?_introduce]
  cases p.find? x <;> by_cases h : id = x <;> simp [h]

lemma bindInputs_of_fresh (inputs : List (TensorId × η)) (p : Pool η)
    (hnodup : (inputs.map Prod.fst).Nodup) (hfresh : ∀ input ∈ inputs, p.isKnown input.1 = false) :
    bindInputs inputs p =
      (.ok (), ⟨p.live ++ (ofInputs inputs).live, p.retired⟩) := by
  induction inputs generalizing p with
  | nil => simp [bindInputs, ofInputs]
  | cons input inputs ih =>
    obtain ⟨id, handle⟩ := input
    simp only [List.map_cons, List.nodup_cons, List.forall_mem_cons] at hnodup hfresh
    have hrest := ih (p.introduce id handle .host) hnodup.2 (by
      intro input hinput
      have hne : id ≠ input.1 := by
        rintro rfl
        exact hnodup.1 (List.mem_map_of_mem hinput)
      simp [isKnown_introduce, hfresh.2 input hinput, hne])
    rw [bindInputs, insert_of_fresh hfresh.1]
    simp only [hrest]
    simp [introduce, ofInputs]

/-- A new pool takes all handles that are supplied under different identifiers. -/
theorem bindInputs_of_nodup (inputs : List (TensorId × η))
    (hnodup : (inputs.map Prod.fst).Nodup) :
    bindInputs inputs .empty = (.ok (), ofInputs inputs) := by
  rw [bindInputs_of_fresh inputs .empty hnodup (fun _ _ => rfl)]
  rfl

/-- Either every input is new to the pool, or one of them is refused as a duplicate. -/
lemma bindInputs_cases (inputs : List (TensorId × η)) (p : Pool η) :
    ((inputs.map Prod.fst).Nodup ∧ ∀ input ∈ inputs, p.isKnown input.1 = false) ∨
      ∃ id q, bindInputs inputs p = (.error (.duplicateIdentifier id), q) := by
  induction inputs generalizing p with
  | nil => exact .inl ⟨List.nodup_nil, by simp⟩
  | cons input inputs ih =>
    obtain ⟨id, handle⟩ := input
    cases hknown : p.isKnown id with
    | true => exact .inr ⟨id, p, by simp [bindInputs, insert, ensureFresh, hknown, bind, Except.bind]⟩
    | false =>
      rcases ih (p.introduce id handle .host) with ⟨hnodup, hfresh⟩ | ⟨x, q, hrefused⟩
      · simp only [isKnown_introduce, Bool.or_eq_false_iff, beq_eq_false_iff_ne] at hfresh
        refine .inl ⟨?_, List.forall_mem_cons.mpr ⟨hknown, fun other h => (hfresh other h).1⟩⟩
        rw [List.map_cons, List.nodup_cons]
        refine ⟨fun hmem => ?_, hnodup⟩
        obtain ⟨other, hother, hid⟩ := List.mem_map.mp hmem
        exact (hfresh other hother).2 hid.symm
      · exact .inr ⟨x, q, by simp [bindInputs, insert_of_fresh hknown, hrefused]⟩

lemma find?_ofInputs (inputs : List (TensorId × η)) (id : TensorId) :
    (ofInputs inputs).find? id =
      (inputs.find? (·.1 == id)).map fun input => ⟨input.1, input.2, .host⟩ := by
  simp only [ofInputs, find?, List.find?_map]
  rfl

lemma find?_of_mem {inputs : List (TensorId × η)} (hnodup : (inputs.map Prod.fst).Nodup)
    {input : TensorId × η} (hmem : input ∈ inputs) : inputs.find? (·.1 == input.1) = some input := by
  induction inputs with
  | nil => cases hmem
  | cons first inputs ih =>
    simp only [List.map_cons, List.nodup_cons] at hnodup
    rcases List.mem_cons.mp hmem with rfl | hmem
    · simp
    · have hne : first.1 ≠ input.1 := by
        intro h
        exact hnodup.1 (h ▸ List.mem_map_of_mem hmem)
      simpa [hne] using ih hnodup.2 hmem

/-- Pools of inputs are alike if corresponding handles were introduced under the same identifiers,
in whatever order. -/
theorem alike_ofInputs (f : η → θ) {inputs : List (TensorId × η)} {others : List (TensorId × θ)}
    (hothers : (others.map Prod.fst).Nodup)
    (hsub : ∀ input ∈ inputs, (input.1, f input.2) ∈ others)
    (hids : ∀ id ∈ others.map Prod.fst, id ∈ inputs.map Prod.fst) :
    Alike f (ofInputs inputs) (ofInputs others) where
  find? id := by
    rw [find?_ofInputs, find?_ofInputs]
    cases hfind : inputs.find? (·.1 == id) with
    | none =>
      have hout : id ∉ others.map Prod.fst := by
        intro hid
        obtain ⟨input, hmem, rfl⟩ := List.mem_map.mp (hids id hid)
        simpa using List.find?_eq_none.mp hfind input hmem
      have hnone : others.find? (·.1 == id) = none := by
        rw [List.find?_eq_none]
        intro other hother h
        have hid : other.1 = id := by simpa using h
        exact hout (hid ▸ List.mem_map_of_mem hother)
      rw [hnone]
      rfl
    | some input =>
      have hid : input.1 = id := by simpa using List.find?_some hfind
      have hmem := hsub input (List.mem_of_find?_eq_some hfind)
      have hother := find?_of_mem hothers hmem
      simp only [hid] at hother
      rw [hother]
      simp [Entry.map, hid]
  fate? _ := rfl

end Pool

namespace Program

/-- The declared inputs as handles of the device whose handles are types. -/
def declared (p : Program) : List (TensorId × TensorType) := p.inputs.map fun i => (i.id, i.type)

lemma map_fst_declared (p : Program) : p.declared.map Prod.fst = p.inputs.map (·.id) := by
  simp [declared, Function.comp_def]

lemma declare_eq_bindInputs (inputs : List Input) (p : Pool TensorType) :
    declare p inputs =
      match Pool.bindInputs (inputs.map fun i => (i.id, i.type)) p with
      | (.ok (), q) => .ok q
      | (.error (.duplicateIdentifier id), _) => .error (.protocol (.duplicateInput id))
      | (.error e, _) => .error (.ofPool e) := by
  induction inputs generalizing p with
  | nil => rfl
  | cons i inputs ih =>
    rw [declare, List.map_cons, Pool.bindInputs]
    cases p.insert i.id i.type (.resident .host) with
    | ok q => exact ih q
    | error e => cases e <;> rfl

lemma declare_of_nodup (p : Program) (hdeclared : (p.inputs.map (·.id)).Nodup) :
    declare .empty p.inputs = .ok (.ofInputs p.declared) := by
  have hdeclare := declare_eq_bindInputs p.inputs .empty
  rw [← declared, Pool.bindInputs_of_nodup p.declared (p.map_fst_declared ▸ hdeclared)] at hdeclare
  exact hdeclare

/-- The declared identifiers differ, or one of them is refused as a repeated declaration. -/
theorem nodup_or_declare_eq_error (p : Program) :
    (p.inputs.map (·.id)).Nodup ∨
      ∃ id, declare .empty p.inputs = .error (.protocol (.duplicateInput id)) := by
  have hdeclare := declare_eq_bindInputs p.inputs .empty
  rw [← declared] at hdeclare
  rcases Pool.bindInputs_cases p.declared .empty with ⟨hnodup, -⟩ | ⟨id, q, hrefused⟩
  · exact .inl (p.map_fst_declared ▸ hnodup)
  · rw [hrefused] at hdeclare
    exact .inr ⟨id, hdeclare⟩

end Program

end TensorMachine
