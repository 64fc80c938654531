import TensorMachine.Proofs.CallOrder
import Mathlib.Data.List.Induction

/-!
# Inputs that are declared twice

A program may declare an input under an identifier that it has declared before. Verification
refuses such a program. The binding of inputs does not: it compares the supplied identifiers with
the declared ones and does not count the declarations. So a run without verification rejects the
program only for what is supplied to it, and otherwise takes the course of the program that
declares each of its inputs once.
-/

namespace TensorMachine

variable {σ η : Type}

/-- A list that repeats an element has a first element that repeats one in front of it. -/
lemma exists_first_repeated {α : Type} {l : List α} (h : ¬l.Nodup) :
    ∃ before a after, l = before ++ a :: after ∧ before.Nodup ∧ a ∈ before := by
  induction l using List.reverseRecOn with
  | nil => exact absurd List.nodup_nil h
  | append_singleton front last ih =>
    by_cases hfront : front.Nodup
    · refine ⟨front, last, [], rfl, hfront, ?_⟩
      by_contra hnew
      exact h (List.nodup_append_comm.mp (List.nodup_cons.mpr ⟨hnew, hfront⟩))
    · obtain ⟨before, a, after, rfl, hbefore, ha⟩ := ih hfront
      exact ⟨before, a, after ++ [last], by simp, hbefore, ha⟩

lemma Pool.bindInputs_append (inputs more : List (TensorId × η)) {p q : Pool η}
    (h : bindInputs inputs p = (.ok (), q)) :
    bindInputs (inputs ++ more) p = bindInputs more q := by
  induction inputs generalizing p with
  | nil =>
    cases h
    rfl
  | cons input inputs ih =>
    obtain ⟨id, handle⟩ := input
    rw [List.cons_append, bindInputs]
    rw [bindInputs] at h
    cases hinsert : p.insert id handle (.resident .host) with
    | ok p' =>
      rw [hinsert] at h
      exact ih h
    | error e =>
      rw [hinsert] at h
      cases h

namespace Program

/-- The first declaration of each identifier, except for the identifiers `seen`. -/
def firstDeclarations (seen : List TensorId) : List Input → List Input
  | [] => []
  | i :: rest =>
    if i.id ∈ seen then firstDeclarations seen rest
    else i :: firstDeclarations (i.id :: seen) rest

/-- The program with only the first declaration of each identifier. -/
def declaredOnce (p : Program) : Program :=
  { p with inputs := firstDeclarations [] p.inputs }

lemma mem_ids_firstDeclarations (seen : List TensorId) (inputs : List Input) (id : TensorId) :
    id ∈ (firstDeclarations seen inputs).map (·.id) ↔ id ∈ inputs.map (·.id) ∧ id ∉ seen := by
  induction inputs generalizing seen with
  | nil => simp [firstDeclarations]
  | cons i rest ih =>
    rw [firstDeclarations]
    by_cases hseen : i.id ∈ seen
    · rw [if_pos hseen, ih, List.map_cons, List.mem_cons]
      grind
    · rw [if_neg hseen, List.map_cons, List.map_cons, List.mem_cons, List.mem_cons, ih]
      grind

lemma nodup_ids_firstDeclarations (seen : List TensorId) (inputs : List Input) :
    ((firstDeclarations seen inputs).map (·.id)).Nodup := by
  induction inputs generalizing seen with
  | nil => exact List.nodup_nil
  | cons i rest ih =>
    rw [firstDeclarations]
    by_cases hseen : i.id ∈ seen
    · rw [if_pos hseen]
      exact ih seen
    · rw [if_neg hseen, List.map_cons, List.nodup_cons]
      refine ⟨fun hmem => ?_, ih (i.id :: seen)⟩
      exact ((mem_ids_firstDeclarations _ rest i.id).mp hmem).2 List.mem_cons_self

lemma suppliedBy_declaredOnce_iff (p : Program) (supplied : List TensorId) :
    p.declaredOnce.SuppliedBy supplied ↔ p.SuppliedBy supplied := by
  have hids : ∀ id, id ∈ p.declaredOnce.inputs.map (·.id) ↔ id ∈ p.inputs.map (·.id) := by
    intro id
    rw [declaredOnce, mem_ids_firstDeclarations]
    simp
  simp only [SuppliedBy, hids]

/-!
### Verification
-/

lemma declare_of_repeated {inputs : List Input} {before after : List TensorId} {id : TensorId}
    (h : inputs.map (·.id) = before ++ id :: after) (hbefore : before.Nodup) (hid : id ∈ before) :
    declare .empty inputs = .error (.protocol (.duplicateInput id)) := by
  obtain ⟨front, rest, rfl, rfl, hrest⟩ := List.map_eq_append_iff.mp h
  obtain ⟨i, back, rfl, rfl, rfl⟩ := List.map_eq_cons_iff.mp hrest
  have hfront := Pool.bindInputs_of_nodup (front.map fun i => (i.id, i.type))
    (by simpa [Function.comp_def] using hbefore)
  rw [declare_eq_bindInputs, List.map_append, Pool.bindInputs_append _ _ hfront, List.map_cons,
    Pool.bindInputs]
  have hknown : (Pool.ofInputs (front.map fun i => (i.id, i.type))).isKnown i.id = true := by
    rw [Pool.isKnown, Bool.or_eq_true, Pool.contains_iff_mem_ids, Pool.ids_ofInputs]
    exact .inl (by simpa [Function.comp_def] using hid)
  simp [Pool.insert, Pool.ensureFresh, hknown, bind, Except.bind]

/-!
### Runs
-/

/-- The run fails for a breach of the protocol in front of its instructions. It executes none of
them, and all that it asks of the device is to take back what was supplied. -/
structure Rejected (P : Provider σ η) (cfg : RunConfig) (p : Program)
    (inputs : List (TensorId × η)) (s : σ) (cause : ProtocolError) : Prop where
  status : (p.run P cfg inputs s).1.status = .failed ⟨none, .protocol cause⟩
  executed : (p.run P cfg inputs s).1.executed = 0
  calls : Releases cfg.forceTeardown inputs (p.calls P cfg inputs s)

lemma rejected_of_accept {P : Provider σ η} {cfg : RunConfig} {p : Program}
    {inputs : List (TensorId × η)} {s : σ} {cause : ProtocolError}
    (h : p.accept cfg (inputs.map Prod.fst) = .error ⟨none, .protocol cause⟩) :
    p.Rejected P cfg inputs s cause := by
  have hrun : p.run P cfg inputs s = reject P cfg ⟨none, .protocol cause⟩ [] inputs s := by
    simp only [run, h]
  refine ⟨by rw [hrun]; rfl, by rw [hrun]; rfl, ?_⟩
  unfold Program.calls run
  rw [h]
  exact calls_reject P cfg _ [] inputs s

lemma run_of_suppliedBy (P : Provider σ η) {cfg : RunConfig} {p : Program}
    {inputs : List (TensorId × η)} (s : σ) (hverify : cfg.verifyFirst = false)
    (h : p.SuppliedBy (inputs.map Prod.fst)) :
    p.run P cfg inputs s = p.execute P cfg (.ofInputs inputs) s := by
  have hcheck := (p.checkBindings_eq_ok_iff _).mpr h
  have haccept : p.accept cfg (inputs.map Prod.fst) = .ok () := by
    simp [accept, screen, hverify, hcheck]
  simp only [run, haccept, Pool.bindInputs_of_nodup inputs h.1]

/-- What a program that declares an identifier twice comes to. With verification it is rejected, and
the first repeated declaration is the cause. Without it is rejected if the declared identifiers are
not supplied once each. If they are, it runs like the program that declares each identifier
once. -/
theorem run_of_repeated_declaration (P : Provider σ η) (cfg : RunConfig) (p : Program)
    (hrepeated : ¬(p.inputs.map (·.id)).Nodup) (inputs : List (TensorId × η)) (s : σ) :
    (cfg.verifyFirst = true → ∃ before id after, p.inputs.map (·.id) = before ++ id :: after ∧
      before.Nodup ∧ id ∈ before ∧ p.Rejected P cfg inputs s (.duplicateInput id)) ∧
    (cfg.verifyFirst = false → ¬p.SuppliedBy (inputs.map Prod.fst) →
      ∃ cause, p.checkBindings (inputs.map Prod.fst) = .error cause ∧
        p.Rejected P cfg inputs s cause) ∧
    (cfg.verifyFirst = false → p.SuppliedBy (inputs.map Prod.fst) →
      (p.declaredOnce.inputs.map (·.id)).Nodup ∧
        p.run P cfg inputs s = p.declaredOnce.run P cfg inputs s ∧
        p.calls P cfg inputs s = p.declaredOnce.calls P cfg inputs s) := by
  refine ⟨fun hverify => ?_, fun hverify hsupplied => ?_, fun hverify hsupplied => ?_⟩
  · obtain ⟨before, id, after, hids, hbefore, hid⟩ := exists_first_repeated hrepeated
    refine ⟨before, id, after, hids, hbefore, hid, rejected_of_accept ?_⟩
    simp only [accept, screen, hverify, if_true, verify, declare_of_repeated hids hbefore hid]
  · cases hcheck : p.checkBindings (inputs.map Prod.fst) with
    | ok _ => exact absurd ((p.checkBindings_eq_ok_iff _).mp hcheck) hsupplied
    | error cause =>
      refine ⟨cause, rfl, rejected_of_accept ?_⟩
      simp [accept, screen, hverify, hcheck]
  · have honce := (p.suppliedBy_declaredOnce_iff _).mpr hsupplied
    refine ⟨nodup_ids_firstDeclarations [] p.inputs, ?_, ?_⟩
    · rw [run_of_suppliedBy P s hverify hsupplied, run_of_suppliedBy P s hverify honce]
      rfl
    · unfold Program.calls
      rw [run_of_suppliedBy _ _ hverify hsupplied, run_of_suppliedBy _ _ hverify honce]
      rfl

/-- A program that declares an identifier twice, with two types: rejected with verification, and
without it if another identifier is supplied. -/
theorem run_of_repeated_declaration_types :
    let p : Program := ⟨[⟨5, ⟨.u8, [1]⟩⟩, ⟨5, ⟨.f32, [2]⟩⟩], [5], []⟩
    ¬(p.inputs.map (·.id)).Nodup ∧
      (∃ id, p.Rejected .symbolic { verifyFirst := true } [(5, ⟨.u8, [1]⟩)] () (.duplicateInput id)) ∧
      ¬p.SuppliedBy [6] ∧ ∃ cause, p.Rejected .symbolic {} [(6, ⟨.u8, [1]⟩)] () cause := by
  intro p
  have hrepeated : ¬(p.inputs.map (·.id)).Nodup := by decide
  have hsupplied : ¬p.SuppliedBy [6] := by
    rw [← checkBindings_eq_ok_iff]
    exact nofun
  have hverified := (run_of_repeated_declaration .symbolic { verifyFirst := true } p hrepeated
    [(5, ⟨.u8, [1]⟩)] ()).1 rfl
  have hplain := (run_of_repeated_declaration .symbolic {} p hrepeated
    [(6, ⟨.u8, [1]⟩)] ()).2.1 rfl hsupplied
  obtain ⟨-, id, -, -, -, -, hrejected⟩ := hverified
  obtain ⟨cause, -, hrejected'⟩ := hplain
  exact ⟨hrepeated, ⟨id, hrejected⟩, hsupplied, cause, hrejected'⟩

/-- A program that declares an identifier twice is refused by verification, but the binding of
inputs accepts a single supplied tensor. Without verification the run completes, and it moves the
tensor to the device before it releases it. -/
theorem repeated_declaration_runs :
    let p : Program := ⟨[⟨5, ⟨.u8, [1]⟩⟩, ⟨5, ⟨.u8, [1]⟩⟩], [], [.transfer .device 5 .inPlace]⟩
    let made := (HostDevice.new 64 64).hostTensor ⟨.u8, [1]⟩ [7]
    let t : HostTensor := ⟨⟨1, ⟨.u8, [1]⟩, .host⟩, [7]⟩
    let moved : HostTensor := { t with location := .device }
    let answer := p.run HostDevice.provider {} [(5, t)] made.2
    ¬(p.inputs.map (·.id)).Nodup ∧ made.1 = .ok t ∧
      p.verify = .error ⟨none, .protocol (.duplicateInput 5)⟩ ∧ p.checkBindings [5] = .ok () ∧
      answer.1.status = .completed ∧ answer.1.executed = 1 ∧
      p.calls HostDevice.provider {} [(5, t)] made.2 =
        [.transfer .device t (.ok ()) moved, .release moved true (.ok ())] := by
  intro p made t moved answer
  exact ⟨by decide, rfl, rfl, rfl, rfl, rfl, rfl⟩

end Program

end TensorMachine
