import TensorMachine.Proofs.Lifecycle
import Mathlib.Logic.Relation

/-!
# Trails of successors

A transfer under another identifier consumes the one that it reads, and its successor is remembered.
A pool takes any successor. Still the successors of an identifier lead somewhere: a step consumes an
identifier only together with the introduction of its successor, which was unused before, and what
is freed or consumed stays so. Thus a trail of successors is only ever made longer, at its end, by an
identifier that is on no trail yet.
-/

namespace TensorMachine

namespace Standing

/-- The successors of an identifier, one after the other, up to one that is live or freed. -/
inductive Trail (standing : TensorId → Standing) : TensorId → List TensorId → TensorId → Prop
  | live {id : TensorId} {side : Residence} (h : standing id = .live side) : Trail standing id [] id
  | freed {id : TensorId} (h : standing id = .freed) : Trail standing id [] id
  | consumed {id successor stop : TensorId} {path : List TensorId}
    (h : standing id = .consumed successor) (rest : Trail standing successor path stop) :
    Trail standing id (successor :: path) stop

/-- What a step does to the standings of identifiers. -/
inductive Step (standing : TensorId → Standing) : (TensorId → Standing) → Prop
  | stay : Step standing standing
  | introduce {id : TensorId} (side : Residence) (hnew : standing id = .unused) :
    Step standing (Function.update standing id (.live side))
  | move {id : TensorId} {side : Residence} (side' : Residence) (hlive : standing id = .live side) :
    Step standing (Function.update standing id (.live side'))
  | rename {id output : TensorId} {side : Residence} (side' : Residence)
    (hlive : standing id = .live side) (hnew : standing output = .unused) :
    Step standing
      (Function.update (Function.update standing id (.consumed output)) output (.live side'))
  | free {id : TensorId} {side : Residence} (hlive : standing id = .live side) :
    Step standing (Function.update standing id .freed)

/-- What was freed or consumed is so for good. -/
structure Lasting (standing standing' : TensorId → Standing) : Prop where
  freed : ∀ {id}, standing id = .freed → standing' id = .freed
  consumed : ∀ {id successor}, standing id = .consumed successor →
    standing' id = .consumed successor

variable {standing standing' : TensorId → Standing} {id stop : TensorId} {path : List TensorId}

/-!
### Trails
-/

namespace Trail

/-- There is one way to follow the successors of an identifier. -/
lemma unique (h : Trail standing id path stop) {path' : List TensorId} {stop' : TensorId}
    (h' : Trail standing id path' stop') : path = path' ∧ stop = stop' := by
  induction h generalizing path' with
  | live h | freed h =>
    cases h' with
    | live | freed => exact ⟨rfl, rfl⟩
    | consumed h' => cases h.symm.trans h'
  | consumed h _ ih =>
    cases h' with
    | live h' | freed h' => cases h.symm.trans h'
    | consumed h' rest' =>
      cases h.symm.trans h'
      obtain ⟨rfl, rfl⟩ := ih rest'
      exact ⟨rfl, rfl⟩

lemma stop_live_or_freed (h : Trail standing id path stop) :
    (∃ side, standing stop = .live side) ∨ standing stop = .freed := by
  induction h with
  | live h => exact .inl ⟨_, h⟩
  | freed h => exact .inr h
  | consumed _ _ ih => exact ih

lemma used (h : Trail standing id path stop) : ∀ x ∈ id :: path, standing x ≠ .unused := by
  induction h with
  | live h | freed h => simp [h]
  | consumed h _ ih =>
    rw [List.forall_mem_cons]
    exact ⟨by simp [h], ih⟩

lemma stop_mem (h : Trail standing id path stop) : stop ∈ id :: path := by
  induction h with
  | live | freed => exact List.mem_cons_self
  | consumed _ _ ih => exact List.mem_cons_of_mem _ ih

/-- A trail that is there leads on as its end does. -/
lemma append (h : Trail standing id path stop) (hlasting : Lasting standing standing')
    {more : List TensorId} {stop' : TensorId} (hmore : Trail standing' stop more stop') :
    Trail standing' id (path ++ more) stop' := by
  induction h with
  | live | freed => exact hmore
  | consumed h _ ih => exact .consumed (hlasting.consumed h) (ih hmore)

lemma kept (h : Trail standing id path stop) (hlasting : Lasting standing standing')
    (hstop : Trail standing' stop [] stop) : Trail standing' id path stop := by
  have hsame := h.append hlasting hstop
  rwa [List.append_nil] at hsame

end Trail

/-!
### Steps
-/

namespace Step

lemma lasting (h : Step standing standing') : Lasting standing standing' := by
  constructor <;> intro id <;> cases h <;> grind [Function.update_apply]

lemma of_live (h : Step standing standing') {side : Residence} (hlive : standing id = .live side) :
    (∃ side', standing' id = .live side') ∨ standing' id = .freed ∨
      ∃ output side', standing output = .unused ∧ standing' id = .consumed output ∧
        standing' output = .live side' := by
  cases h <;> grind [Function.update_apply]

lemma of_unused (h : Step standing standing') (hnew : standing id = .unused) :
    standing' id = .unused ∨ ∃ side, standing' id = .live side := by
  cases h <;> grind [Function.update_apply]

lemma eq_of_consumed (h : Step standing standing') {id' output output' : TensorId}
    {side side' : Residence} (hlive : standing id = .live side)
    (hlive' : standing id' = .live side') (hgone : standing' id = .consumed output)
    (hgone' : standing' id' = .consumed output') : id = id' := by
  cases h <;> grind [Function.update_apply]

/-- A step leaves a trail as it is, or the end of the trail is consumed by an unused identifier. -/
lemma extends_trail (h : Step standing standing') (htrail : Trail standing id path stop) :
    Trail standing' id path stop ∨
      ∃ output side, standing output = .unused ∧ standing stop = .live side ∧
        standing' stop = .consumed output ∧ Trail standing' id (path ++ [output]) output := by
  rcases htrail.stop_live_or_freed with ⟨side, hlive⟩ | hfreed
  · rcases h.of_live hlive with ⟨side', hstays⟩ | hfreed | ⟨output, side', hnew, hgone, houtput⟩
    · exact .inl (htrail.kept h.lasting (.live hstays))
    · exact .inl (htrail.kept h.lasting (.freed hfreed))
    · exact .inr ⟨output, side, hnew, hlive, hgone,
        htrail.append h.lasting (.consumed hgone (.live houtput))⟩
  · exact .inl (htrail.kept h.lasting (.freed (h.lasting.freed hfreed)))

end Step

/-- From every identifier that is not unused there is a trail, and it repeats no identifier. -/
def Grounded (standing : TensorId → Standing) : Prop :=
  ∀ id, standing id ≠ .unused → ∃ path stop, Trail standing id path stop ∧ (id :: path).Nodup

lemma Grounded.step (hground : Grounded standing) (h : Step standing standing') :
    Grounded standing' := by
  intro id hused
  by_cases hnew : standing id = .unused
  · rcases h.of_unused hnew with hunused | ⟨side, hlive⟩
    · exact absurd hunused hused
    · exact ⟨[], id, .live hlive, List.nodup_singleton id⟩
  · obtain ⟨path, stop, htrail, hnodup⟩ := hground id hnew
    rcases h.extends_trail htrail with hsame | ⟨output, side, houtput, -, -, hlonger⟩
    · exact ⟨path, stop, hsame, hnodup⟩
    · refine ⟨path ++ [output], output, hlonger, ?_⟩
      have hfresh : output ∉ id :: path := fun hmem => htrail.used output hmem houtput
      rw [← List.cons_append, ← List.concat_eq_append]
      exact hnodup.concat hfresh

lemma Grounded.steps (hground : Grounded standing)
    (h : Relation.ReflTransGen Step standing standing') : Grounded standing' := by
  induction h with
  | refl => exact hground
  | tail _ hstep ih => exact ih.step hstep

lemma Trail.exists_of_steps (h : Relation.ReflTransGen Step standing standing')
    {side : Residence} (hlive : standing id = .live side) :
    ∃ path stop, Trail standing' id path stop := by
  induction h with
  | refl => exact ⟨[], id, .live hlive⟩
  | tail _ hstep ih =>
    obtain ⟨path, stop, htrail⟩ := ih
    rcases hstep.extends_trail htrail with hsame | ⟨output, -, -, -, -, hlonger⟩
    · exact ⟨path, stop, hsame⟩
    · exact ⟨path ++ [output], output, hlonger⟩

/-- Trails of different live identifiers never come together. -/
lemma Trail.apart (h : Relation.ReflTransGen Step standing standing') {id' : TensorId}
    {side side' : Residence} (hlive : standing id = .live side)
    (hlive' : standing id' = .live side') {path' : List TensorId}
    (htrail : Trail standing' id path stop) (htrail' : Trail standing' id' path' stop) :
    id = id' := by
  induction h generalizing path path' stop with
  | refl => exact (htrail.unique (.live hlive)).2.symm.trans (htrail'.unique (.live hlive')).2
  | tail hsteps hstep ih =>
    obtain ⟨before, last, hbefore⟩ := exists_of_steps hsteps hlive
    obtain ⟨before', last', hbefore'⟩ := exists_of_steps hsteps hlive'
    have hmeet : last = last' := by
      rcases hstep.extends_trail hbefore with hsame | ⟨output, _, hnew, hend, hgone, hlonger⟩
      · obtain ⟨-, rfl⟩ := htrail.unique hsame
        rcases hstep.extends_trail hbefore' with hsame' | ⟨output', _, hnew', -, -, hlonger'⟩
        · exact (htrail'.unique hsame').2
        · obtain ⟨-, rfl⟩ := htrail'.unique hlonger'
          exact absurd hnew' (hbefore.used _ hbefore.stop_mem)
      · obtain ⟨-, rfl⟩ := htrail.unique hlonger
        rcases hstep.extends_trail hbefore' with hsame' | ⟨output', _, -, hend', hgone', -⟩
        · obtain ⟨-, rfl⟩ := htrail'.unique hsame'
          exact absurd hnew (hbefore'.used _ hbefore'.stop_mem)
        · exact hstep.eq_of_consumed hend hend' hgone hgone'
    rw [← hmeet] at hbefore'
    exact ih hbefore hbefore'

end Standing

/-!
### Trails in a pool
-/

namespace Pool

variable {η : Type}

/-- No identifier that left the pool is live. -/
def Parted (p : Pool η) : Prop := ∀ id fate, p.fate? id = some fate → p.find? id = none

variable {p : Pool η}

lemma Parted.introduce (h : p.Parted) {output : TensorId} (hnew : p.fate? output = none)
    (handle : η) (side : Residence) : (p.introduce output handle side).Parted := by
  intro id fate hfate
  rw [fate?_introduce] at hfate
  have hne : output ≠ id := by
    rintro rfl
    cases hnew.symm.trans hfate
  rw [find?_introduce, h id fate hfate, if_neg hne]
  rfl

lemma Parted.place (h : p.Parted) (id : TensorId) (handle : η) (side : Residence) :
    (p.place id handle side).Parted := by
  intro x fate hfate
  have hnone := h x fate hfate
  rw [find?_place, hnone, Option.map_none, ite_self]

lemma Parted.retire (h : p.Parted) (id : TensorId) (fate : Fate) : (p.retire id fate).Parted := by
  intro x found hfate
  rw [fate?_retire] at hfate
  rw [find?_retire]
  by_cases hx : id = x
  · exact if_pos hx
  · rw [if_neg hx] at hfate ⊢
    exact h x found hfate

/-- The trails in a pool go along the successors that it remembers. -/
lemma Parted.trail_of_consumed (h : p.Parted) (hground : Standing.Grounded p.standing)
    {id successor : TensorId} (hfate : p.fate? id = some (.consumed successor)) :
    ∃ path stop, Standing.Trail p.standing id (successor :: path) stop ∧
      (id :: successor :: path).Nodup := by
  have hstanding : p.standing id = .consumed successor :=
    standing_of_fate? (h id _ hfate) hfate
  obtain ⟨path, stop, htrail, hnodup⟩ := hground id (by simp [hstanding])
  cases htrail with
  | live hother | freed hother => cases hstanding.symm.trans hother
  | consumed hconsumed rest =>
    cases hstanding.symm.trans hconsumed
    exact ⟨_, stop, .consumed hstanding rest, hnodup⟩

lemma parted_ofInputs (inputs : List (TensorId × η)) : (ofInputs inputs).Parted := by
  intro id fate hfate
  cases hfate

lemma grounded_ofInputs (inputs : List (TensorId × η)) :
    Standing.Grounded (ofInputs inputs).standing := by
  intro id hused
  have hfate : (ofInputs inputs).fate? id = none := rfl
  cases hfind : (ofInputs inputs).find? id with
  | some e => exact ⟨[], id, .live (standing_of_find? hfind), List.nodup_singleton id⟩
  | none =>
    have hunused : (ofInputs inputs).standing id = .unused :=
      standing_eq_unused_iff.mpr ((isKnown_eq_false_iff _ id).mpr ⟨hfind, hfate⟩)
    exact absurd hunused hused

end Pool

namespace Machine

variable {σ η : Type}

/-- What a machine does to the standings in its pool, whether the instruction goes through or
fails. -/
theorem standing_steps (P : Provider σ η) (i : Instruction) (m : Machine σ η) :
    Standing.Step m.pool.standing (m.step P i).2.pool.standing := by
  rcases step_cases P i m with ⟨m', hstep, hpasses⟩ | ⟨e, m', hstep, hstops⟩ <;> rw [hstep]
  · rw [hpasses.standing]
    cases hpasses with
    | allocate hfresh | compute _ _ hfresh =>
      exact .introduce _ (Pool.standing_eq_unused_iff.mpr hfresh)
    | @transfer destination entry target handle s hfind _ hfresh =>
      have hlive := Pool.standing_of_find? hfind
      cases target with
      | inPlace => exact .move destination hlive
      | renamed output =>
        have hnew := Pool.standing_eq_unused_iff.mpr (hfresh output (by simp [Target.ids]))
        exact .rename destination hlive hnew
    | deallocate hfind => exact .free (Pool.standing_of_find? hfind)
  · cases hstops with
    | plan | allocate | compute => exact .stay
    | transfer hfind =>
      rw [Pool.standing_place_self hfind]
      exact .stay
    | deallocate hfind =>
      rw [Pool.standing_retire]
      exact .free (Pool.standing_of_find? hfind)

lemma parted_step (P : Provider σ η) (i : Instruction) {m : Machine σ η} (h : m.pool.Parted) :
    (m.step P i).2.pool.Parted := by
  rcases step_cases P i m with ⟨m', hstep, hpasses⟩ | ⟨e, m', hstep, hstops⟩ <;> rw [hstep]
  · cases hpasses with
    | allocate hfresh | compute _ _ hfresh =>
      exact h.introduce ((Pool.isKnown_eq_false_iff _ _).mp hfresh).2 _ _
    | @transfer destination entry target handle s hfind _ hfresh =>
      cases target with
      | inPlace => exact h.place _ _ _
      | renamed output =>
        obtain ⟨hfindNew, hfateNew⟩ :=
          (Pool.isKnown_eq_false_iff _ _).mp (hfresh output (by simp [Target.ids]))
        have hne : entry.id ≠ output := by
          rintro rfl
          cases hfind.symm.trans hfindNew
        refine (h.retire entry.id (.consumed output)).introduce ?_ handle destination
        rw [Pool.fate?_retire, if_neg hne, hfateNew]
    | deallocate => exact h.retire _ _
  · cases hstops with
    | plan | allocate | compute => exact h
    | transfer => exact h.place _ _ _
    | deallocate => exact h.retire _ _

end Machine

end TensorMachine
