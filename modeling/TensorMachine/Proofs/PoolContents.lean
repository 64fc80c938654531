import TensorMachine.Machine.Run
import TensorMachine.Proofs.Steps

/-!
# The contents of a pool

The live identifiers of a pool differ from each other, so that every change of a pool touches one
live tensor. What a change does to the handles in the pool is counted by their identities, up to
order: an introduction adds one, a retirement takes one away, and a move takes none.
-/

namespace TensorMachine

variable {η ι : Type}

namespace Pool

/-!
### Live identifiers
-/

lemma nodup_ids_introduce {p : Pool η} {id : TensorId} (hids : p.ids.Nodup)
    (hfresh : p.find? id = none) (handle : η) (side : Residence) :
    (p.introduce id handle side).ids.Nodup := by
  have hnew := (p.find?_eq_none_iff id).mp hfresh
  have hconcat : (p.introduce id handle side).ids = p.ids.concat id := by simp [ids, introduce]
  rw [hconcat]
  exact List.Nodup.concat hnew hids

lemma ids_place (p : Pool η) (id : TensorId) (handle : η) (side : Residence) :
    (p.place id handle side).ids = p.ids := by
  simp only [ids, place, List.map_map]
  apply List.map_congr_left
  intro e _
  by_cases h : e.id = id <;> simp [h]

lemma nodup_ids_retire {p : Pool η} (hids : p.ids.Nodup) (id : TensorId) (fate : Fate) :
    (p.retire id fate).ids.Nodup :=
  hids.sublist (List.filter_sublist.map _)

lemma map_fst_snapshot (p : Pool η) : p.snapshot.map Prod.fst = p.ids := by
  simp [snapshot, ids, Function.comp_def]

lemma eq_of_id {p : Pool η} (hids : p.ids.Nodup) {e e' : Entry η} (he : e ∈ p.live)
    (he' : e' ∈ p.live) (h : e.id = e'.id) : e = e' :=
  List.inj_on_of_nodup_map hids he he' h

lemma find?_of_mem_live {p : Pool η} (hids : p.ids.Nodup) {e : Entry η} (he : e ∈ p.live) :
    p.find? e.id = some e := by
  cases hfind : p.find? e.id with
  | none => exact absurd (List.mem_map_of_mem he) ((p.find?_eq_none_iff e.id).mp hfind)
  | some e' => rw [eq_of_id hids he (mem_of_find? hfind) (find?_id hfind).symm]

/-- A retirement takes away the one tensor with the identifier. -/
theorem live_perm_retire {p : Pool η} (hids : p.ids.Nodup) {e : Entry η} (he : e ∈ p.live)
    (fate : Fate) : p.live.Perm (e :: (p.retire e.id fate).live) :=
  perm_cons_filter_key hids he

/-- What is put in the place of a live tensor stands beside the others. -/
lemma live_place_perm {p : Pool η} (hids : p.ids.Nodup) {e : Entry η}
    (hfind : p.find? e.id = some e) (handle : η) (side : Residence) (fate : Fate) :
    (p.place e.id handle side).live.Perm
      (⟨e.id, handle, side⟩ :: (p.retire e.id fate).live) := by
  have hids' : (p.place e.id handle side).ids.Nodup := by rwa [ids_place]
  have hperm := live_perm_retire hids' (mem_of_find? (find?_placed hfind handle side)) fate
  rwa [retire_place] at hperm

lemma ids_retire (p : Pool η) (id : TensorId) (fate : Fate) :
    (p.retire id fate).ids = p.ids.filter (· != id) := by
  simp [ids, retire, List.filter_map, Function.comp_def]

/-!
### Holdings
-/

/-- The handles in a pool under their identifiers, in the order of introduction. -/
def holdings (p : Pool η) : List (TensorId × η) := p.live.map fun e => (e.id, e.handle)

lemma map_fst_holdings (p : Pool η) : p.holdings.map Prod.fst = p.ids := by
  simp [holdings, ids, Function.comp_def]

lemma mem_holdings_of_find? {p : Pool η} {e : Entry η} (h : p.find? e.id = some e) :
    (e.id, e.handle) ∈ p.holdings :=
  List.mem_map.mpr ⟨e, mem_of_find? h, rfl⟩

lemma holdings_introduce (p : Pool η) (id : TensorId) (handle : η) (side : Residence) :
    (p.introduce id handle side).holdings = p.holdings ++ [(id, handle)] := by
  simp [holdings, introduce]

lemma holdings_place (p : Pool η) (id : TensorId) (handle : η) (side : Residence) :
    (p.place id handle side).holdings =
      p.holdings.map fun t => if t.1 = id then (id, handle) else t := by
  simp only [holdings, place, List.map_map]
  apply List.map_congr_left
  intro e _
  by_cases h : e.id = id <;> simp [h]

lemma holdings_retire (p : Pool η) (id : TensorId) (fate : Fate) :
    (p.retire id fate).holdings = p.holdings.filter (·.1 != id) := by
  simp [holdings, retire, List.filter_map, Function.comp_def]

lemma holdings_perm_retire {p : Pool η} (hids : p.ids.Nodup) {e : Entry η}
    (hfind : p.find? e.id = some e) (fate : Fate) :
    p.holdings.Perm ((e.id, e.handle) :: (p.retire e.id fate).holdings) :=
  (live_perm_retire hids (mem_of_find? hfind) fate).map _

/-- Another handle takes the place of the one that an identifier has. -/
lemma holdings_perm_place {p : Pool η} (hids : p.ids.Nodup) {e : Entry η}
    (hfind : p.find? e.id = some e) (handle : η) (side : Residence) :
    ((e.id, e.handle) :: (p.place e.id handle side).holdings).Perm
      ((e.id, handle) :: p.holdings) := by
  have hold := holdings_perm_retire hids hfind .freed
  have hnew := (live_place_perm hids hfind handle side .freed).map fun e => (e.id, e.handle)
  exact ((hnew.cons _).trans (.swap _ _ _)).trans (hold.symm.cons _)

/-!
### Identities
-/

/-- The identities of the handles in a pool. -/
def identities (identity : η → ι) (p : Pool η) : List ι := p.live.map fun e => identity e.handle

variable (identity : η → ι)

lemma identities_introduce (p : Pool η) (id : TensorId) (handle : η) (side : Residence) :
    (p.introduce id handle side).identities identity =
      p.identities identity ++ [identity handle] := by
  simp [identities, introduce]

lemma identities_introduce_perm (p : Pool η) (id : TensorId) (handle : η) (side : Residence) :
    ((p.introduce id handle side).identities identity).Perm
      (identity handle :: p.identities identity) := by
  rw [identities_introduce]
  exact List.perm_append_singleton _ _

lemma identities_place {p : Pool η} (hids : p.ids.Nodup) {e : Entry η}
    (hfind : p.find? e.id = some e) {handle : η} (hsame : identity handle = identity e.handle)
    (side : Residence) :
    (p.place e.id handle side).identities identity = p.identities identity := by
  simp only [identities, place, List.map_map]
  apply List.map_congr_left
  intro x hx
  by_cases h : x.id = e.id
  · have hxe := eq_of_id hids hx (mem_of_find? hfind) h
    simp [hxe, hsame]
  · simp [h]

lemma identities_retire {p : Pool η} (hids : p.ids.Nodup) {e : Entry η}
    (hfind : p.find? e.id = some e) (fate : Fate) :
    (p.identities identity).Perm
      (identity e.handle :: (p.retire e.id fate).identities identity) :=
  (live_perm_retire hids (mem_of_find? hfind) fate).map _

lemma identities_place_perm {p : Pool η} (hids : p.ids.Nodup) {e : Entry η}
    (hfind : p.find? e.id = some e) (handle : η) (side : Residence) (fate : Fate) :
    ((p.place e.id handle side).identities identity).Perm
      (identity handle :: (p.retire e.id fate).identities identity) :=
  (live_place_perm hids hfind handle side fate).map _

lemma map_drain (p : Pool η) :
    p.drain.1.map (fun input => identity input.2) = p.identities identity := by
  simp [drain, identities, Function.comp_def]

lemma remove_eq_ok {p q : Pool η} {id : TensorId} {handle : η}
    (h : p.remove id = .ok (handle, q)) :
    ∃ e, p.find? e.id = some e ∧ e.id = id ∧ handle = e.handle ∧ q = p.retire e.id .freed := by
  obtain ⟨e, hcheck, hrest⟩ := Except.bind_eq_ok_iff.mp h
  have hfind := (checkTransition_eq_ok_iff.mp hcheck).1
  have hid := find?_id hfind
  cases hrest
  exact ⟨e, hid ▸ hfind, hid, rfl, by rw [hid]⟩

/-- Every live identifier can be freed, and no other one. -/
lemma remove_cases (p : Pool η) (id : TensorId) :
    (id ∉ p.ids ∧ ∃ cause, p.remove id = .error cause) ∨
      ∃ e, p.find? e.id = some e ∧ e.id = id ∧
        p.remove id = .ok (e.handle, p.retire e.id .freed) := by
  cases hfind : p.find? id with
  | none =>
    refine .inl ⟨(p.find?_eq_none_iff id).mp hfind, ?_⟩
    cases hremove : p.remove id with
    | error cause => exact ⟨cause, rfl⟩
    | ok removed =>
      obtain ⟨e, hlive, rfl, -⟩ := remove_eq_ok hremove
      cases hfind.symm.trans hlive
  | some e =>
    obtain rfl := find?_id hfind
    have hcheck : p.checkTransition e.id .freed = .ok e :=
      checkTransition_eq_ok_iff.mpr ⟨hfind, rfl⟩
    exact .inr ⟨e, hfind, rfl, by rw [remove, hcheck]; rfl⟩

lemma mem_map_fst_takeOutputs {outputs : List TensorId} {p : Pool η} {id : TensorId} :
    id ∈ (takeOutputs outputs p).1.map Prod.fst ↔ id ∈ outputs ∧ id ∈ p.ids := by
  induction outputs generalizing p with
  | nil => simp [takeOutputs]
  | cons output outputs ih =>
    rcases p.remove_cases output with ⟨hgone, cause, hremove⟩ | ⟨e, hfind, rfl, hremove⟩
    · simp only [takeOutputs, hremove, ih, List.mem_cons]
      constructor
      · exact fun h => ⟨.inr h.1, h.2⟩
      · rintro ⟨rfl | hid, hlive⟩
        · exact absurd hlive hgone
        · exact ⟨hid, hlive⟩
    · have hlive : e.id ∈ p.ids := List.mem_map_of_mem (mem_of_find? hfind)
      simp only [takeOutputs, hremove, List.map_cons, List.mem_cons, ih, ids_retire,
        List.mem_filter, bne_iff_ne]
      constructor
      · rintro (rfl | ⟨hid, hlive, -⟩)
        · exact ⟨.inl rfl, hlive⟩
        · exact ⟨.inr hid, hlive⟩
      · rintro ⟨rfl | hid, hlive⟩
        · exact .inl rfl
        · by_cases h : id = e.id
          · exact .inl h
          · exact .inr ⟨hid, hlive, h⟩

lemma mem_holdings_of_takeOutputs {outputs : List TensorId} {p : Pool η} {output : TensorId × η}
    (h : output ∈ (takeOutputs outputs p).1) : output ∈ p.holdings := by
  induction outputs generalizing p with
  | nil => cases h
  | cons id outputs ih =>
    unfold takeOutputs at h
    cases hremove : p.remove id with
    | error e =>
      rw [hremove] at h
      exact ih h
    | ok removed =>
      obtain ⟨handle, q⟩ := removed
      obtain ⟨e, hfind, rfl, rfl, rfl⟩ := remove_eq_ok hremove
      rw [hremove] at h
      rcases List.mem_cons.mp h with rfl | h
      · exact mem_holdings_of_find? hfind
      · have hrest := ih h
        rw [holdings_retire] at hrest
        exact List.mem_of_mem_filter hrest

/-- What is left are the tensors that are not listed, in the order that they had. -/
lemma holdings_takeOutputs (outputs : List TensorId) (p : Pool η) :
    (takeOutputs outputs p).2.holdings = p.holdings.filter (·.1 ∉ outputs) := by
  induction outputs generalizing p with
  | nil => simp [takeOutputs]
  | cons id outputs ih =>
    rcases p.remove_cases id with ⟨hgone, cause, hremove⟩ | ⟨e, -, rfl, hremove⟩
    · simp only [takeOutputs, hremove, ih]
      apply List.filter_congr
      intro t ht
      have hne : t.1 ≠ id := by
        rintro rfl
        exact hgone (p.map_fst_holdings ▸ List.mem_map_of_mem ht)
      simp [hne]
    · simp only [takeOutputs, hremove, ih, holdings_retire, List.filter_filter]
      apply List.filter_congr
      intro t _
      by_cases h : t.1 = e.id <;> simp [h]

/-- What is taken out of a pool and what stays there make up the pool. -/
theorem takeOutputs_perm (outputs : List TensorId) {p : Pool η} (hids : p.ids.Nodup) :
    ((takeOutputs outputs p).1.map (fun output => identity output.2) ++
      (takeOutputs outputs p).2.identities identity).Perm (p.identities identity) := by
  induction outputs generalizing p with
  | nil => exact .refl _
  | cons id outputs ih =>
    unfold takeOutputs
    cases hremove : p.remove id with
    | error e => exact ih hids
    | ok removed =>
      obtain ⟨handle, q⟩ := removed
      obtain ⟨e, hfind, -, rfl, rfl⟩ := remove_eq_ok hremove
      have hrest := ih (nodup_ids_retire hids e.id .freed)
      exact (hrest.cons _).trans (identities_retire identity hids hfind .freed).symm

end Pool

/-- A transfer that was granted leaves a handle beside the others. -/
lemma Action.identities_move_perm (identity : η → ι) {p : Pool η} (hids : p.ids.Nodup)
    {e : Entry η} (hfind : p.find? e.id = some e) (handle : η) (destination : Residence)
    (target : Target) :
    ((move p destination e.id handle target).identities identity).Perm
      (identity handle :: (p.retire e.id .freed).identities identity) := by
  cases target with
  | inPlace => exact Pool.identities_place_perm identity hids hfind handle destination .freed
  | renamed output => exact Pool.identities_introduce_perm identity _ output handle destination

/-- A transfer that was granted leaves the identities as they were. -/
lemma Action.identities_move (identity : η → ι) {p : Pool η} (hids : p.ids.Nodup) {e : Entry η}
    (hfind : p.find? e.id = some e) {handle : η} (hsame : identity handle = identity e.handle)
    (destination : Residence) (target : Target) :
    ((move p destination e.id handle target).identities identity).Perm (p.identities identity) := by
  have hmove := identities_move_perm identity hids hfind handle destination target
  rw [hsame] at hmove
  exact hmove.trans (Pool.identities_retire identity hids hfind .freed).symm

lemma Action.nodup_ids_move {p : Pool η} (hids : p.ids.Nodup) (destination : Residence)
    (id : TensorId) (handle : η) {target : Target}
    (hfresh : ∀ output ∈ target.ids, p.isKnown output = false) :
    (move p destination id handle target).ids.Nodup := by
  cases target with
  | inPlace => rwa [move, Pool.ids_place]
  | renamed output =>
    have hnew := Pool.find?_of_fresh (hfresh output (by simp [Target.ids]))
    apply Pool.nodup_ids_introduce (Pool.nodup_ids_retire hids id (.consumed output))
    rw [Pool.find?_retire, hnew, ite_self]

end TensorMachine
