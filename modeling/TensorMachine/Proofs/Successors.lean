import TensorMachine.Proofs.HostBalance
import TensorMachine.Proofs.Serials
import TensorMachine.Proofs.Trails

/-!
# Where tensors go

The storage of a tensor goes along the trail of its identifier. Whatever instructions are dispatched
on a host device, in place or under other identifiers, and whether they go through or fail, a tensor
that was live is found with its serial, its type and its bytes at the end of the trail, until it is
deallocated there. No other live identifier holds it: trails of different tensors do not come
together, and on a device whose serials the tensors carry no serial is held twice.
-/

namespace TensorMachine

variable {σ η κ ι : Type}

open Standing

/-!
### The way of a handle
-/

/-- What every transfer keeps of a handle, granted or not. -/
def Provider.Preserves (P : Provider σ η) (content : η → κ) : Prop :=
  ∀ destination handle s, content (P.transfer destination handle s).2.1 = content handle

lemma Provider.Preserves.of_call {P : Provider σ η} {content : η → κ} (hP : P.Preserves content)
    {destination : Residence} {handle handle' : η} {s s' : σ} {answer : Except DeviceError Unit}
    (hcall : P.transfer destination handle s = (answer, handle', s')) :
    content handle' = content handle := by
  rw [← hP destination handle s, hcall]

/-- What an instruction makes of a live tensor: it is held at the end of the trail of its identifier,
or it is deallocated. -/
inductive Pool.Carries (content : η → κ) (p : Pool η) (i : Instruction) (p' : Pool η)
    (e : Entry η) : Prop
  | held (path : List TensorId) (e' : Entry η) (htrail : Trail p'.standing e.id path e'.id)
    (hfind : p'.find? e'.id = some e') (hsame : content e'.handle = content e.handle) :
    Carries content p i p' e
  | deallocated (force : Bool) (hinstruction : i = .deallocate e.id force)
    (hpool : p' = p.retire e.id .freed) : Carries content p i p' e

namespace Pool.Carries

variable {content : η → κ} {p p' : Pool η} {i : Instruction} {e entry : Entry η}

lemma kept {e' : Entry η} (hfind : p'.find? e.id = some e')
    (hsame : content e'.handle = content e.handle) : Carries content p i p' e := by
  have hid := find?_id hfind
  rw [← hid] at hfind
  have htrail : Trail p'.standing e'.id [] e'.id := .live (standing_of_find? hfind)
  exact .held [] e' (hid ▸ htrail) hfind hsame

lemma introduce (hfind : p.find? e.id = some e) (output : TensorId) (handle : η)
    (side : Residence) : Carries content p i (p.introduce output handle side) e := by
  have hstays : (p.introduce output handle side).find? e.id = some e := by
    rw [find?_introduce, hfind]
    rfl
  exact .kept hstays rfl

lemma place (hfind : p.find? e.id = some e) (hentry : p.find? entry.id = some entry) {handle : η}
    (hsame : content handle = content entry.handle) (side : Residence) :
    Carries content p i (p.place entry.id handle side) e := by
  by_cases hid : entry.id = e.id
  · rw [hid, hfind] at hentry
    cases hentry
    exact .kept (find?_placed hfind handle side) hsame
  · have hstays : (p.place entry.id handle side).find? e.id = some e := by
      rw [find?_place, if_neg hid, hfind]
    exact .kept hstays rfl

/-- A tensor that is renamed is held under its new identifier, and all others stay. -/
lemma rename (hfind : p.find? e.id = some e) (hentry : p.find? entry.id = some entry) {handle : η}
    (hsame : content handle = content entry.handle) (side : Residence) {output : TensorId}
    (hfresh : p.isKnown output = false) :
    Carries content p i
      ((p.retire entry.id (.consumed output)).introduce output handle side) e := by
  have hnew := find?_of_fresh hfresh
  have hgone : (p.retire entry.id (.consumed output)).find? output = none := by
    rw [find?_retire, hnew, ite_self]
  by_cases hid : entry.id = e.id
  · rw [hid, hfind] at hentry
    cases hentry
    have hne : e.id ≠ output := by
      rintro rfl
      cases hfind.symm.trans hnew
    have hfound : ((p.retire e.id (.consumed output)).introduce output handle side).find? output =
        some ⟨output, handle, side⟩ := by
      rw [find?_introduce, hgone, if_pos rfl]
      rfl
    refine .held [output] ⟨output, handle, side⟩ (.consumed ?_ ?_) hfound hsame
    · rw [standing_introduce hgone, standing_retire, Function.update_of_ne hne,
        Function.update_self]
      rfl
    · exact .live (standing_of_find? hfound)
  · have hstays : ((p.retire entry.id (.consumed output)).introduce output handle side).find? e.id =
        some e := by
      rw [find?_introduce, find?_retire, if_neg hid, hfind]
      rfl
    exact .kept hstays rfl

lemma retire (hfind : p.find? e.id = some e) (entry : Entry η) (force : Bool) :
    Carries content p (.deallocate entry.id force) (p.retire entry.id .freed) e := by
  by_cases hid : entry.id = e.id
  · rw [hid]
    exact .deallocated force rfl rfl
  · have hstays : (p.retire entry.id .freed).find? e.id = some e := by
      rw [find?_retire, if_neg hid, hfind]
    exact .kept hstays rfl

end Pool.Carries

namespace Machine

variable {P : Provider σ η} {m m' : Machine σ η}

lemma carries_step {content : η → κ} (hP : P.Preserves content) (i : Instruction) {e : Entry η}
    (hfind : m.pool.find? e.id = some e) :
    Pool.Carries content m.pool i (m.step P i).2.pool e := by
  rcases step_cases P i m with ⟨m', hstep, hpasses⟩ | ⟨cause, m', hstep, hstops⟩ <;> rw [hstep]
  · cases hpasses with
    | allocate | compute => exact .introduce hfind _ _ _
    | @transfer destination entry target handle s hentry _ hfresh hcall =>
      cases target with
      | inPlace => exact .place hfind hentry (hP.of_call hcall) destination
      | renamed output =>
        have hnew := hfresh output (by simp [Target.ids])
        exact .rename hfind hentry (hP.of_call hcall) destination hnew
    | deallocate => exact .retire hfind _ _
  · cases hstops with
    | plan | allocate | compute => exact .kept hfind rfl
    | transfer hentry _ _ hcall => exact .place hfind hentry (hP.of_call hcall) _
    | deallocate => exact .retire hfind _ _

/-!
### Identities
-/

/-- The live handles have identities of their own, all of which were used. -/
structure Separates (identity : η → ι) (used : σ → ι → Prop) (m : Machine σ η) : Prop where
  nodup_ids : m.pool.ids.Nodup
  distinct : (m.pool.identities identity).Nodup
  used : ∀ n ∈ m.pool.identities identity, used m.device n

/-- What a step does to the identities in a pool: it keeps them, adds one that was not used, or takes
one away. -/
inductive MovesIdentities (identity : η → ι) (used : σ → ι → Prop) (m m' : Machine σ η) : Prop
  | kept (hperm : (m'.pool.identities identity).Perm (m.pool.identities identity)) :
    MovesIdentities identity used m m'
  | made {n : ι} (hnew : ¬used m.device n) (hused : used m'.device n)
    (hperm : (m'.pool.identities identity).Perm (n :: m.pool.identities identity)) :
    MovesIdentities identity used m m'
  | released {n : ι}
    (hperm : (m.pool.identities identity).Perm (n :: m'.pool.identities identity)) :
    MovesIdentities identity used m m'

variable {identity : η → ι} {used : σ → ι → Prop}

lemma step_movesIdentities (hP : P.Identifies identity used) (hids : m.pool.ids.Nodup)
    (i : Instruction) : MovesIdentities identity used m (m.step P i).2 := by
  have hsame : P.Preserves identity := hP.transfer_identity
  rcases step_cases P i m with ⟨m', hstep, hpasses⟩ | ⟨cause, m', hstep, hstops⟩ <;> rw [hstep]
  · cases hpasses with
    | allocate _ hcall =>
      obtain ⟨hnew, hused⟩ := hP.allocate_fresh _ _ _ _ _ hcall
      exact .made hnew hused (Pool.identities_introduce_perm identity _ _ _ _)
    | transfer hfind _ _ hcall =>
      exact .kept (Action.identities_move identity hids hfind (hsame.of_call hcall) _ _)
    | deallocate hfind => exact .released (Pool.identities_retire identity hids hfind .freed)
    | compute _ _ _ hcall =>
      obtain ⟨hnew, hused⟩ := hP.compute_fresh _ _ _ _ _ hcall
      exact .made hnew hused (Pool.identities_introduce_perm identity _ _ _ _)
  · cases hstops with
    | plan | allocate | compute => exact .kept (.refl _)
    | transfer hfind _ _ hcall =>
      refine .kept ?_
      rw [Pool.identities_place identity hids hfind (hsame.of_call hcall)]
    | deallocate hfind => exact .released (Pool.identities_retire identity hids hfind .freed)

/-- An identity that was used does not come into a pool. -/
lemma MovesIdentities.mem_of_used (h : MovesIdentities identity used m m') {n : ι}
    (hused : used m.device n) (hmem : n ∈ m'.pool.identities identity) :
    n ∈ m.pool.identities identity := by
  cases h with
  | kept hperm => exact hperm.subset hmem
  | made hnew _ hperm =>
    rcases List.mem_cons.mp (hperm.subset hmem) with rfl | hold
    · exact absurd hused hnew
    · exact hold
  | released hperm => exact hperm.symm.subset (List.mem_cons_of_mem _ hmem)

lemma Separates.step (h : m.Separates identity used) (hP : P.Identifies identity used)
    (i : Instruction) : (m.step P i).2.Separates identity used := by
  have hkeeps := hP.keeps_used.step i m
  have hids := nodup_ids_step P i h.nodup_ids
  cases step_movesIdentities hP h.nodup_ids i with
  | kept hperm =>
    refine ⟨hids, hperm.nodup_iff.mpr h.distinct, fun n hn => ?_⟩
    exact hkeeps n (h.used n (hperm.subset hn))
  | @made n hnew hused hperm =>
    refine ⟨hids, hperm.nodup_iff.mpr ?_, fun x hx => ?_⟩
    · exact List.nodup_cons.mpr ⟨fun hmem => hnew (h.used n hmem), h.distinct⟩
    · rcases List.mem_cons.mp (hperm.subset hx) with rfl | hold
      · exact hused
      · exact hkeeps x (h.used x hold)
  | released hperm =>
    refine ⟨hids, (hperm.nodup_iff.mp h.distinct).of_cons, fun x hx => ?_⟩
    exact hkeeps x (h.used x (hperm.symm.subset (List.mem_cons_of_mem _ hx)))

lemma Separates.eq_of_identity (h : m.Separates identity used) {x y : Entry η}
    (hx : x ∈ m.pool.live) (hy : y ∈ m.pool.live)
    (hsame : identity x.handle = identity y.handle) : x = y :=
  List.inj_on_of_nodup_map h.distinct hx hy hsame

end Machine

/-!
### Dispatching on a host device
-/

lemma Pool.ofInputs_of_bindInputs {inputs : List (TensorId × η)} {start : Pool η}
    (h : bindInputs inputs .empty = (.ok (), start)) :
    (inputs.map Prod.fst).Nodup ∧ start = ofInputs inputs := by
  rcases bindInputs_cases inputs .empty with ⟨hnodup, -⟩ | ⟨id, q, hrefused⟩
  · cases h.symm.trans (bindInputs_of_nodup inputs hnodup)
    exact ⟨hnodup, rfl⟩
  · cases h.symm.trans hrefused

namespace HostDevice

/-- What a tensor keeps when it moves: its serial, its type and its bytes. -/
def content (t : HostTensor) : Nat × TensorType × Bytes := (t.serial, t.type, t.bytes)

lemma provider_preserves : provider.Preserves content := by
  intro destination t d
  change content (d.transfer destination t).2.1 = content t
  rcases d.transfer_cases destination t with ⟨e, d', hcall, -⟩ | ⟨d', hcall, -⟩ <;> rw [hcall]
  rfl

/-- The machines to which instructions lead that are dispatched one after the other, whether they go
through or fail. In between the device may be asked for anything else. -/
inductive Dispatches (start : Machine HostDevice HostTensor) :
    List Instruction → Machine HostDevice HostTensor → Prop
  | nil : Dispatches start [] start
  | step {done : List Instruction} {m : Machine HostDevice HostTensor} (h : Dispatches start done m)
    (i : Instruction) : Dispatches start (done ++ [i]) (m.step provider i).2
  | request {done : List Instruction} {m : Machine HostDevice HostTensor}
    (h : Dispatches start done m) (request : Request) :
    Dispatches start done ⟨m.pool, request.serve m.device⟩

/-- The live tensors have serials of their own, which the device has issued. -/
abbrev Sound (m : Machine HostDevice HostTensor) : Prop :=
  m.Separates (·.serial) fun d n => n < d.nextSerial

namespace Dispatches

variable {start m : Machine HostDevice HostTensor} {done : List Instruction}

lemma steps (h : Dispatches start done m) :
    Relation.ReflTransGen Step start.pool.standing m.pool.standing := by
  induction h with
  | nil => exact .refl
  | step _ i ih => exact ih.tail (Machine.standing_steps provider i _)
  | request _ _ ih => exact ih

lemma nodup_ids (h : Dispatches start done m) (hstart : start.pool.ids.Nodup) :
    m.pool.ids.Nodup := by
  induction h with
  | nil => exact hstart
  | step _ i ih => exact Machine.nodup_ids_step provider i ih
  | request _ _ ih => exact ih

lemma parted (h : Dispatches start done m) (hstart : start.pool.Parted) : m.pool.Parted := by
  induction h with
  | nil => exact hstart
  | step _ i ih => exact Machine.parted_step provider i ih
  | request _ _ ih => exact ih

lemma issued (h : Dispatches start done m) {n : Nat} (hn : n < start.device.nextSerial) :
    n < m.device.nextSerial := by
  induction h with
  | nil => exact hn
  | step _ i ih => exact provider_identifies.keeps_used.step i _ n ih
  | @request done m _ request ih =>
    have hnext := (⟨m.device, request⟩ : Turn).nextSerial_after
    change (request.serve m.device).nextSerial = m.device.nextSerial + _ at hnext
    rw [hnext]
    exact Nat.lt_add_right _ ih

lemma sound (h : Dispatches start done m) (hstart : Sound start) : Sound m := by
  induction h with
  | nil => exact hstart
  | step _ i ih => exact ih.step provider_identifies i
  | @request done m _ request ih =>
    have hlater : Dispatches m [] ⟨m.pool, request.serve m.device⟩ := .request .nil request
    exact ⟨ih.nodup_ids, ih.distinct, fun n hn => hlater.issued (ih.used n hn)⟩

/-- A tensor that was live is held at the end of its trail, or it was deallocated there. -/
lemma leads (h : Dispatches start done m) {e : Entry HostTensor}
    (hfind : start.pool.find? e.id = some e) :
    ∃ path stop, Trail m.pool.standing e.id path stop ∧
      ((∃ e', m.pool.find? stop = some e' ∧ content e'.handle = content e.handle) ∨
        m.pool.standing stop = .freed ∧ ∃ force, .deallocate stop force ∈ done) := by
  induction h with
  | nil => exact ⟨[], e.id, .live (Pool.standing_of_find? hfind), .inl ⟨e, hfind, rfl⟩⟩
  | @step done m _ i ih =>
    obtain ⟨path, stop, htrail, hfate⟩ := ih
    have hlasting := (Machine.standing_steps provider i m).lasting
    rcases hfate with ⟨x, hheld, hsame⟩ | ⟨hfreed, force, hmem⟩
    · obtain rfl := Pool.find?_id hheld
      cases Machine.carries_step provider_preserves i hheld with
      | held more y hmore hfound hsame' =>
        exact ⟨path ++ more, y.id, htrail.append hlasting hmore,
          .inl ⟨y, hfound, hsame'.trans hsame⟩⟩
      | deallocated force hinstruction hpool =>
        have hfreed : (m.step provider i).2.pool.standing x.id = .freed := by
          rw [hpool, Pool.standing_retire, Function.update_self]
          rfl
        exact ⟨path, x.id, htrail.kept hlasting (.freed hfreed),
          .inr ⟨hfreed, force, by simp [hinstruction]⟩⟩
    · have hfreed' := hlasting.freed hfreed
      exact ⟨path, stop, htrail.kept hlasting (.freed hfreed'),
        .inr ⟨hfreed', force, List.mem_append_left _ hmem⟩⟩
  | request _ _ ih => exact ih

/-- Whatever is live with the serial of a tensor is found at the end of the trail of the tensor. -/
lemma trail_of_serial (h : Dispatches start done m) (hstart : Sound start) {e : Entry HostTensor}
    (he : e ∈ start.pool.live) {x : Entry HostTensor} (hx : x ∈ m.pool.live)
    (hserial : x.handle.serial = e.handle.serial) :
    ∃ path, Trail m.pool.standing e.id path x.id := by
  induction h generalizing x with
  | nil =>
    rw [hstart.eq_of_identity hx he hserial]
    have hfind := Pool.find?_of_mem_live hstart.nodup_ids he
    exact ⟨[], .live (Pool.standing_of_find? hfind)⟩
  | @step done m hdone i ih =>
    have hsound := hdone.sound hstart
    have hsound' := (hdone.step i).sound hstart
    have hissued : x.handle.serial < m.device.nextSerial :=
      hserial ▸ hdone.issued (hstart.used _ (List.mem_map_of_mem he))
    have hmoves := Machine.step_movesIdentities provider_identifies hsound.nodup_ids i
    obtain ⟨y, hy, hyx⟩ := List.mem_map.mp (hmoves.mem_of_used hissued (List.mem_map_of_mem hx))
    obtain ⟨path, htrail⟩ := ih hy (hyx.trans hserial)
    have hlasting := (Machine.standing_steps provider i m).lasting
    have hfind := Pool.find?_of_mem_live hsound.nodup_ids hy
    cases Machine.carries_step provider_preserves i hfind with
    | held more z hmore hfound hsame =>
      have hzx : x.handle.serial = z.handle.serial :=
        hyx.symm.trans (congrArg Prod.fst hsame).symm
      rw [hsound'.eq_of_identity hx (Pool.mem_of_find? hfound) hzx]
      exact ⟨path ++ more, htrail.append hlasting hmore⟩
    | deallocated force _ hpool =>
      rw [hpool] at hx
      obtain ⟨hx, hne⟩ := Pool.mem_live_retire.mp hx
      rw [hsound.eq_of_identity hx hy hyx.symm] at hne
      exact absurd rfl hne
  | request _ _ ih => exact ih hx hserial

end Dispatches

/-- From every consumed identifier its successors lead, without repetition, to one that is live or
freed. A tensor that was live at any time is found later at the end of its trail, with its serial,
its type and its bytes, or it was deallocated there. Tensors never meet at one identifier, and if
the inputs had serials of their own that the device had issued, what is live with the serial of a
tensor is the end of its trail. -/
theorem successors_lead_to_storage {inputs : List (TensorId × HostTensor)} {start : Pool HostTensor}
    {d : HostDevice} {first rest : List Instruction} {m m' : Machine HostDevice HostTensor}
    (hbind : Pool.bindInputs inputs .empty = (.ok (), start))
    (hfirst : Dispatches ⟨start, d⟩ first m) (hrest : Dispatches m rest m') :
    (∀ id successor, m.pool.fate? id = some (.consumed successor) →
      ∃ path stop, Trail m.pool.standing id (successor :: path) stop ∧
        (id :: successor :: path).Nodup) ∧
    (∀ e ∈ m.pool.live, ∃ path stop, Trail m'.pool.standing e.id path stop ∧
      ((∃ e', m'.pool.find? stop = some e' ∧ e'.handle.serial = e.handle.serial ∧
          e'.handle.type = e.handle.type ∧ e'.handle.bytes = e.handle.bytes) ∨
        m'.pool.standing stop = .freed ∧ ∃ force, .deallocate stop force ∈ rest)) ∧
    (∀ e ∈ m.pool.live, ∀ x ∈ m.pool.live, ∀ path path' stop,
      Trail m'.pool.standing e.id path stop → Trail m'.pool.standing x.id path' stop → e = x) ∧
    ((inputs.map fun input => input.2.serial).Nodup →
      (∀ input ∈ inputs, input.2.serial < d.nextSerial) →
        ∀ e ∈ m.pool.live, ∀ x ∈ m'.pool.live, x.handle.serial = e.handle.serial →
          ∃ path, Trail m'.pool.standing e.id path x.id) := by
  obtain ⟨hids, rfl⟩ := Pool.ofInputs_of_bindInputs hbind
  have hnodup : m.pool.ids.Nodup := hfirst.nodup_ids (by rwa [Pool.ids_ofInputs])
  have hfind : ∀ e ∈ m.pool.live, m.pool.find? e.id = some e :=
    fun e he => Pool.find?_of_mem_live hnodup he
  refine ⟨fun id successor hfate => ?_, fun e he => ?_,
    fun e he x hx path path' stop htrail htrail' => ?_,
    fun hdistinct hissued e he x hx hserial => ?_⟩
  · have hparted := hfirst.parted (Pool.parted_ofInputs inputs)
    have hground := (Pool.grounded_ofInputs inputs).steps hfirst.steps
    exact hparted.trail_of_consumed hground hfate
  · obtain ⟨path, stop, htrail, hfate⟩ := hrest.leads (hfind e he)
    refine ⟨path, stop, htrail, hfate.imp_left ?_⟩
    rintro ⟨e', hheld, hsame⟩
    simp only [content, Prod.mk.injEq] at hsame
    exact ⟨e', hheld, hsame⟩
  · have hlive := Pool.standing_of_find? (hfind e he)
    have hlive' := Pool.standing_of_find? (hfind x hx)
    exact Pool.eq_of_id hnodup he hx (Trail.apart hrest.steps hlive hlive' htrail htrail')
  · have hserials : (Pool.ofInputs inputs).identities (·.serial) =
        inputs.map fun input => input.2.serial := by
      simp [Pool.identities, Pool.ofInputs, Function.comp_def]
    have hstart : Sound ⟨Pool.ofInputs inputs, d⟩ := by
      refine ⟨by rwa [Pool.ids_ofInputs], by rwa [hserials], fun n hn => ?_⟩
      rw [hserials] at hn
      obtain ⟨input, hmem, rfl⟩ := List.mem_map.mp hn
      exact hissued input hmem
    exact hrest.trail_of_serial (hfirst.sound hstart) he hx hserial

/-- A tensor goes on from 1 to 3, and to 5 behind an attempt to take it up under 1 again and a
transfer in place that the device fails. -/
theorem successors_lead_to_storage_renamed :
    let d := ((HostDevice.new 64 64).hostTensor ⟨.f32, [1]⟩ [0, 0, 128, 63]).2
    let t : HostTensor := ⟨⟨1, ⟨.f32, [1]⟩, .host⟩, [0, 0, 128, 63]⟩
    let start : Pool HostTensor := .ofInputs [(1, t)]
    let m := (Machine.step provider (.transfer .device 1 (.renamed 3)) ⟨start, d⟩).2
    let gone := m.step provider (.transfer .device 1 (.renamed 4))
    let failed := Machine.step provider (.transfer .host 3 .inPlace)
      ⟨gone.2.pool, gone.2.device.failNext .deviceToHost⟩
    let m' := (failed.2.step provider (.transfer .host 3 (.renamed 5))).2
    gone.1 = .error (.protocol (.consumedIdentifier 1 3)) ∧
      failed.1 = .error (.device .fromDevice (.backend .deviceToHost)) ∧
      m'.pool.ids = [5] ∧
      (∃ path stop, Trail m.pool.standing 1 (3 :: path) stop ∧ (1 :: 3 :: path).Nodup) ∧
      ∃ path e, m'.pool.find? 5 = some e ∧ e.handle.bytes = t.bytes ∧
        Trail m'.pool.standing 3 path 5 := by
  intro d t start m gone failed m'
  have hbind : Pool.bindInputs [(1, t)] .empty = (.ok (), start) := rfl
  have hfirst : Dispatches ⟨start, d⟩ [.transfer .device 1 (.renamed 3)] m := .step .nil _
  have hgone : Dispatches m [.transfer .device 1 (.renamed 4)] gone.2 := .step .nil _
  have hfailed : Dispatches m [.transfer .device 1 (.renamed 4), .transfer .host 3 .inPlace]
      failed.2 := (hgone.request (.failNext .deviceToHost)).step (.transfer .host 3 .inPlace)
  have hrest : Dispatches m [.transfer .device 1 (.renamed 4), .transfer .host 3 .inPlace,
      .transfer .host 3 (.renamed 5)] m' := hfailed.step (.transfer .host 3 (.renamed 5))
  obtain ⟨hconsumed, hleads, -, hserial⟩ := successors_lead_to_storage hbind hfirst hrest
  have hids : m'.pool.ids = [5] := by decide
  have hheld : m.pool.find? 3 = some ⟨3, { t with location := .device }, .device⟩ := rfl
  refine ⟨by decide, by decide, hids, hconsumed 1 3 rfl, ?_⟩
  obtain ⟨-, stop, -, ⟨e, hfound, hsame, -, hbytes⟩ | ⟨-, force, hmem⟩⟩ :=
    hleads _ (Pool.mem_of_find? hheld)
  · have hlive := Pool.mem_of_find? hfound
    have hid : e.id = 5 := List.mem_singleton.mp (hids ▸ List.mem_map_of_mem hlive)
    rw [← Pool.find?_id hfound, hid] at hfound
    obtain ⟨path, htrail⟩ :=
      hserial (by decide) (by decide) _ (Pool.mem_of_find? hheld) e hlive hsame
    exact ⟨path, e, hfound, hbytes, hid ▸ htrail⟩
  · simp at hmem

end HostDevice

end TensorMachine
