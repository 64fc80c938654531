import Mathlib.Data.List.Sort
import TensorMachine.Proofs.Basics
import TensorMachine.Tensor.Store

/-!
# Sound stores

The numbers of the slots of a sound store differ, and its counter has counted all identifiers that
it knows, so that it cannot come to its end. A listing is then the same in whatever order the map of
the slots is walked through. Every change of a sound store leaves a sound store, and changes the
listing at one place: at its end, where an identifier stands, or where one stood.
-/

namespace TensorMachine.Store

variable {η : Type}

/-- What all calls keep. The numbers of different slots differ and have been taken from the counter,
which counts all identifiers that were ever introduced. -/
structure Sound (r : Store η) : Prop where
  filed : ∀ {id : TensorId} {s : Slot η}, r.entries[id]? = some s → s.id = id
  allocated : ∀ {id : TensorId} {s : Slot η}, r.entries[id]? = some s → s.state.isAllocated
  numbered : ∀ {id : TensorId} {s : Slot η}, r.entries[id]? = some s → s.seq < r.nextSeq
  apart : ∀ {s t : Slot η}, r.entries[s.id]? = some s → r.entries[t.id]? = some t →
    s.seq = t.seq → s.id = t.id
  gone : ∀ {id : TensorId}, id ∈ r.retired → id ∉ r.entries
  counted : r.nextSeq.toNat = r.entries.size + r.retired.size

lemma sound_empty : Sound (empty : Store η) where
  filed := by simp [empty]
  allocated := by simp [empty]
  numbered := by simp [empty]
  apart := by simp [empty]
  gone := by simp [empty]
  counted := rfl

/-- The slots under their own identifiers, all of them. -/
lemma Sound.mem_slots {r : Store η} (h : r.Sound) {slot : Slot η} :
    slot ∈ r.slots ↔ r.entries[slot.id]? = some slot := by
  simp only [slots, List.mem_map, Prod.exists, exists_eq_right,
    Std.HashMap.mem_toList_iff_getElem?_eq_some]
  constructor
  · rintro ⟨id, hslot⟩
    rwa [h.filed hslot]
  · intro hslot
    exact ⟨slot.id, hslot⟩

lemma Sound.nodup_slots {r : Store η} (h : r.Sound) : r.slots.Nodup := by
  refine List.Nodup.of_map Slot.id ?_
  have hids : r.slots.map Slot.id = r.entries.keys := by
    rw [← Std.HashMap.map_fst_toList_eq_keys, slots, List.map_map]
    apply List.map_congr_left
    intro t ht
    exact h.filed (Std.HashMap.mem_toList_iff_getElem?_eq_some.mp ht)
  rw [hids]
  exact Std.HashMap.nodup_keys

lemma pairwise_sortBySeq (slots : List (Slot η)) :
    (sortBySeq slots).Pairwise fun s t => s.seq ≤ t.seq := by
  let older : Slot η → Slot η → Bool := fun s t => s.seq ≤ t.seq
  have htrans : ∀ s t u, older s t → older t u → older s u := by
    intro s t u hst htu
    exact decide_eq_true (UInt64.le_trans (of_decide_eq_true hst) (of_decide_eq_true htu))
  have htotal : ∀ s t, older s t || older t s := by
    intro s t
    simpa [older] using UInt64.le_total s.seq t.seq
  exact (List.pairwise_mergeSort htrans htotal slots).imp of_decide_eq_true

lemma length_ordered (r : Store η) : r.ordered.length = r.size := by
  rw [ordered, sortBySeq, List.length_mergeSort, slots, List.length_map, Std.HashMap.length_toList,
    size]

lemma map_fst_snapshot (r : Store η) : r.snapshot.map Prod.fst = r.ids := by
  rw [snapshot, ids, List.map_map]
  rfl

/-- Slots that stand in the order of their numbers are the sorted slots of the store, if they are
the same slots. -/
theorem Sound.sortBySeq_eq {r : Store η} (h : r.Sound) {slots slots' : List (Slot η)}
    (hperm : slots'.Perm r.slots) (hmem : ∀ s, s ∈ slots ↔ r.entries[s.id]? = some s)
    (hsorted : slots.Pairwise fun s t => s.seq < t.seq) : sortBySeq slots' = slots := by
  have hnodup : slots.Nodup := by
    apply hsorted.imp
    rintro s _ hlt rfl
    exact UInt64.lt_irrefl _ hlt
  have hall : (sortBySeq slots').Perm slots := by
    calc
      (sortBySeq slots').Perm slots' := List.mergeSort_perm _ _
      List.Perm _ r.slots := hperm
      List.Perm _ slots := by
        rw [List.perm_ext_iff_of_nodup h.nodup_slots hnodup]
        intro s
        rw [h.mem_slots, hmem]
  refine hall.eq_of_pairwise ?_ (pairwise_sortBySeq slots') (hsorted.imp UInt64.le_of_lt)
  intro s t hs ht hle hge
  have hs' := (hmem s).mp (hall.mem_iff.mp hs)
  have ht' := (hmem t).mp ht
  have hid := h.apart hs' ht' (UInt64.le_antisymm hle hge)
  rw [hid, ht'] at hs'
  exact (Option.some_inj.mp hs').symm

namespace Sound

variable {r : Store η}

lemma mem_ordered (h : r.Sound) {s : Slot η} : s ∈ r.ordered ↔ r.entries[s.id]? = some s :=
  (List.mergeSort_perm _ _).mem_iff.trans h.mem_slots

lemma pairwise_ordered (h : r.Sound) : r.ordered.Pairwise fun s t => s.seq < t.seq := by
  have hnodup : r.ordered.Nodup := (List.mergeSort_perm _ _).nodup_iff.mpr h.nodup_slots
  apply ((pairwise_sortBySeq r.slots).and hnodup).imp_of_mem
  intro s t hs ht hst
  have hs' := h.mem_ordered.mp hs
  have ht' := h.mem_ordered.mp ht
  apply UInt64.lt_of_le_of_ne hst.1
  intro hseq
  rw [h.apart hs' ht' hseq, ht'] at hs'
  exact hst.2 (Option.some_inj.mp hs').symm

lemma state_ne_freed (h : r.Sound) {id : TensorId} {s : Slot η} (hs : r.entries[id]? = some s) :
    s.state ≠ .freed := by
  intro hfreed
  have hallocated := h.allocated hs
  rw [hfreed] at hallocated
  cases hallocated

lemma nodup_ids (h : r.Sound) : r.ids.Nodup := by
  apply List.pairwise_map.mpr
  apply h.pairwise_ordered.imp_of_mem
  intro s t hs ht hlt hid
  have hs' := h.mem_ordered.mp hs
  rw [hid, h.mem_ordered.mp ht] at hs'
  rw [Option.some_inj.mp hs'] at hlt
  exact UInt64.lt_irrefl _ hlt

end Sound

/-- There are no more identifiers than their representation has values. -/
lemma length_le_of_nodup {ids : List TensorId} (h : ids.Nodup) : ids.length ≤ UInt32.size := by
  have hnumbers : (ids.map UInt32.toNat).Nodup := h.map fun _ _ => UInt32.toNat_inj.mp
  have hbelow : ids.map UInt32.toNat ⊆ List.range UInt32.size := by
    intro n hn
    obtain ⟨id, -, rfl⟩ := List.mem_map.mp hn
    exact List.mem_range.mpr id.toNat_lt
  have hlength := (List.subperm_of_subset hnumbers hbelow).length_le
  rwa [List.length_map, List.length_range] at hlength

/-- The counter is far from its end. -/
lemma Sound.nextSeq_le {r : Store η} (h : r.Sound) : r.nextSeq.toNat ≤ UInt32.size := by
  have hapart : ∀ id ∈ r.entries.keys, id ∉ r.retired.keys := by
    intro id hlive hgone
    exact h.gone (Std.HashMap.mem_keys.mp hgone) (Std.HashMap.mem_keys.mp hlive)
  have hkeys : (r.entries.keys ++ r.retired.keys).Nodup :=
    Std.HashMap.nodup_keys.append Std.HashMap.nodup_keys hapart
  have hlength := length_le_of_nodup hkeys
  rwa [List.length_append, Std.HashMap.length_keys, Std.HashMap.length_keys, ← h.counted]
    at hlength

lemma Sound.toNat_nextSeq_succ {r : Store η} (h : r.Sound) :
    (r.nextSeq + 1).toNat = r.nextSeq.toNat + 1 := by
  have hle := h.nextSeq_le
  rw [UInt64.toNat_add]
  exact Nat.mod_eq_of_lt (by simp [UInt32.size] at hle ⊢; omega)

/-!
### Changes of sound stores
-/

namespace Sound

variable {r : Store η} {id : TensorId} {handle : η} {state : State}

theorem introduce (h : r.Sound) (hlive : id ∉ r.entries) (hgone : id ∉ r.retired)
    (hstate : state.isAllocated) : (r.introduce id handle state).Sound := by
  have hlookup : ∀ x s, (r.introduce id handle state).entries[x]? = some s →
      (x = id ∧ s = ⟨id, handle, state, r.nextSeq⟩) ∨ r.entries[x]? = some s := by
    intro x s hs
    rw [Store.introduce, Std.HashMap.getElem?_insert] at hs
    by_cases hx : id = x
    · rw [if_pos (by simpa using hx), Option.some_inj] at hs
      exact .inl ⟨hx.symm, hs.symm⟩
    · rw [if_neg (by simpa using hx)] at hs
      exact .inr hs
  have hnext : ∀ {x : TensorId} {s : Slot η}, r.entries[x]? = some s →
      s.seq.toNat < r.nextSeq.toNat := fun hs => UInt64.lt_iff_toNat_lt.mp (h.numbered hs)
  refine ⟨?_, ?_, ?_, ?_, ?_, ?_⟩
  · intro x s hs
    obtain ⟨rfl, rfl⟩ | hs := hlookup x s hs
    · rfl
    · exact h.filed hs
  · intro x s hs
    obtain ⟨rfl, rfl⟩ | hs := hlookup x s hs
    · exact hstate
    · exact h.allocated hs
  · intro x s hs
    apply UInt64.lt_iff_toNat_lt.mpr
    change s.seq.toNat < (r.nextSeq + 1).toNat
    rw [h.toNat_nextSeq_succ]
    obtain ⟨rfl, rfl⟩ | hs := hlookup x s hs
    · exact Nat.lt_succ_self _
    · exact Nat.lt_succ_of_lt (hnext hs)
  · intro s t hs ht hseq
    obtain ⟨hsid, rfl⟩ | hs := hlookup _ _ hs <;> obtain ⟨htid, rfl⟩ | ht := hlookup _ _ ht
    · rfl
    · exact absurd (congrArg UInt64.toNat hseq) (hnext ht).ne'
    · exact absurd (congrArg UInt64.toNat hseq) (hnext hs).ne
    · exact h.apart hs ht hseq
  · intro x hx hmem
    rcases Std.HashMap.mem_insert.mp hmem with heq | hmem
    · exact hgone (by simpa using (eq_of_beq heq) ▸ hx)
    · exact h.gone hx hmem
  · change (r.nextSeq + 1).toNat = (r.entries.insert id _).size + r.retired.size
    rw [h.toNat_nextSeq_succ, h.counted, Std.HashMap.size_insert, if_neg hlive]
    omega

lemma ordered_introduce (h : r.Sound) (hlive : id ∉ r.entries) (hgone : id ∉ r.retired)
    (hstate : state.isAllocated) :
    (r.introduce id handle state).ordered = r.ordered ++ [⟨id, handle, state, r.nextSeq⟩] := by
  refine (h.introduce hlive hgone hstate).sortBySeq_eq (.refl _) (fun s => ?_) ?_
  · rw [List.mem_append, List.mem_singleton, h.mem_ordered, Store.introduce,
      Std.HashMap.getElem?_insert]
    by_cases hs : id = s.id
    · rw [if_pos (by simpa using hs), ← hs, Std.HashMap.getElem?_eq_none hlive]
      simp [eq_comm]
    · rw [if_neg (by simpa using hs)]
      refine or_iff_left ?_
      rintro rfl
      exact hs rfl
  · rw [List.pairwise_append]
    refine ⟨h.pairwise_ordered, List.pairwise_singleton _ _, fun s hs t ht => ?_⟩
    rw [List.mem_singleton.mp ht]
    exact h.numbered (h.mem_ordered.mp hs)

lemma lookup_update (r : Store η) (id x : TensorId) (f : Slot η → Slot η) :
    (r.update id f).entries[x]? = if id = x then (r.entries[x]?).map f else r.entries[x]? := by
  rw [Store.update, Std.HashMap.getElem?_modify]
  by_cases hx : id = x
  · simp [hx]
  · simp [hx]

/-- The same change, told of the slot that is found. -/
lemma update_cases {f : Slot η → Slot η} {x : TensorId} {s : Slot η}
    (hs : (r.update id f).entries[x]? = some s) :
    ∃ old, r.entries[x]? = some old ∧ (s = f old ∨ s = old) := by
  rw [lookup_update] at hs
  by_cases hx : id = x
  · rw [if_pos hx, Option.map_eq_some_iff] at hs
    obtain ⟨old, hold, rfl⟩ := hs
    exact ⟨old, hold, .inl rfl⟩
  · rw [if_neg hx] at hs
    exact ⟨s, hs, .inr rfl⟩

theorem update (h : r.Sound) {f : Slot η → Slot η} (hid : ∀ s, (f s).id = s.id)
    (hseq : ∀ s, (f s).seq = s.seq)
    (hstate : ∀ s, s.state.isAllocated → (f s).state.isAllocated) : (r.update id f).Sound := by
  have hold : ∀ {x : TensorId} {s : Slot η}, (r.update id f).entries[x]? = some s →
      ∃ old, r.entries[x]? = some old ∧ s.id = old.id ∧ s.seq = old.seq ∧
        s.state.isAllocated := by
    intro x s hs
    obtain ⟨old, hfind, rfl | rfl⟩ := update_cases hs
    · exact ⟨old, hfind, hid old, hseq old, hstate old (h.allocated hfind)⟩
    · exact ⟨s, hfind, rfl, rfl, h.allocated hfind⟩
  refine ⟨?_, ?_, ?_, ?_, ?_, ?_⟩
  · intro x s hs
    obtain ⟨old, hfind, hsame, -⟩ := hold hs
    rw [hsame]
    exact h.filed hfind
  · intro x s hs
    obtain ⟨-, -, -, -, hallocated⟩ := hold hs
    exact hallocated
  · intro x s hs
    obtain ⟨old, hfind, -, hsame, -⟩ := hold hs
    rw [hsame]
    exact h.numbered hfind
  · intro s t hs ht hst
    obtain ⟨a, ha, hsa, hsame, -⟩ := hold hs
    obtain ⟨b, hb, htb, hsame', -⟩ := hold ht
    rw [hsa] at ha ⊢
    rw [htb] at hb ⊢
    exact h.apart ha hb (hsame.symm.trans (hst.trans hsame'))
  · intro x hx hmem
    exact h.gone hx (Std.HashMap.mem_modify.mp hmem)
  · change r.nextSeq.toNat = (r.entries.modify id f).size + r.retired.size
    rw [Std.HashMap.size_modify, h.counted]

lemma ordered_update (h : r.Sound) {f : Slot η → Slot η} (hid : ∀ s, (f s).id = s.id)
    (hseq : ∀ s, (f s).seq = s.seq)
    (hstate : ∀ s, s.state.isAllocated → (f s).state.isAllocated) :
    (r.update id f).ordered = r.ordered.map fun s => if s.id = id then f s else s := by
  let g : Slot η → Slot η := fun s => if s.id = id then f s else s
  have hgid : ∀ s, (g s).id = s.id := fun s => by
    by_cases hs : s.id = id <;> simp [g, hs, hid]
  have hgseq : ∀ s, (g s).seq = s.seq := fun s => by
    by_cases hs : s.id = id <;> simp [g, hs, hseq]
  refine (h.update hid hseq hstate).sortBySeq_eq (.refl _) (fun s => ?_) ?_
  · have hlookup : (r.update id f).entries[s.id]? = (r.entries[s.id]?).map g := by
      rw [lookup_update]
      cases hfind : r.entries[s.id]? with
      | none => simp
      | some old => by_cases hs : id = s.id <;> simp [g, hs, h.filed hfind, eq_comm]
    rw [hlookup, Option.map_eq_some_iff, List.mem_map]
    constructor
    · rintro ⟨old, hold, rfl⟩
      exact ⟨old, (hgid old).symm ▸ h.mem_ordered.mp hold, rfl⟩
    · rintro ⟨old, hold, rfl⟩
      exact ⟨old, h.mem_ordered.mpr ((hgid old) ▸ hold), rfl⟩
  · rw [List.pairwise_map]
    apply h.pairwise_ordered.imp
    intro s t hlt
    change (g s).seq < (g t).seq
    rwa [hgseq, hgseq]

lemma lookup_leave (r : Store η) (id x : TensorId) (fate : Fate) :
    ((r.forget id).remember id fate).entries[x]? = if id = x then none else r.entries[x]? := by
  rw [remember, forget, Std.HashMap.getElem?_erase]
  by_cases hx : id = x <;> simp [hx]

theorem leave (h : r.Sound) (hlive : id ∈ r.entries) (fate : Fate) :
    ((r.forget id).remember id fate).Sound := by
  have hold : ∀ {x : TensorId} {s : Slot η},
      ((r.forget id).remember id fate).entries[x]? = some s → r.entries[x]? = some s := by
    intro x s hs
    rw [lookup_leave] at hs
    by_cases hx : id = x
    · rw [if_pos hx] at hs
      cases hs
    · rwa [if_neg hx] at hs
  refine ⟨fun hs => h.filed (hold hs), fun hs => h.allocated (hold hs),
    fun hs => h.numbered (hold hs), fun hs ht => h.apart (hold hs) (hold ht), ?_, ?_⟩
  · intro x hx hmem
    obtain ⟨hne, hmem⟩ := Std.HashMap.mem_erase.mp hmem
    rcases Std.HashMap.mem_insert.mp hx with heq | hx
    · simp [heq] at hne
    · exact h.gone hx hmem
  · change r.nextSeq.toNat = (r.entries.erase id).size + (r.retired.insert id fate).size
    have hgone : id ∉ r.retired := fun hgone => h.gone hgone hlive
    have hpos : 0 < r.entries.size := by
      rw [← Std.HashMap.length_keys]
      exact List.length_pos_of_mem (Std.HashMap.mem_keys.mpr hlive)
    rw [Std.HashMap.size_erase, if_pos hlive, Std.HashMap.size_insert, if_neg hgone, h.counted]
    omega

lemma ordered_leave (h : r.Sound) (hlive : id ∈ r.entries) (fate : Fate) :
    ((r.forget id).remember id fate).ordered = r.ordered.filter (·.id != id) := by
  refine (h.leave hlive fate).sortBySeq_eq (.refl _) (fun s => ?_)
    (h.pairwise_ordered.sublist List.filter_sublist)
  rw [List.mem_filter, h.mem_ordered, lookup_leave]
  by_cases hs : id = s.id
  · simp [hs]
  · simp [hs, Ne.symm hs]

/-- The identifiers that are remembered one after the other join those that have left. -/
lemma foldl_remember {slots : List (Slot η)} (hids : (slots.map (·.id)).Nodup) {r : Store η}
    (hgone : ∀ s ∈ slots, s.id ∉ r.retired) :
    let q := slots.foldl (fun r s => r.remember s.id .freed) r
    q.entries = r.entries ∧ q.nextSeq = r.nextSeq ∧
      q.retired.size = r.retired.size + slots.length ∧
      ∀ x, q.retired[x]? = if x ∈ slots.map (·.id) then some .freed else r.retired[x]? := by
  induction slots generalizing r with
  | nil => simp
  | cons s slots ih =>
    rw [List.map_cons, List.nodup_cons] at hids
    have hrest : ∀ t ∈ slots, t.id ∉ (r.remember s.id .freed).retired := by
      intro t ht hmem
      rcases Std.HashMap.mem_insert.mp hmem with heq | hmem
      · rw [eq_of_beq heq] at hids
        exact hids.1 (List.mem_map_of_mem ht)
      · exact hgone t (List.mem_cons_of_mem s ht) hmem
    obtain ⟨hentries, hnext, hsize, hlookup⟩ := ih hids.2 hrest
    refine ⟨hentries, hnext, ?_, fun x => ?_⟩
    · rw [List.foldl_cons, hsize, remember, Std.HashMap.size_insert,
        if_neg (hgone s List.mem_cons_self), List.length_cons]
      omega
    · rw [List.foldl_cons, hlookup, remember, Std.HashMap.getElem?_insert]
      by_cases hx : s.id = x
      · simp [hx]
      · simp [hx, Ne.symm hx]

lemma mem_entries_of_ordered (h : r.Sound) {s : Slot η} (hs : s ∈ r.ordered) :
    s.id ∈ r.entries := by
  rw [Std.HashMap.mem_iff_isSome_getElem?, h.mem_ordered.mp hs]
  rfl

/-- A drain leaves no slots, and remembers all identifiers as freed. -/
lemma drain_eq (h : r.Sound) :
    r.drain.2.entries = ∅ ∧ r.drain.2.nextSeq = r.nextSeq ∧
      r.drain.2.retired.size = r.retired.size + r.entries.size ∧
      ∀ x, r.drain.2.retired[x]? = if x ∈ r.ids then some .freed else r.retired[x]? := by
  have hgone : ∀ s ∈ r.ordered, s.id ∉ r.retired := fun s hs hmem =>
    h.gone hmem (h.mem_entries_of_ordered hs)
  have hdrain := foldl_remember h.nodup_ids (r := { r with entries := ∅ }) hgone
  rwa [length_ordered] at hdrain

theorem drain (h : r.Sound) : r.drain.2.Sound := by
  obtain ⟨hentries, hnext, hsize, hretired⟩ := h.drain_eq
  have hnone : ∀ {x : TensorId} {s : Slot η}, r.drain.2.entries[x]? ≠ some s := by
    intro x s hs
    rw [hentries, Std.HashMap.getElem?_empty] at hs
    cases hs
  refine ⟨fun hs => absurd hs hnone, fun hs => absurd hs hnone, fun hs => absurd hs hnone,
    fun hs => absurd hs hnone, fun _ hmem => ?_, ?_⟩
  · rw [hentries] at hmem
    exact Std.HashMap.not_mem_empty hmem
  · rw [hnext, hsize, hentries, Std.HashMap.size_empty, h.counted]
    omega

lemma ordered_drain (h : r.Sound) : r.drain.2.ordered = [] := by
  simp [ordered, slots, h.drain_eq.1, sortBySeq]

end Sound

end TensorMachine.Store
