import TensorMachine.Tensor.Pool
import Mathlib.Data.List.Basic

/-!
# Pools seen through identifiers

Whatever a pool decides, it decides by looking identifiers up: the live tensor of an identifier, or
the fate of one that left. This file says what every change of a pool does to these two lookups.
Two pools are alike along a function on handles if they give corresponding answers to all lookups,
in whatever order their tensors were introduced; no check of a pool tells such pools apart.
-/

namespace TensorMachine

variable {η θ : Type}

namespace Pool

/-!
### Lookups after changes
-/

lemma find?_id {p : Pool η} {id : TensorId} {e : Entry η} (h : p.find? id = some e) : e.id = id := by
  have hp := List.find?_some h
  simpa using hp

lemma mem_of_find? {p : Pool η} {id : TensorId} {e : Entry η} (h : p.find? id = some e) :
    e ∈ p.live :=
  List.mem_of_find?_eq_some h

lemma find?_eq_none_iff (p : Pool η) (id : TensorId) : p.find? id = none ↔ id ∉ p.ids := by
  simp only [find?, ids, List.find?_eq_none, List.mem_map, not_exists, not_and, beq_iff_eq]

lemma contains_iff_mem_ids (p : Pool η) (id : TensorId) : p.contains id = true ↔ id ∈ p.ids := by
  rw [contains, Option.isSome_iff_ne_none, ne_eq, find?_eq_none_iff, not_not]

lemma isKnown_eq_false_iff (p : Pool η) (id : TensorId) :
    p.isKnown id = false ↔ p.find? id = none ∧ p.fate? id = none := by
  simp [isKnown, contains]

lemma find?_of_fresh {p : Pool η} {id : TensorId} (h : p.isKnown id = false) :
    p.find? id = none :=
  ((p.isKnown_eq_false_iff id).mp h).1

lemma find?_introduce (p : Pool η) (id x : TensorId) (handle : η) (side : Residence) :
    (p.introduce id handle side).find? x =
      (p.find? x).or (if id = x then some ⟨id, handle, side⟩ else none) := by
  by_cases h : id = x <;> simp [introduce, find?, List.find?_append, h]

lemma find?_place (p : Pool η) (id x : TensorId) (handle : η) (side : Residence) :
    (p.place id handle side).find? x =
      if id = x then (p.find? x).map fun _ => ⟨id, handle, side⟩ else p.find? x := by
  let g : Entry η → Entry η := fun e => if e.id = id then ⟨id, handle, side⟩ else e
  have hkeep : ((·.id == x) ∘ g) = (·.id == x) := by
    funext e
    by_cases he : e.id = id <;> simp [g, he]
  change (p.live.map g).find? (·.id == x) = _
  rw [List.find?_map, hkeep]
  change (p.find? x).map g = _
  cases hfind : p.find? x with
  | none => simp
  | some e =>
    have hex := find?_id hfind
    by_cases hx : id = x
    · simp [g, hx, hex]
    · simp [g, hx, hex, Ne.symm hx]

lemma find?_retire (p : Pool η) (id x : TensorId) (fate : Fate) :
    (p.retire id fate).find? x = if id = x then none else p.find? x := by
  simp only [find?, retire, List.find?_filter]
  by_cases hx : id = x
  · subst hx
    simp
  · rw [if_neg hx]
    congr 1
    funext e
    by_cases he : e.id = x
    · simp [he, Ne.symm hx]
    · simp [he]

@[simp] lemma fate?_introduce (p : Pool η) (id x : TensorId) (handle : η) (side : Residence) :
    (p.introduce id handle side).fate? x = p.fate? x := rfl

@[simp] lemma fate?_place (p : Pool η) (id x : TensorId) (handle : η) (side : Residence) :
    (p.place id handle side).fate? x = p.fate? x := rfl

lemma fate?_retire (p : Pool η) (id x : TensorId) (fate : Fate) :
    (p.retire id fate).fate? x = if id = x then some fate else p.fate? x := by
  simp only [fate?, retire, List.lookup_cons]
  by_cases hx : id = x
  · simp [hx]
  · have hne : (x == id) = false := by simp [Ne.symm hx]
    simp [hx, hne]

/-!
### Live tensors after changes
-/

lemma mem_live_introduce {p : Pool η} {id : TensorId} {handle : η} {side : Residence} {e : Entry η} :
    e ∈ (p.introduce id handle side).live ↔ e ∈ p.live ∨ e = ⟨id, handle, side⟩ := by
  simp [introduce]

lemma mem_live_place {p : Pool η} {id : TensorId} {handle : η} {side : Residence} {e : Entry η}
    (h : e ∈ (p.place id handle side).live) : e = ⟨id, handle, side⟩ ∨ e ∈ p.live ∧ e.id ≠ id := by
  obtain ⟨old, hold, rfl⟩ := List.mem_map.mp h
  by_cases hid : old.id = id
  · exact .inl (if_pos hid)
  · rw [if_neg hid]
    exact .inr ⟨hold, hid⟩

lemma mem_live_retire {p : Pool η} {id : TensorId} {fate : Fate} {e : Entry η} :
    e ∈ (p.retire id fate).live ↔ e ∈ p.live ∧ e.id ≠ id := by
  simp [retire]

end Pool

/-!
### Likeness
-/

/-- The entry with another handle. -/
def Entry.map (f : η → θ) (e : Entry η) : Entry θ := ⟨e.id, f e.handle, e.residence⟩

@[simp] lemma Entry.map_id (f : η → θ) (e : Entry η) : (e.map f).id = e.id := rfl

@[simp] lemma Entry.map_handle (f : η → θ) (e : Entry η) : (e.map f).handle = f e.handle := rfl

@[simp] lemma Entry.map_residence (f : η → θ) (e : Entry η) : (e.map f).residence = e.residence :=
  rfl

@[simp] lemma Entry.map_state (f : η → θ) (e : Entry η) : (e.map f).state = e.state := rfl

/-- Every identifier has the same residence or the same fate in both pools, and the handle in the
second pool is the image of the handle in the first. -/
structure Pool.Alike (f : η → θ) (p : Pool η) (q : Pool θ) : Prop where
  find? : ∀ id, q.find? id = (p.find? id).map (Entry.map f)
  fate? : ∀ id, q.fate? id = p.fate? id

namespace Pool.Alike

variable {f : η → θ} {p : Pool η} {q : Pool θ}

lemma contains (h : Alike f p q) (id : TensorId) : q.contains id = p.contains id := by
  simp [Pool.contains, h.find?]

lemma isKnown (h : Alike f p q) (id : TensorId) : q.isKnown id = p.isKnown id := by
  simp [Pool.isKnown, h.contains, h.fate?]

lemma missing (h : Alike f p q) (id : TensorId) : q.missing id = p.missing id := by
  simp [Pool.missing, h.fate?]

lemma ensureFresh (h : Alike f p q) (id : TensorId) : q.ensureFresh id = p.ensureFresh id := by
  simp [Pool.ensureFresh, h.isKnown]

lemma get (h : Alike f p q) (id : TensorId) : q.get id = (p.get id).map (Entry.map f) := by
  rw [Pool.get, Pool.get, h.find?]
  cases p.find? id with
  | none => simp [Except.map, h.missing]
  | some e => rfl

lemma checkTransition (h : Alike f p q) (id : TensorId) (target : State) :
    q.checkTransition id target = (p.checkTransition id target).map (Entry.map f) := by
  rw [Pool.checkTransition, Pool.checkTransition, h.find?]
  cases p.find? id with
  | none =>
    simp only [Option.map_none, h.missing]
    cases p.missing id <;> rfl
  | some e =>
    simp only [Option.map_some, Entry.map_state]
    by_cases hmove : e.state.canBecome target = true
    · simp [hmove, Except.map]
    · simp [hmove, Except.map]

lemma introduce (h : Alike f p q) (id : TensorId) (handle : η) (side : Residence) :
    Alike f (p.introduce id handle side) (q.introduce id (f handle) side) where
  find? x := by
    rw [find?_introduce, find?_introduce, h.find?]
    cases p.find? x with
    | none => by_cases hx : id = x <;> simp [hx, Entry.map]
    | some e => rfl
  fate? := h.fate?

lemma place (h : Alike f p q) (id : TensorId) (handle : η) (side : Residence) :
    Alike f (p.place id handle side) (q.place id (f handle) side) where
  find? x := by
    rw [find?_place, find?_place, h.find?]
    by_cases hx : id = x
    · cases p.find? x <;> simp [hx, Entry.map]
    · simp [hx]
  fate? := h.fate?

lemma retire (h : Alike f p q) (id : TensorId) (fate : Fate) :
    Alike f (p.retire id fate) (q.retire id fate) where
  find? x := by
    rw [find?_retire, find?_retire, h.find?]
    by_cases hx : id = x <;> simp [hx]
  fate? x := by rw [fate?_retire, fate?_retire, h.fate?]

end Pool.Alike

end TensorMachine
