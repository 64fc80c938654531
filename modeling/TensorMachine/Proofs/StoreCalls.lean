import TensorMachine.Proofs.PoolContents
import TensorMachine.Proofs.SoundStores

/-!
# Stores and pools

A store represents a pool if its slots, in the order of their numbers, tell the live tensors of the
pool in the order of their introduction, and both remember the same fates. A call of the store then
gives the answer of the pool and leaves a store that represents the pool behind the call. A call
that is refused has not changed the store, though it may change it in steps.
-/

namespace TensorMachine

variable {η α : Type}

/-- What a slot tells of the tensor in it. -/
def Slot.content (s : Slot η) : TensorId × η × State := (s.id, s.handle, s.state)

def Entry.content (e : Entry η) : TensorId × η × State := (e.id, e.handle, e.state)

/-- A drain gives all live identifiers the same fate. -/
lemma Pool.fate?_drain (p : Pool η) (id : TensorId) :
    p.drain.2.fate? id = if id ∈ p.ids then some .freed else p.fate? id := by
  have hfreed : (p.live.map fun e => (e.id, Fate.freed)).reverse =
      p.ids.reverse.map fun id => (id, Fate.freed) := by
    rw [ids, ← List.map_reverse, ← List.map_reverse, List.map_map]
    rfl
  rw [fate?, drain, List.lookup_append, hfreed]
  by_cases hid : id ∈ p.ids
  · rw [if_pos hid, List.lookup_graph _ (List.mem_reverse.mpr hid)]
    rfl
  · have hnone : (p.ids.reverse.map fun id => (id, Fate.freed)).lookup id = none := by
      rw [List.lookup_eq_none_iff]
      rintro t ht
      obtain ⟨other, hother, rfl⟩ := List.mem_map.mp ht
      have hne : id ≠ other := by
        rintro rfl
        exact hid (List.mem_reverse.mp hother)
      simpa using hne
    rw [if_neg hid, hnone]
    rfl

namespace Store

structure Represents (r : Store η) (p : Pool η) : Prop where
  sound : r.Sound
  content : r.ordered.map Slot.content = p.live.map Entry.content
  fates : ∀ id, r.retired[id]? = p.fate? id

lemma represents_empty : Represents (empty : Store η) .empty where
  sound := sound_empty
  content := by simp [empty, ordered, slots, sortBySeq, Pool.empty]
  fates := by simp [empty, Pool.empty, Pool.fate?]

/-- A slot and a live tensor that are found under the same identifier. -/
structure Shows (r : Store η) (p : Pool η) (id : TensorId) (s : Slot η) (e : Entry η) : Prop where
  stored : r.entries[id]? = some s
  live : p.find? id = some e
  handle : s.handle = e.handle
  state : s.state = e.state

lemma Shows.get {r : Store η} {p : Pool η} {id : TensorId} {s : Slot η} {e : Entry η}
    (h : Shows r p id s e) : r.get id = .ok s := by
  rw [Store.get, h.stored]

lemma Sound.find?_ordered {r : Store η} (h : r.Sound) (id : TensorId) :
    r.ordered.find? (·.id == id) = r.entries[id]? := by
  cases hfind : r.ordered.find? (·.id == id) with
  | some s =>
    have hid : s.id = id := by simpa using List.find?_some hfind
    rw [← hid, h.mem_ordered.mp (List.mem_of_find?_eq_some hfind)]
  | none =>
    cases hstored : r.entries[id]? with
    | none => rfl
    | some s =>
      have hid := h.filed hstored
      have hs := List.find?_eq_none.mp hfind s (h.mem_ordered.mpr (hid ▸ hstored))
      exact absurd (by simpa using hid) hs

lemma get_eq_ok {r : Store η} {id : TensorId} {s : Slot η} (h : r.get id = .ok s) :
    r.entries[id]? = some s := by
  unfold Store.get at h
  cases hstored : r.entries[id]? with
  | none =>
    rw [hstored] at h
    cases h
  | some t =>
    rw [hstored] at h
    cases h
    rfl

namespace Represents

variable {r : Store η} {p : Pool η} {id : TensorId}

lemma lookup (h : Represents r p) (id : TensorId) :
    (r.entries[id]?).map Slot.content = (p.find? id).map Entry.content := by
  have hfind := congrArg (List.find? (·.1 == id)) h.content
  rw [List.find?_map, List.find?_map] at hfind
  rw [← h.sound.find?_ordered]
  exact hfind

lemma lookup_cases (h : Represents r p) (id : TensorId) :
    (r.entries[id]? = none ∧ p.find? id = none) ∨ ∃ s e, Shows r p id s e := by
  have hlookup := h.lookup id
  cases hstored : r.entries[id]? with
  | none =>
    rw [hstored] at hlookup
    exact .inl ⟨rfl, Option.map_eq_none_iff.mp hlookup.symm⟩
  | some s =>
    rw [hstored] at hlookup
    obtain ⟨e, hlive, hcontent⟩ := Option.map_eq_some_iff.mp hlookup.symm
    obtain ⟨-, hrest⟩ := Prod.mk.inj hcontent
    obtain ⟨hhandle, hstate⟩ := Prod.mk.inj hrest
    exact .inr ⟨s, e, hstored, hlive, hhandle.symm, hstate.symm⟩

lemma exists_shows (h : Represents r p) {e : Entry η} (hfind : p.find? id = some e) :
    ∃ s, Shows r p id s e := by
  rcases h.lookup_cases id with ⟨-, hnone⟩ | ⟨s, e', hshows⟩
  · rw [hfind] at hnone
    cases hnone
  · obtain rfl := Option.some_inj.mp (hfind.symm.trans hshows.live)
    exact ⟨s, hshows⟩

/-!
### Listings and lookups
-/

lemma ids (h : Represents r p) : r.ids = p.ids := by
  have hids := congrArg (List.map Prod.fst) h.content
  rwa [List.map_map, List.map_map] at hids

lemma snapshot (h : Represents r p) : r.snapshot = p.snapshot := by
  have hstates := congrArg (List.map fun t => (t.1, t.2.2)) h.content
  rwa [List.map_map, List.map_map] at hstates

lemma handles (h : Represents r p) : (r.ordered.map fun s => (s.id, s.handle)) = p.holdings := by
  have hhandles := congrArg (List.map fun t => (t.1, t.2.1)) h.content
  rwa [List.map_map, List.map_map] at hhandles

lemma contains (h : Represents r p) (id : TensorId) : r.contains id = p.contains id := by
  rw [Store.contains, Std.HashMap.contains_eq_isSome_getElem?, Pool.contains]
  rcases h.lookup_cases id with ⟨hstored, hlive⟩ | ⟨s, e, hshows⟩
  · rw [hstored, hlive]
    rfl
  · rw [hshows.stored, hshows.live]
    rfl

lemma missing (h : Represents r p) (id : TensorId) : r.missing id = p.missing id := by
  have hfate := h.fates id
  unfold Store.missing Pool.missing
  generalize r.retired[id]? = fate at hfate ⊢
  subst hfate
  rfl

lemma isKnown (h : Represents r p) (id : TensorId) :
    (r.entries.contains id || r.retired.contains id) = p.isKnown id := by
  rw [Pool.isKnown, ← h.contains, ← h.fates, ← Std.HashMap.contains_eq_isSome_getElem?]
  rfl

lemma ensureFresh (h : Represents r p) (id : TensorId) : r.ensureFresh id = p.ensureFresh id := by
  rw [Store.ensureFresh, Pool.ensureFresh, h.isKnown]

/-- Both refuse for the same cause, or both find the tensor. -/
lemma get_cases (h : Represents r p) (id : TensorId) :
    (∃ e, r.get id = .error e ∧ p.get id = .error e) ∨
      ∃ s e, Shows r p id s e ∧ r.get id = .ok s ∧ p.get id = .ok e := by
  rcases h.lookup_cases id with ⟨hstored, hlive⟩ | ⟨s, e, hshows⟩
  · exact .inl ⟨p.missing id, by rw [Store.get, hstored, h.missing], by rw [Pool.get, hlive]⟩
  · exact .inr ⟨s, e, hshows, hshows.get, by rw [Pool.get, hshows.live]⟩

lemma checkTransition_cases (h : Represents r p) (id : TensorId) (target : State) :
    (∃ e, r.checkTransition id target = .error e ∧ p.checkTransition id target = .error e) ∨
      ∃ s e, Shows r p id s e ∧ r.checkTransition id target = .ok s ∧
        p.checkTransition id target = .ok e := by
  rw [Store.checkTransition, Pool.checkTransition]
  rcases h.lookup_cases id with ⟨hstored, hlive⟩ | ⟨s, e, hshows⟩
  · simp only [hstored, hlive, h.missing]
    cases p.missing id <;> exact .inl ⟨_, rfl, rfl⟩
  · simp only [hshows.stored, hshows.live, hshows.state]
    by_cases hmove : e.state.canBecome target = true
    · exact .inr ⟨s, e, hshows, if_pos hmove, if_pos hmove⟩
    · exact .inl ⟨_, if_neg hmove, if_neg hmove⟩

/-!
### Changes
-/

lemma introduce (h : Represents r p) (hnew : p.isKnown id = false) (handle : η)
    (side : Residence) :
    Represents (r.introduce id handle (.resident side)) (p.introduce id handle side) := by
  rw [← h.isKnown, Bool.or_eq_false_iff] at hnew
  have hlive : id ∉ r.entries := by simp [Std.HashMap.mem_iff_contains, hnew.1]
  have hgone : id ∉ r.retired := by simp [Std.HashMap.mem_iff_contains, hnew.2]
  refine ⟨h.sound.introduce hlive hgone rfl, ?_, h.fates⟩
  rw [h.sound.ordered_introduce hlive hgone rfl, List.map_append, h.content, Pool.introduce,
    List.map_append]
  rfl

lemma update {s : Slot η} {e : Entry η} (h : Represents r p) (hshows : Shows r p id s e)
    {f : Slot η → Slot η} {handle : η} {side : Residence} (hid : ∀ s, (f s).id = s.id)
    (hseq : ∀ s, (f s).seq = s.seq)
    (hstate : ∀ s, s.state.isAllocated → (f s).state.isAllocated)
    (hhandle : (f s).handle = handle) (hside : (f s).state = .resident side) :
    Represents (r.update id f) (p.place id handle side) := by
  refine ⟨h.sound.update hid hseq hstate, ?_, h.fates⟩
  let g : TensorId × η × State → TensorId × η × State := fun t =>
    if t.1 = id then (id, handle, .resident side) else t
  have hslots : (r.update id f).ordered.map Slot.content = (r.ordered.map Slot.content).map g := by
    rw [h.sound.ordered_update hid hseq hstate, List.map_map, List.map_map]
    apply List.map_congr_left
    intro t ht
    by_cases htid : t.id = id
    · have hfound := h.sound.mem_ordered.mp ht
      rw [htid, hshows.stored, Option.some_inj] at hfound
      simp [g, Slot.content, ← hfound, h.sound.filed hshows.stored, hid, hhandle, hside]
    · simp [g, Slot.content, htid]
  have hentries : (p.place id handle side).live.map Entry.content =
      (p.live.map Entry.content).map g := by
    rw [Pool.place, List.map_map, List.map_map]
    apply List.map_congr_left
    intro t _
    by_cases htid : t.id = id <;> simp [g, Entry.content, Entry.state, htid]
  rw [hslots, hentries, h.content]

lemma leave {s : Slot η} {e : Entry η} (h : Represents r p) (hshows : Shows r p id s e)
    (fate : Fate) : Represents ((r.forget id).remember id fate) (p.retire id fate) := by
  have hlive : id ∈ r.entries := by simp [Std.HashMap.mem_iff_isSome_getElem?, hshows.stored]
  refine ⟨h.sound.leave hlive fate, ?_, fun x => ?_⟩
  · have hfilter := congrArg (List.filter (·.1 != id)) h.content
    rw [List.filter_map, List.filter_map] at hfilter
    rw [h.sound.ordered_leave hlive]
    exact hfilter
  · rw [Pool.fate?_retire, ← h.fates, remember, Std.HashMap.getElem?_insert]
    by_cases hx : id = x <;> simp [hx, forget]

lemma drain (h : Represents r p) : r.drain.1 = p.drain.1 ∧ Represents r.drain.2 p.drain.2 := by
  refine ⟨h.handles, h.sound.drain, by rw [h.sound.ordered_drain]; rfl, fun x => ?_⟩
  obtain ⟨-, -, -, hretired⟩ := h.sound.drain_eq
  rw [hretired, h.ids, h.fates, Pool.fate?_drain]

end Represents

/-!
### Calls
-/

/-- The store goes along with an answer of the pool: behind a granted call it represents the pool
behind it, and a refused call leaves it as it was. -/
inductive Follows (r : Store η) :
    Except PoolError α × Store η → Except PoolError (α × Pool η) → Prop
  | granted {a : α} {r' : Store η} {q : Pool η} (h : Represents r' q) :
    Follows r (.ok a, r') (.ok (a, q))
  | refused (e : PoolError) : Follows r (.error e, r) (.error e)

open Steps

lemma ask_of_eq {f : Store η → Except PoolError α} {r : Store η} {answer : Except PoolError α}
    (h : f r = answer) : ask f r = (answer, r) := by
  rw [ask, h]

/-- A stored slot leaves without a failure. -/
lemma retire_eq {r : Store η} {id : TensorId} {s : Slot η} (hstored : r.entries[id]? = some s)
    (fate : Fate) : retire id fate r = (.ok s.handle, (r.forget id).remember id fate) := by
  unfold retire
  rw [bind_of_ok (ask_of_eq (by rw [hstored]))]
  rfl

namespace Represents

variable {r : Store η} {p : Pool η}

theorem insert (h : Represents r p) (id : TensorId) (handle : η) (state : State) :
    Follows r (Store.insert id handle state r)
      ((p.insert id handle state).map fun q => ((), q)) := by
  unfold Store.insert Pool.insert
  cases hfresh : p.ensureFresh id with
  | error e =>
    rw [bind_of_error (ask_of_eq ((h.ensureFresh id).trans hfresh))]
    exact .refused e
  | ok =>
    rw [bind_of_ok (ask_of_eq ((h.ensureFresh id).trans hfresh))]
    cases state with
    | resident side =>
      exact .granted (h.introduce (Pool.ensureFresh_eq_ok_iff.mp hfresh) handle side)
    | freed => exact .refused _

theorem replaceHandle (h : Represents r p) (id : TensorId) (handle : η) :
    Follows r (Store.replaceHandle id handle r) (p.replaceHandle id handle) := by
  unfold Store.replaceHandle Pool.replaceHandle
  rcases h.get_cases id with ⟨e, hrefused, hget⟩ | ⟨s, e, hshows, hfound, hget⟩
  · rw [bind_of_error (ask_of_eq hrefused), hget]
    exact .refused e
  · rw [bind_of_ok (ask_of_eq hfound), hget, hshows.handle]
    exact .granted (h.update hshows (fun _ => rfl) (fun _ => rfl) (fun _ hs => hs) rfl hshows.state)

theorem transition (h : Represents r p) (id : TensorId) (target : State) :
    Follows r (Store.transition id target r) (p.transition id target) := by
  unfold Store.transition Pool.transition
  rcases h.checkTransition_cases id target with
    ⟨e, hrefused, hcheck⟩ | ⟨s, e, hshows, hfound, hcheck⟩
  · rw [bind_of_error (ask_of_eq hrefused), hcheck]
    exact .refused e
  · rw [bind_of_ok (ask_of_eq hfound), hcheck, hshows.state]
    cases target with
    | resident side =>
      have hallocated : (State.resident side).isAllocated = true := rfl
      rw [if_pos hallocated, bind_of_ok (ask_of_eq hshows.get)]
      exact .granted (h.update hshows (fun _ => rfl) (fun _ => rfl) (fun _ _ => rfl)
        hshows.handle rfl)
    | freed => exact .refused _

theorem remove (h : Represents r p) (id : TensorId) :
    Follows r (Store.remove id r) (p.remove id) := by
  unfold Store.remove Pool.remove
  rcases h.checkTransition_cases id .freed with
    ⟨e, hrefused, hcheck⟩ | ⟨s, e, hshows, hfound, hcheck⟩
  · rw [bind_of_error (ask_of_eq hrefused), hcheck]
    exact .refused e
  · rw [bind_of_ok (ask_of_eq hfound), retire_eq hshows.stored, hcheck, hshows.handle]
    exact .granted (h.leave hshows .freed)

theorem consume (h : Represents r p) (id successor : TensorId) :
    Follows r (Store.consume id successor r) (p.consume id successor) := by
  unfold Store.consume Pool.consume
  rcases h.get_cases id with ⟨e, hrefused, hget⟩ | ⟨s, e, hshows, hfound, hget⟩
  · rw [bind_of_error (ask_of_eq hrefused), hget]
    exact .refused e
  · rw [bind_of_ok (ask_of_eq hfound), retire_eq hshows.stored, hget, hshows.handle]
    exact .granted (h.leave hshows (.consumed successor))

end Represents

end Store

end TensorMachine
