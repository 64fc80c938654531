import TensorMachine.Proofs.PoolHistory
import TensorMachine.Proofs.StoreCalls

/-!
# Histories of a store

A new store is served calls in any order and with any arguments, and some of them are refused. It
gives the answers of a pool and represents the pool all the time, so that the two maps and the
counter account for what was asked.
-/

namespace TensorMachine.Store

variable {η α β : Type}

open Pool (Call Served)

/-- The handles that a call gives back, by the steps that it takes. -/
def grant : Call η → Steps PoolError (Store η) (List (TensorId × η))
  | .insert id handle state => do
    insert id handle state
    pure []
  | .replaceHandle id handle => do
    let old ← replaceHandle id handle
    pure [(id, old)]
  | .transition id target => do
    let _ ← transition id target
    pure []
  | .remove id => do
    let handle ← remove id
    pure [(id, handle)]
  | .consume id successor => do
    let handle ← consume id successor
    pure [(id, handle)]
  | .drain => fun r => (.ok r.drain.1, r.drain.2)

def serve (r : Store η) (call : Call η) : Served η × Store η :=
  (⟨call, (grant call r).1⟩, (grant call r).2)

/-- A history with one more call behind it. -/
def extend (past : List (Served η) × Store η) (call : Call η) : List (Served η) × Store η :=
  (past.1 ++ [(past.2.serve call).1], (past.2.serve call).2)

/-- What a new store answers to calls, and the store behind them. -/
def history (calls : List (Call η)) : List (Served η) × Store η :=
  calls.foldl extend ([], .empty)

lemma Follows.map {r : Store η} {x : Steps PoolError (Store η) α}
    {y : Except PoolError (α × Pool η)} (h : Follows r (x r) y) (f : α → β) :
    Follows r ((x >>= fun a => pure (f a)) r) (y.map fun t => (f t.1, t.2)) := by
  generalize hx : x r = outcome at h
  cases h with
  | granted h =>
    rw [Steps.bind_of_ok hx]
    exact .granted h
  | refused e =>
    rw [Steps.bind_of_error hx]
    exact .refused e

namespace Represents

variable {r : Store η} {p : Pool η}

theorem grant (h : Represents r p) (call : Call η) : Follows r (grant call r) (p.grant call) := by
  cases call with
  | insert id handle state =>
    have hanswer : p.grant (.insert id handle state) =
        ((p.insert id handle state).map fun q => ((), q)).map fun t => ([], t.2) := by
      rw [Pool.grant]
      cases p.insert id handle state <;> rfl
    rw [hanswer]
    exact (h.insert id handle state).map fun _ => []
  | replaceHandle id handle => exact (h.replaceHandle id handle).map fun old => [(id, old)]
  | transition id target => exact (h.transition id target).map fun _ => []
  | remove id => exact (h.remove id).map fun handle => [(id, handle)]
  | consume id successor => exact (h.consume id successor).map fun handle => [(id, handle)]
  | drain =>
    change Follows r (.ok r.drain.1, r.drain.2) (.ok (p.drain.1, p.drain.2))
    rw [h.drain.1]
    exact .granted h.drain.2

lemma serve (h : Represents r p) (call : Call η) :
    (r.serve call).1 = (p.serve call).1 ∧ Represents (r.serve call).2 (p.serve call).2 := by
  have hgrant := h.grant call
  unfold Store.serve Pool.serve
  generalize Store.grant call r = outcome at hgrant ⊢
  generalize p.grant call = answer at hgrant ⊢
  cases hgrant with
  | granted h => exact ⟨rfl, h⟩
  | refused e => exact ⟨rfl, h⟩

end Represents

/-- A store gives the answers of a pool, whatever it is asked, and represents the pool. -/
theorem represents_history (calls : List (Call η)) :
    (history calls).1 = (Pool.history calls).1 ∧
      Represents (history calls).2 (Pool.history calls).2 := by
  have hall : ∀ (r : Store η) (p : Pool η) (served : List (Served η)), Represents r p →
      (calls.foldl extend (served, r)).1 = (calls.foldl Pool.extend (served, p)).1 ∧
        Represents (calls.foldl extend (served, r)).2 (calls.foldl Pool.extend (served, p)).2 := by
    induction calls with
    | nil => exact fun r p served h => ⟨rfl, h⟩
    | cons call calls ih =>
      intro r p served h
      obtain ⟨hanswer, hnext⟩ := h.serve call
      have hrest := ih (r.serve call).2 (p.serve call).2 (served ++ [(p.serve call).1]) hnext
      rwa [List.foldl_cons, List.foldl_cons, extend, Pool.extend, hanswer]
  exact hall .empty .empty [] represents_empty

/-- An identifier is inserted at most once in a history. Live are those that were inserted and did
not leave; none of them is remembered as gone or in the state of a freed one, and all listings tell
them in the order of their insertion, in whatever order the map lists its slots. Every handle that
was put in is in the store under its identifier or was given back, and that once. -/
theorem history_exact (calls : List (Call η)) :
    let served := (history calls).1
    let r := (history calls).2
    let inserted := served.flatMap Served.inserted
    let left := (served.flatMap Served.left).map Prod.fst
    inserted.Nodup ∧
      (∀ id, r.contains id = true ↔ id ∈ inserted ∧ id ∉ left) ∧
      (∀ id, id ∈ r.retired ↔ id ∈ left) ∧
      (∀ id, r.contains id = true → id ∉ r.retired) ∧
      (∀ (id : TensorId) (s : Slot η), r.entries[id]? = some s → s.id = id ∧ s.state ≠ .freed) ∧
      (r.ids = inserted.filter (· ∉ left) ∧ r.snapshot.map Prod.fst = r.ids ∧
        r.drain.1.map Prod.fst = r.ids ∧ r.size = r.ids.length) ∧
      (∀ slots, slots.Perm r.slots → sortBySeq slots = r.ordered) ∧
      (∀ id s, r.get id = .ok s → (id, s.state) ∈ r.snapshot ∧ (id, s.handle) ∈ r.drain.1) ∧
      (served.flatMap Served.put).Perm (r.drain.1 ++ served.flatMap Served.given) := by
  intro served r inserted left
  obtain ⟨hserved, hrepresents⟩ := represents_history calls
  have h := Pool.recounted_history calls
  rw [← hserved] at h
  have hsound := hrepresents.sound
  have hids : r.ids = inserted.filter (· ∉ left) := hrepresents.ids.trans h.ids
  have hlive : ∀ id, r.contains id = true ↔ id ∈ inserted ∧ id ∉ left := by
    intro id
    rw [hrepresents.contains, Pool.contains_iff_mem_ids, h.ids, List.mem_filter, decide_eq_true_eq]
  have hgone : ∀ id, id ∈ r.retired ↔ id ∈ left := by
    intro id
    rw [Std.HashMap.mem_iff_isSome_getElem?, hrepresents.fates, h.fate?_isSome_iff]
  refine ⟨h.inserted_once, hlive, hgone, fun id hid hmem => ?_,
    fun id s hs => ⟨hsound.filed hs, hsound.state_ne_freed hs⟩,
    ⟨hids, map_fst_snapshot r, ?_, ?_⟩, fun slots hperm => ?_, fun id s hget => ?_, ?_⟩
  · exact ((hlive id).mp hid).2 ((hgone id).mp hmem)
  · rw [drain, ids, List.map_map]
    rfl
  · rw [ids, List.length_map, length_ordered]
  · exact hsound.sortBySeq_eq hperm (fun _ => hsound.mem_ordered) hsound.pairwise_ordered
  · have hstored := get_eq_ok hget
    obtain rfl := hsound.filed hstored
    have hs := hsound.mem_ordered.mpr hstored
    exact ⟨List.mem_map_of_mem (f := fun s => (s.id, s.state)) hs,
      List.mem_map_of_mem (f := fun s => (s.id, s.handle)) hs⟩
  · rw [hrepresents.drain.1]
    exact h.handles

end TensorMachine.Store
