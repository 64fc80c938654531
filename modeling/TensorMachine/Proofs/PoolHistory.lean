import TensorMachine.Proofs.PoolContents

/-!
# Histories of a pool

A new pool is served calls in any order and with any arguments, and some of them are refused. What
it comes to is told by the calls that were granted: an identifier is inserted once in the whole
history, it is live from then on until it leaves, and a handle that was put in is in the pool or was
given back.
-/

namespace TensorMachine.Pool

variable {η : Type}

/-- The calls that may change a pool. -/
inductive Call (η : Type) where
  | insert (id : TensorId) (handle : η) (state : State)
  | replaceHandle (id : TensorId) (handle : η)
  | transition (id : TensorId) (target : State)
  | remove (id : TensorId)
  | consume (id successor : TensorId)
  | drain

/-- A call with its answer: the handles that it gives back under their identifiers, or the cause
for which it is refused. -/
structure Served (η : Type) where
  call : Call η
  answer : Except PoolError (List (TensorId × η))

/-- The handles that a call gives back, and the pool behind it. -/
def grant (p : Pool η) : Call η → Except PoolError (List (TensorId × η) × Pool η)
  | .insert id handle state => do
    let q ← p.insert id handle state
    .ok ([], q)
  | .replaceHandle id handle => do
    let (old, q) ← p.replaceHandle id handle
    .ok ([(id, old)], q)
  | .transition id target => do
    let (_, q) ← p.transition id target
    .ok ([], q)
  | .remove id => do
    let (handle, q) ← p.remove id
    .ok ([(id, handle)], q)
  | .consume id successor => do
    let (handle, q) ← p.consume id successor
    .ok ([(id, handle)], q)
  | .drain => .ok p.drain

def serve (p : Pool η) (call : Call η) : Served η × Pool η :=
  match p.grant call with
  | .ok (handles, q) => (⟨call, .ok handles⟩, q)
  | .error e => (⟨call, .error e⟩, p)

/-- A history with one more call behind it. -/
def extend (past : List (Served η) × Pool η) (call : Call η) : List (Served η) × Pool η :=
  (past.1 ++ [(past.2.serve call).1], (past.2.serve call).2)

/-- What a new pool answers to calls, and the pool behind them. -/
def history (calls : List (Call η)) : List (Served η) × Pool η :=
  calls.foldl extend ([], .empty)

/-!
### What calls tell
-/

namespace Served

def inserted : Served η → List TensorId
  | ⟨.insert id _ _, .ok _⟩ => [id]
  | _ => []

/-- The identifiers that left, with the fate of each. -/
def left : Served η → List (TensorId × Fate)
  | ⟨.remove id, .ok _⟩ => [(id, .freed)]
  | ⟨.consume id successor, .ok _⟩ => [(id, .consumed successor)]
  | ⟨.drain, .ok handles⟩ => handles.map fun t => (t.1, .freed)
  | _ => []

/-- The handle that was put in. -/
def put : Served η → List (TensorId × η)
  | ⟨.insert id handle _, .ok _⟩ => [(id, handle)]
  | ⟨.replaceHandle id handle, .ok _⟩ => [(id, handle)]
  | _ => []

/-- The handles that were given back. -/
def given : Served η → List (TensorId × η)
  | ⟨_, .ok handles⟩ => handles
  | _ => []

end Served

/-!
### Single calls
-/

/-- What a call tells explains how it changes a pool. -/
structure Served.Explains (r : Served η) (p q : Pool η) : Prop where
  inserted_new : r.inserted.Nodup ∧ ∀ id ∈ r.inserted, p.isKnown id = false
  left_live : ∀ id ∈ r.left.map Prod.fst, id ∈ p.ids
  ids : q.ids = (p.ids ++ r.inserted).filter (· ∉ r.left.map Prod.fst)
  retired : q.retired = r.left.reverse ++ p.retired
  handles : (p.holdings ++ r.put).Perm (q.holdings ++ r.given)

namespace Served

variable {p q : Pool η}

lemma explains_refused (p : Pool η) (call : Call η) (e : PoolError) :
    Explains ⟨call, .error e⟩ p p where
  inserted_new := by cases call <;> simp [inserted]
  left_live := by cases call <;> simp [left]
  ids := by cases call <;> simp [inserted, left]
  retired := by cases call <;> simp [left]
  handles := by cases call <;> simp [put, given]

lemma explains_insert {id : TensorId} {handle : η} {state : State}
    (h : p.insert id handle state = .ok q) : Explains ⟨.insert id handle state, .ok []⟩ p q := by
  obtain ⟨_, hfresh, hrest⟩ := Except.bind_eq_ok_iff.mp h
  have hnew := ensureFresh_eq_ok_iff.mp hfresh
  cases state with
  | freed => cases hrest
  | resident side =>
    cases hrest
    refine ⟨by simpa [inserted] using hnew, by simp [left], ?_, rfl, ?_⟩
    · simp [inserted, left, introduce, Pool.ids]
    · simp [put, given, holdings_introduce]

lemma explains_retire (hids : p.ids.Nodup) {e : Entry η} (hfind : p.find? e.id = some e)
    {fate : Fate} {r : Served η} (hinserted : r.inserted = []) (hleft : r.left = [(e.id, fate)])
    (hput : r.put = []) (hgiven : r.given = [(e.id, e.handle)]) :
    Explains r p (p.retire e.id fate) := by
  have hlive : e.id ∈ p.ids := List.mem_map_of_mem (mem_of_find? hfind)
  refine ⟨by simp [hinserted], by simpa [hleft] using hlive, ?_, by simp [hleft, retire], ?_⟩
  · rw [ids_retire, hinserted, hleft, List.append_nil]
    apply List.filter_congr
    intro id _
    by_cases h : id = e.id <;> simp [h]
  · rw [hput, hgiven, List.append_nil]
    exact (holdings_perm_retire hids hfind fate).trans (List.perm_append_singleton _ _).symm

lemma explains_place {e : Entry η} {handle : η} {side : Residence} {r : Served η}
    (hinserted : r.inserted = []) (hleft : r.left = [])
    (hhandles : (p.holdings ++ r.put).Perm ((p.place e.id handle side).holdings ++ r.given)) :
    Explains r p (p.place e.id handle side) := by
  refine ⟨by simp [hinserted], by simp [hleft], ?_, by simp [hleft, place], hhandles⟩
  simp [ids_place, hinserted, hleft]

lemma explains_replaceHandle (hids : p.ids.Nodup) {id : TensorId} {handle old : η}
    (h : p.replaceHandle id handle = .ok (old, q)) :
    Explains ⟨.replaceHandle id handle, .ok [(id, old)]⟩ p q := by
  obtain ⟨e, hget, hrest⟩ := Except.bind_eq_ok_iff.mp h
  have hfind := get_eq_ok_iff.mp hget
  obtain rfl := find?_id hfind
  cases hrest
  apply explains_place rfl rfl
  have hplace := holdings_perm_place hids hfind handle e.residence
  calc
    (p.holdings ++ [(e.id, handle)]).Perm ((e.id, handle) :: p.holdings) :=
      List.perm_append_singleton _ _
    List.Perm _ ((e.id, e.handle) :: (p.place e.id handle e.residence).holdings) := hplace.symm
    List.Perm _ ((p.place e.id handle e.residence).holdings ++ [(e.id, e.handle)]) :=
      (List.perm_append_singleton _ _).symm

lemma explains_transition (hids : p.ids.Nodup) {id : TensorId} {source target : State}
    (h : p.transition id target = .ok (source, q)) :
    Explains ⟨.transition id target, .ok []⟩ p q := by
  obtain ⟨e, hcheck, hrest⟩ := Except.bind_eq_ok_iff.mp h
  have hfind := (checkTransition_eq_ok_iff.mp hcheck).1
  obtain rfl := find?_id hfind
  cases target with
  | freed => cases hrest
  | resident side =>
    cases hrest
    apply explains_place rfl rfl
    have hplace := (holdings_perm_place hids hfind e.handle side).cons_inv
    simpa [put, given] using hplace.symm

lemma explains_remove (hids : p.ids.Nodup) {id : TensorId} {handle : η}
    (h : p.remove id = .ok (handle, q)) : Explains ⟨.remove id, .ok [(id, handle)]⟩ p q := by
  obtain ⟨e, hfind, rfl, rfl, rfl⟩ := remove_eq_ok h
  exact explains_retire hids hfind rfl rfl rfl rfl

lemma explains_consume (hids : p.ids.Nodup) {id successor : TensorId} {handle : η}
    (h : p.consume id successor = .ok (handle, q)) :
    Explains ⟨.consume id successor, .ok [(id, handle)]⟩ p q := by
  obtain ⟨e, hget, hrest⟩ := Except.bind_eq_ok_iff.mp h
  have hfind := get_eq_ok_iff.mp hget
  obtain rfl := find?_id hfind
  cases hrest
  exact explains_retire hids hfind rfl rfl rfl rfl

lemma explains_drain (p : Pool η) : Explains ⟨.drain, .ok p.drain.1⟩ p p.drain.2 where
  inserted_new := by simp [inserted]
  left_live := by simp [left, drain, Pool.ids]
  ids := by
    simp [inserted, left, drain, Pool.ids]
  retired := by simp [left, drain, Function.comp_def]
  handles := by simp [put, given, drain, holdings]

end Served

/-- Every call explains how it changes a pool. -/
theorem explains_serve {p : Pool η} (hids : p.ids.Nodup) (call : Call η) :
    (p.serve call).1.Explains p (p.serve call).2 := by
  unfold serve
  cases hgrant : p.grant call with
  | error e => exact Served.explains_refused p call e
  | ok granted =>
    cases call with
    | insert id handle state =>
      obtain ⟨q, hinsert, hrest⟩ := Except.bind_eq_ok_iff.mp hgrant
      cases hrest
      exact Served.explains_insert hinsert
    | replaceHandle id handle =>
      obtain ⟨⟨old, q⟩, hreplace, hrest⟩ := Except.bind_eq_ok_iff.mp hgrant
      cases hrest
      exact Served.explains_replaceHandle hids hreplace
    | transition id target =>
      obtain ⟨⟨source, q⟩, htransition, hrest⟩ := Except.bind_eq_ok_iff.mp hgrant
      cases hrest
      exact Served.explains_transition hids htransition
    | remove id =>
      obtain ⟨⟨handle, q⟩, hremove, hrest⟩ := Except.bind_eq_ok_iff.mp hgrant
      cases hrest
      exact Served.explains_remove hids hremove
    | consume id successor =>
      obtain ⟨⟨handle, q⟩, hconsume, hrest⟩ := Except.bind_eq_ok_iff.mp hgrant
      cases hrest
      exact Served.explains_consume hids hconsume
    | drain =>
      cases hgrant
      exact Served.explains_drain p

/-!
### Histories
-/

/-- The calls that a pool was served account for what it holds and remembers. -/
structure Recounted (served : List (Served η)) (p : Pool η) : Prop where
  inserted_once : (served.flatMap Served.inserted).Nodup
  left_inserted : ∀ id ∈ (served.flatMap Served.left).map Prod.fst,
    id ∈ served.flatMap Served.inserted
  ids : p.ids =
    (served.flatMap Served.inserted).filter (· ∉ (served.flatMap Served.left).map Prod.fst)
  retired : p.retired = (served.flatMap Served.left).reverse
  handles : (served.flatMap Served.put).Perm (p.holdings ++ served.flatMap Served.given)

namespace Recounted

variable {served : List (Served η)} {p q : Pool η} {r : Served η}

lemma nodup_ids (h : Recounted served p) : p.ids.Nodup := by
  rw [h.ids]
  exact h.inserted_once.filter _

lemma fate?_isSome_iff (h : Recounted served p) (id : TensorId) :
    (p.fate? id).isSome ↔ id ∈ (served.flatMap Served.left).map Prod.fst := by
  simp [fate?, h.retired, List.lookup_isSome_iff]

/-- The pool knows the identifiers that were ever inserted. -/
lemma isKnown_eq_false_iff (h : Recounted served p) (id : TensorId) :
    p.isKnown id = false ↔ id ∉ served.flatMap Served.inserted := by
  rw [Pool.isKnown_eq_false_iff, find?_eq_none_iff, h.ids, List.mem_filter, decide_eq_true_eq,
    ← Option.not_isSome_iff_eq_none, h.fate?_isSome_iff]
  constructor
  · rintro ⟨hlive, hleft⟩ hinserted
    exact hlive ⟨hinserted, hleft⟩
  · intro hnew
    exact ⟨fun hlive => hnew hlive.1, fun hleft => hnew (h.left_inserted id hleft)⟩

theorem next (h : Recounted served p) (hr : r.Explains p q) : Recounted (served ++ [r]) q := by
  have hnew : ∀ id ∈ r.inserted, id ∉ served.flatMap Served.inserted := fun id hid =>
    (h.isKnown_eq_false_iff id).mp (hr.inserted_new.2 id hid)
  have hlive : ∀ id ∈ r.left.map Prod.fst, id ∈ served.flatMap Served.inserted := by
    intro id hid
    have hmem := hr.left_live id hid
    rw [h.ids] at hmem
    exact (List.mem_filter.mp hmem).1
  have hstays : ∀ id ∈ r.inserted, id ∉ (served.flatMap Served.left).map Prod.fst :=
    fun id hid hleft => hnew id hid (h.left_inserted id hleft)
  refine ⟨?_, ?_, ?_, ?_, ?_⟩ <;>
    simp only [List.flatMap_append, List.flatMap_singleton, List.map_append]
  · exact h.inserted_once.append hr.inserted_new.1 fun id hold hid => hnew id hid hold
  · intro id hid
    rcases List.mem_append.mp hid with hid | hid
    · exact List.mem_append_left _ (h.left_inserted id hid)
    · exact List.mem_append_left _ (hlive id hid)
  · rw [hr.ids, h.ids, List.filter_append, List.filter_append, List.filter_filter]
    congr 1
    · apply List.filter_congr
      intro id _
      simp only [List.mem_append, not_or, Bool.decide_and, Bool.and_comm]
    · apply List.filter_congr
      intro id hid
      simp [hstays id hid]
  · rw [hr.retired, h.retired, List.reverse_append]
  · calc
      (served.flatMap Served.put ++ r.put).Perm
          (p.holdings ++ served.flatMap Served.given ++ r.put) := h.handles.append_right _
      List.Perm _ (p.holdings ++ r.put ++ served.flatMap Served.given) :=
        perm_append_right_comm _ _ _
      List.Perm _ (q.holdings ++ r.given ++ served.flatMap Served.given) :=
        hr.handles.append_right _
      List.Perm _ (q.holdings ++ served.flatMap Served.given ++ r.given) :=
        perm_append_right_comm _ _ _
      _ = q.holdings ++ (served.flatMap Served.given ++ r.given) := List.append_assoc _ _ _

end Recounted

/-- The answers of a pool account for what it holds and remembers, whatever it is asked. -/
lemma recounted_history (calls : List (Call η)) :
    Recounted (history calls).1 (history calls).2 := by
  have hall : ∀ past : List (Served η) × Pool η, Recounted past.1 past.2 →
      Recounted (calls.foldl extend past).1 (calls.foldl extend past).2 := by
    induction calls with
    | nil => exact fun past h => h
    | cons call calls ih =>
      intro past h
      exact ih (extend past call) (h.next (explains_serve h.nodup_ids call))
  exact hall ([], .empty) ⟨.nil, by simp, rfl, rfl, .nil⟩

/-- An identifier is not inserted again, even if it is gone, and the last one stands at the end. -/
example :
    let p := (history [.insert 3 'a' (.resident .host), .insert 1 'b' (.resident .device),
      .consume 3 1, .insert 3 'c' (.resident .host), .insert 2 'd' (.resident .host)]).2
    p.drain.1 = [(1, 'b'), (2, 'd')] ∧ p.fate? 3 = some (.consumed 1) := by
  decide

end TensorMachine.Pool
