import TensorMachine.Proofs.PoolHistory
import TensorMachine.Tensor.Store

/-!
# Calls of a pool step by step

A call asks first and changes the pool afterwards, in several steps. Here the steps are told one
after the other, and what they have changed stays when a later one fails. All calls come to the
answer and the pool that they are defined to have. So a refused call fails in front of its first
change, and the changes of a granted one are never left half done.
-/

namespace TensorMachine.Pool

variable {η α β : Type}

abbrev Attempt (η α : Type) : Type := Steps PoolError (Pool η) α

open Steps

namespace Attempt

def takeOut (id : TensorId) : Attempt η η := do
  let handle ← ask fun p =>
    match p.find? id with
    | some e => .ok e.handle
    | none => .error (.unknownIdentifier id)
  change fun p => { p with live := p.live.filter (·.id != id) }
  pure handle

def takeAll : Attempt η (List (TensorId × η)) := do
  let handles ← ask fun p => .ok (p.live.map fun e => (e.id, e.handle))
  change fun p => { p with live := [] }
  pure handles

def remember (id : TensorId) (fate : Fate) : Attempt η Unit :=
  change fun p => { p with retired := (id, fate) :: p.retired }

/-- Takes the live tensor of an identifier out and remembers the fate of the identifier. -/
def leave (id : TensorId) (fate : Fate) : Attempt η η := do
  let handle ← takeOut id
  remember id fate
  pure handle

/-- A live identifier leaves without a failure. -/
lemma leave_eq {p : Pool η} {t : Entry η} (hfind : p.find? t.id = some t) (fate : Fate) :
    leave t.id fate p = (.ok t.handle, p.retire t.id fate) := by
  have htake : takeOut t.id p =
      (.ok t.handle, { p with live := p.live.filter (·.id != t.id) }) := by
    unfold takeOut
    rw [bind_of_ok (by rw [ask, hfind])]
    rfl
  unfold leave
  rw [bind_of_ok htake]
  rfl

lemma takeAll_eq (p : Pool η) : takeAll p = (.ok p.drain.1, { p with live := [] }) := rfl

lemma remember_eq (p : Pool η) (id : TensorId) (fate : Fate) :
    remember id fate p = (.ok (), { p with retired := (id, fate) :: p.retired }) := rfl

/-- The loop of a drain remembers the identifiers, the last one in front. -/
lemma forM_remember (handles : List (TensorId × η)) (p : Pool η) :
    (handles.forM fun t => remember t.1 .freed : Attempt η Unit) p =
      (.ok (), { p with
        retired := (handles.map fun t => (t.1, Fate.freed)).reverse ++ p.retired }) := by
  induction handles generalizing p with
  | nil => rfl
  | cons t handles ih =>
    change (remember t.1 .freed >>= fun _ => handles.forM fun t => remember t.1 .freed) p = _
    rw [bind_of_ok (remember_eq p t.1 .freed), ih]
    simp

end Attempt

open Attempt in
/-- The steps that a call takes. -/
def attempt : Call η → Attempt η (List (TensorId × η))
  | .insert id handle state => do
    ask (·.ensureFresh id)
    match state with
    | .resident side =>
      change (·.introduce id handle side)
      pure []
    | .freed => throw (.illegalTransition id .freed .freed)
  | .replaceHandle id handle => do
    let entry ← ask (·.get id)
    change (·.place id handle entry.residence)
    pure [(id, entry.handle)]
  | .transition id target => do
    let entry ← ask (·.checkTransition id target)
    match target with
    | .resident side =>
      let entry ← ask (·.get id)
      change (·.place id entry.handle side)
      pure []
    | .freed => throw (.illegalTransition id entry.state .freed)
  | .remove id => do
    let _ ← ask (·.checkTransition id .freed)
    let handle ← leave id .freed
    pure [(id, handle)]
  | .consume id successor => do
    let _ ← ask (·.get id)
    let handle ← leave id (.consumed successor)
    pure [(id, handle)]
  | .drain => do
    let handles ← takeAll
    handles.forM fun t => remember t.1 .freed
    pure handles

open Attempt

/-- The answer of a call, and the pool behind it: the one before it if the call is refused. -/
def settle (p : Pool η) : Except PoolError (α × Pool η) → Except PoolError α × Pool η
  | .ok (a, q) => (.ok a, q)
  | .error e => (.error e, p)

lemma bind_ask {p : Pool η} {f : Pool η → Except PoolError α} {g : α → Attempt η β}
    {k : α → Except PoolError (β × Pool η)} (h : ∀ a, f p = .ok a → g a p = settle p (k a)) :
    (ask f >>= g) p = settle p (f p >>= k) := by
  cases hf : f p with
  | ok a => exact (bind_of_ok (by rw [ask, hf]) g).trans (h a hf)
  | error e => exact bind_of_error (by rw [ask, hf]) g

/-- The steps of a call come to the answer and the pool of the call. -/
theorem attempt_eq_settle (p : Pool η) (call : Call η) :
    attempt call p = settle p (p.grant call) := by
  cases call with
  | insert id handle state =>
    change (ask (·.ensureFresh id) >>= _) p = settle p ((p.ensureFresh id >>= _) >>= _)
    rw [bind_assoc]
    refine bind_ask fun _ _ => ?_
    cases state <;> rfl
  | replaceHandle id handle =>
    change (ask (·.get id) >>= _) p = settle p ((p.get id >>= _) >>= _)
    rw [bind_assoc]
    exact bind_ask fun _ _ => rfl
  | transition id target =>
    change (ask (·.checkTransition id target) >>= _) p =
      settle p ((p.checkTransition id target >>= _) >>= _)
    rw [bind_assoc]
    refine bind_ask fun entry hcheck => ?_
    have hget := get_eq_ok_iff.mpr (checkTransition_eq_ok_iff.mp hcheck).1
    cases target with
    | resident side =>
      change (ask (·.get id) >>= _) p = _
      rw [bind_of_ok (by rw [ask, hget])]
      rfl
    | freed => rfl
  | remove id =>
    change (ask (·.checkTransition id .freed) >>= _) p =
      settle p ((p.checkTransition id .freed >>= _) >>= _)
    rw [bind_assoc]
    refine bind_ask fun entry hcheck => ?_
    have hfind := (checkTransition_eq_ok_iff.mp hcheck).1
    obtain rfl := find?_id hfind
    rw [bind_of_ok (leave_eq hfind .freed)]
    rfl
  | consume id successor =>
    change (ask (·.get id) >>= _) p = settle p ((p.get id >>= _) >>= _)
    rw [bind_assoc]
    refine bind_ask fun entry hget => ?_
    have hfind := get_eq_ok_iff.mp hget
    obtain rfl := find?_id hfind
    rw [bind_of_ok (leave_eq hfind (.consumed successor))]
    rfl
  | drain =>
    change (takeAll >>= _) p = _
    have hfates : (p.drain.1.map fun t => (t.1, Fate.freed)) =
        p.live.map fun e => (e.id, Fate.freed) := List.map_map
    rw [bind_of_ok (takeAll_eq p), bind_of_ok (forM_remember _ _), hfates]
    rfl

lemma serve_eq_settle (p : Pool η) (call : Call η) :
    ((p.serve call).1.answer, (p.serve call).2) = settle p (p.grant call) := by
  unfold serve
  cases p.grant call <;> rfl

/-- A refused call leaves the pool as it was, though its steps could have changed it. -/
lemma refused_attempt {p : Pool η} {call : Call η} {e : PoolError}
    (h : (attempt call p).1 = .error e) : (attempt call p).2 = p := by
  rw [attempt_eq_settle] at h ⊢
  cases hgrant : p.grant call with
  | error e => rfl
  | ok granted =>
    rw [hgrant] at h
    cases h

end TensorMachine.Pool
