import Std.Data.HashMap
import TensorMachine.Tensor.Pool

/-!
# Stores

A store is a pool as it lies in memory: a hash map from identifiers to slots, a hash map from the
identifiers that left to their fates, and a counter from which every slot takes a number. The maps
have no order, so a listing sorts the slots by their numbers.

The calls ask first and change the store afterwards, in several steps, and what they have changed
stays when a later step fails.
-/

namespace TensorMachine

/-- Steps that read and change a state until one of them fails. Changes stay when a later step
fails. -/
abbrev Steps (ε σ α : Type) : Type := ExceptT ε (StateM σ) α

namespace Steps

variable {ε σ α β : Type} {x : Steps ε σ α} {s s' : σ}

def ask (f : σ → Except ε α) : Steps ε σ α := fun s => (f s, s)

def change (f : σ → σ) : Steps ε σ Unit := fun s => (.ok (), f s)

theorem bind_of_ok {a : α} (h : x s = (.ok a, s')) (g : α → Steps ε σ β) :
    (x >>= g) s = g a s' := by
  change (match x s with | (r, s') => ExceptT.bindCont g r s') = _
  rw [h]
  rfl

theorem bind_of_error {e : ε} (h : x s = (.error e, s')) (g : α → Steps ε σ β) :
    (x >>= g) s = (.error e, s') := by
  change (match x s with | (r, s') => ExceptT.bindCont g r s') = _
  rw [h]
  rfl

end Steps

/-- What a store keeps under an identifier. Nothing keeps a slot from being in the state of a freed
one but the checks of the calls. -/
structure Slot (η : Type) where
  id : TensorId
  handle : η
  state : State
  seq : UInt64

structure Store (η : Type) where
  entries : Std.HashMap TensorId (Slot η)
  retired : Std.HashMap TensorId Fate
  nextSeq : UInt64

namespace Store

variable {η : Type}

def empty : Store η := ⟨∅, ∅, 0⟩

def contains (r : Store η) (id : TensorId) : Bool := r.entries.contains id

def size (r : Store η) : Nat := r.entries.size

/-- The slots as the map lists them. -/
def slots (r : Store η) : List (Slot η) := r.entries.toList.map Prod.snd

def sortBySeq (slots : List (Slot η)) : List (Slot η) := slots.mergeSort fun s t => s.seq ≤ t.seq

def ordered (r : Store η) : List (Slot η) := sortBySeq r.slots

def ids (r : Store η) : List TensorId := r.ordered.map (·.id)

def snapshot (r : Store η) : List (TensorId × State) := r.ordered.map fun s => (s.id, s.state)

def missing (r : Store η) (id : TensorId) : PoolError :=
  match r.retired[id]? with
  | some .freed => .useAfterFree id
  | some (.consumed successor) => .consumedIdentifier id successor
  | none => .unknownIdentifier id

def ensureFresh (r : Store η) (id : TensorId) : Except PoolError Unit :=
  if r.entries.contains id || r.retired.contains id then .error (.duplicateIdentifier id)
  else .ok ()

def get (r : Store η) (id : TensorId) : Except PoolError (Slot η) :=
  match r.entries[id]? with
  | some slot => .ok slot
  | none => .error (r.missing id)

def checkTransition (r : Store η) (id : TensorId) (target : State) : Except PoolError (Slot η) :=
  match r.entries[id]? with
  | some slot =>
    if slot.state.canBecome target then .ok slot
    else .error (.illegalTransition id slot.state target)
  | none =>
    match r.missing id with
    | .useAfterFree id => .error (.illegalTransition id .freed target)
    | e => .error e

/-!
### Changes
-/

/-- Puts a slot with the next number under an identifier. -/
def introduce (r : Store η) (id : TensorId) (handle : η) (state : State) : Store η :=
  { r with
    entries := r.entries.insert id ⟨id, handle, state, r.nextSeq⟩
    nextSeq := r.nextSeq + 1 }

/-- Changes the slot of an identifier where it lies. -/
def update (r : Store η) (id : TensorId) (f : Slot η → Slot η) : Store η :=
  { r with entries := r.entries.modify id f }

def forget (r : Store η) (id : TensorId) : Store η := { r with entries := r.entries.erase id }

def remember (r : Store η) (id : TensorId) (fate : Fate) : Store η :=
  { r with retired := r.retired.insert id fate }

/-!
### Calls
-/

open Steps

def insert (id : TensorId) (handle : η) (state : State) : Steps PoolError (Store η) Unit := do
  ask (·.ensureFresh id)
  if state.isAllocated then change (·.introduce id handle state)
  else throw (.illegalTransition id .freed state)

/-- Puts another handle under an identifier and gives back the one that was there. -/
def replaceHandle (id : TensorId) (handle : η) : Steps PoolError (Store η) η := do
  let slot ← ask (·.get id)
  change (·.update id fun s => { s with handle })
  pure slot.handle

def transition (id : TensorId) (target : State) : Steps PoolError (Store η) State := do
  let slot ← ask (·.checkTransition id target)
  if target.isAllocated then
    let _ ← ask (·.get id)
    change (·.update id fun s => { s with state := target })
    pure slot.state
  else throw (.illegalTransition id slot.state target)

/-- Takes the slot of an identifier out and remembers the fate of the identifier. -/
def retire (id : TensorId) (fate : Fate) : Steps PoolError (Store η) η := do
  let slot ← ask fun r =>
    match r.entries[id]? with
    | some slot => .ok slot
    | none => .error (.unknownIdentifier id)
  change (·.forget id)
  change (·.remember id fate)
  pure slot.handle

def remove (id : TensorId) : Steps PoolError (Store η) η := do
  let _ ← ask (·.checkTransition id .freed)
  retire id .freed

def consume (id successor : TensorId) : Steps PoolError (Store η) η := do
  let _ ← ask (·.get id)
  retire id (.consumed successor)

/-- Empties the map of slots, and remembers the identifiers in the order of their numbers. -/
def drain (r : Store η) : List (TensorId × η) × Store η :=
  (r.ordered.map fun s => (s.id, s.handle),
    r.ordered.foldl (fun r s => r.remember s.id .freed) { r with entries := ∅ })

end Store

end TensorMachine
