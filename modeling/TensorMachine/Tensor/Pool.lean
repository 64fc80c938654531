import TensorMachine.Tensor.Residence

/-!
# Tensor pools

A pool owns the handles of the tensors that are live, in the order in which they were introduced.
It also remembers the fate of every identifier that left it, so that no identifier is introduced
twice and a later reference learns why its tensor is gone. A pool never calls a device.

The first operations of this module change a pool without asking; the calls after them check first
and give the error that the history of the identifier demands.
-/

namespace TensorMachine

/-- A live tensor: its identifier, the handle of its storage and the side it lives on. -/
structure Entry (η : Type) where
  id : TensorId
  handle : η
  residence : Residence

def Entry.state {η : Type} (e : Entry η) : State := .resident e.residence

/-- Why an identifier is gone: it was freed, or its storage lives on under another identifier. -/
inductive Fate where
  | freed
  | consumed (successor : TensorId)
  deriving DecidableEq

inductive PoolError where
  | unknownIdentifier (id : TensorId)
  | duplicateIdentifier (id : TensorId)
  | consumedIdentifier (id successor : TensorId)
  | illegalTransition (id : TensorId) (source target : State)
  | useAfterFree (id : TensorId)
  deriving DecidableEq

def PoolError.message : PoolError → String
  | unknownIdentifier id => s!"Unknown tensor identifier {id}"
  | duplicateIdentifier id => s!"Duplicate tensor identifier {id}"
  | consumedIdentifier id successor =>
    s!"Tensor identifier {id} was consumed by a transfer into {successor}"
  | illegalTransition id source target =>
    s!"Tensor {id}: illegal state transition {source.name} -> {target.name}"
  | useAfterFree id => s!"Tensor {id} used after being freed"

/-- The live tensors in the order of their introduction, and the fates of the identifiers that
left, last one first. -/
structure Pool (η : Type) where
  live : List (Entry η)
  retired : List (TensorId × Fate)

namespace Pool

variable {η : Type}

def empty : Pool η := ⟨[], []⟩

def find? (p : Pool η) (id : TensorId) : Option (Entry η) :=
  p.live.find? (·.id == id)

def fate? (p : Pool η) (id : TensorId) : Option Fate :=
  p.retired.lookup id

def contains (p : Pool η) (id : TensorId) : Bool := (p.find? id).isSome

def size (p : Pool η) : Nat := p.live.length

def ids (p : Pool η) : List TensorId := p.live.map (·.id)

/-- The live identifiers with their states, in the order of their introduction. -/
def snapshot (p : Pool η) : List (TensorId × State) := p.live.map fun e => (e.id, e.state)

def isKnown (p : Pool η) (id : TensorId) : Bool := p.contains id || (p.fate? id).isSome

/-!
### Changes
-/

def introduce (p : Pool η) (id : TensorId) (handle : η) (residence : Residence) : Pool η :=
  { p with live := p.live ++ [⟨id, handle, residence⟩] }

/-- Puts another handle and residence at the place of an identifier. -/
def place (p : Pool η) (id : TensorId) (handle : η) (residence : Residence) : Pool η :=
  { p with live := p.live.map fun e => if e.id = id then ⟨id, handle, residence⟩ else e }

/-- Takes an identifier out of the live tensors and remembers its fate. -/
def retire (p : Pool η) (id : TensorId) (fate : Fate) : Pool η :=
  { live := p.live.filter (·.id != id), retired := (id, fate) :: p.retired }

/-- Frees all live tensors and gives their handles back in the order of their introduction. -/
def drain (p : Pool η) : List (TensorId × η) × Pool η :=
  (p.live.map fun e => (e.id, e.handle),
    { live := [], retired := (p.live.map fun e => (e.id, Fate.freed)).reverse ++ p.retired })

/-!
### Calls
-/

def missing (p : Pool η) (id : TensorId) : PoolError :=
  match p.fate? id with
  | some .freed => .useAfterFree id
  | some (.consumed successor) => .consumedIdentifier id successor
  | none => .unknownIdentifier id

def ensureFresh (p : Pool η) (id : TensorId) : Except PoolError Unit :=
  if p.isKnown id then .error (.duplicateIdentifier id) else .ok ()

/-- Introduces a tensor. The identifier has to be new and the state one of live storage. -/
def insert (p : Pool η) (id : TensorId) (handle : η) (state : State) :
    Except PoolError (Pool η) := do
  p.ensureFresh id
  match state with
  | .resident side => .ok (p.introduce id handle side)
  | .freed => .error (.illegalTransition id .freed .freed)

def get (p : Pool η) (id : TensorId) : Except PoolError (Entry η) :=
  match p.find? id with
  | some entry => .ok entry
  | none => .error (p.missing id)

/-- Puts another handle in the place of the one that an identifier has, and gives that back. -/
def replaceHandle (p : Pool η) (id : TensorId) (handle : η) : Except PoolError (η × Pool η) := do
  let entry ← p.get id
  .ok (entry.handle, p.place id handle entry.residence)

/-- The live tensor of an identifier that may become the state asked for. A freed identifier
reports a move out of its state. -/
def checkTransition (p : Pool η) (id : TensorId) (target : State) :
    Except PoolError (Entry η) :=
  match p.find? id with
  | some entry =>
    if entry.state.canBecome target then .ok entry
    else .error (.illegalTransition id entry.state target)
  | none =>
    match p.missing id with
    | .useAfterFree id => .error (.illegalTransition id .freed target)
    | e => .error e

/-- Moves a live tensor to the other side and tells the state it had. An identifier is freed by
`remove` only, which gives the handle back. -/
def transition (p : Pool η) (id : TensorId) (target : State) :
    Except PoolError (State × Pool η) := do
  let entry ← p.checkTransition id target
  match target with
  | .resident side => .ok (entry.state, p.place id entry.handle side)
  | .freed => .error (.illegalTransition id entry.state .freed)

/-- Frees an identifier and gives its handle back. -/
def remove (p : Pool η) (id : TensorId) : Except PoolError (η × Pool η) := do
  let entry ← p.checkTransition id .freed
  .ok (entry.handle, p.retire id .freed)

/-- Gives back the handle of an identifier whose storage lives on under its successor. -/
def consume (p : Pool η) (id successor : TensorId) : Except PoolError (η × Pool η) := do
  let entry ← p.get id
  .ok (entry.handle, p.retire id (.consumed successor))

end Pool

end TensorMachine
