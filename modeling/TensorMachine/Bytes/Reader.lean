import TensorMachine.Bytes.LittleEndian

/-!
# Reading bytes

A cursor stands in a list of bytes: it knows how many bytes lie behind it and which ones lie ahead.
A reader takes a value from the front or fails; the only failure of the readers of this module is a
shortfall, which says where the read began and how many bytes were missing.
-/

namespace TensorMachine

structure Cursor where
  offset : Nat
  rest : Bytes

/-- A read of more bytes than are left: where it began and how many were missing. -/
structure Shortfall where
  offset : Nat
  needed : Nat
  deriving DecidableEq

/-- A reader takes a value from the bytes ahead of a cursor or fails. -/
abbrev Reader (ε α : Type) := StateT Cursor (Except ε) α

namespace Cursor

def start (bytes : Bytes) : Cursor := ⟨0, bytes⟩

def remaining (c : Cursor) : Nat := c.rest.length

end Cursor

namespace Reader

/-- The next `n` bytes. -/
def take (n : Nat) : Reader Shortfall Bytes := fun c =>
  let window := c.rest.take n
  if window.length < n then .error ⟨c.offset, n - window.length⟩
  else .ok (window, ⟨c.offset + n, c.rest.drop n⟩)

def u8 : Reader Shortfall UInt8 :=
  (fun bs => UInt8.ofNat (LittleEndian.combine bs)) <$> take 1

/-- The next two bytes as a little-endian number. -/
def u16 : Reader Shortfall UInt16 :=
  (fun bs => UInt16.ofNat (LittleEndian.combine bs)) <$> take 2

/-- The next four bytes as a little-endian number. -/
def u32 : Reader Shortfall UInt32 :=
  (fun bs => UInt32.ofNat (LittleEndian.combine bs)) <$> take 4

def withError {ε δ α : Type} (f : ε → δ) (r : Reader ε α) : Reader δ α :=
  fun c => (r c).mapError f

/-- Goes on without reading if a condition holds. -/
def ensure {ε : Type} (condition : Prop) [Decidable condition] (e : ε) : Reader ε Unit := fun c =>
  if condition then .ok ((), c) else .error e

/-- Goes on without reading if there is a value. -/
def ofOption {ε α : Type} (value? : Option α) (e : ε) : Reader ε α := fun c =>
  match value? with
  | some a => .ok (a, c)
  | none => .error e

/-- Goes on without reading if there is no error. -/
def ofExcept {ε α : Type} (answer : Except ε α) : Reader ε α := fun c =>
  match answer with
  | .ok a => .ok (a, c)
  | .error e => .error e

/-- Reads `n` more values in front of which the values `seen`, last one first, have been read. -/
def timesAfter {ε α : Type} (r : Reader ε α) : Nat → List α → Reader ε (List α)
  | 0, seen, c => .ok (seen.reverse, c)
  | n + 1, seen, c =>
    match r c with
    | .ok (a, c') => timesAfter r n (a :: seen) c'
    | .error e => .error e

def times {ε α : Type} (n : Nat) (r : Reader ε α) : Reader ε (List α) :=
  timesAfter r n []

theorem timesAfter_eq {ε α : Type} (r : Reader ε α) (n : Nat) (seen : List α) (c : Cursor) :
    timesAfter r n seen c =
      (timesAfter r n [] c).map fun result => (seen.reverse ++ result.1, result.2) := by
  induction n generalizing seen c with
  | zero => simp [timesAfter, Except.map]
  | succ n ih =>
    simp only [timesAfter]
    cases r c with
    | error e => rfl
    | ok result =>
      obtain ⟨a, c'⟩ := result
      simp only
      rw [ih, ih [a]]
      cases timesAfter r n [] c' <;> simp [Except.map]

@[simp] theorem times_zero {ε α : Type} (r : Reader ε α) (c : Cursor) :
    times 0 r c = .ok ([], c) := rfl

theorem times_succ {ε α : Type} (n : Nat) (r : Reader ε α) (c : Cursor) :
    times (n + 1) r c =
      match r c with
      | .ok (a, c') => (times n r c').map fun result => (a :: result.1, result.2)
      | .error e => .error e := by
  simp only [times, timesAfter]
  cases r c with
  | error e => rfl
  | ok result => exact timesAfter_eq r n [result.1] result.2

end Reader

end TensorMachine
