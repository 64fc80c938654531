import TensorMachine.Device.Error

/-!
# Memory budgets

A budget counts the bytes in use against a limit. Both are 64-bit counters: a reservation past the
limit is refused, while giving back more than is in use wraps around, behind which the question what
is left has no answer.
-/

namespace TensorMachine

/-- The bytes in use and their limit. -/
structure Budget where
  limit : UInt64
  used : UInt64
  deriving DecidableEq

namespace Budget

/-- The budget of which nothing is in use. -/
def ofLimit (limit : UInt64) : Budget := ⟨limit, 0⟩

/-- The bytes that are left. There is no answer when more are in use than the limit allows: the
subtraction of 64-bit counters then panics. -/
def available? (b : Budget) : Option Nat :=
  if b.used ≤ b.limit then some (b.limit.toNat - b.used.toNat) else none

def reserve (b : Budget) (size : Nat) : Except DeviceError Budget :=
  let total := b.used.toNat + size
  if total ≤ b.limit.toNat then .ok { b with used := UInt64.ofNat total }
  else .error (.outOfMemory size (b.limit.toNat - b.used.toNat))

def giveBack (b : Budget) (size : Nat) : Budget :=
  { b with used := b.used - UInt64.ofNat size }

theorem reserve_eq_ok_iff {b c : Budget} {size : Nat} :
    b.reserve size = .ok c ↔
      b.used.toNat + size ≤ b.limit.toNat ∧ c = ⟨b.limit, UInt64.ofNat (b.used.toNat + size)⟩ := by
  simp only [reserve]
  split
  case isTrue hfit => simp [hfit, eq_comm]
  case isFalse hfull => simp [hfull]

theorem used_of_reserve {b c : Budget} {size : Nat} (h : b.reserve size = .ok c) :
    c.used.toNat = b.used.toNat + size := by
  obtain ⟨hfit, rfl⟩ := reserve_eq_ok_iff.mp h
  exact UInt64.toNat_ofNat_of_lt' (Nat.lt_of_le_of_lt hfit b.limit.toNat_lt)

theorem limit_of_reserve {b c : Budget} {size : Nat} (h : b.reserve size = .ok c) :
    c.limit = b.limit := by
  obtain ⟨-, rfl⟩ := reserve_eq_ok_iff.mp h
  rfl

/-- The counter does not wrap around when no more is given back than is in use. -/
theorem used_giveBack {b : Budget} {size : Nat} (h : size ≤ b.used.toNat) :
    (b.giveBack size).used.toNat = b.used.toNat - size := by
  have hsize : (UInt64.ofNat size).toNat = size :=
    UInt64.toNat_ofNat_of_lt' (Nat.lt_of_le_of_lt h b.used.toNat_lt)
  have hle : UInt64.ofNat size ≤ b.used := by rwa [UInt64.le_iff_toNat_le, hsize]
  rw [giveBack, UInt64.toNat_sub_of_le _ _ hle, hsize]

/-- What is given back after a reservation restores the budget. -/
theorem giveBack_of_reserve {b c : Budget} {size : Nat} (h : b.reserve size = .ok c) :
    c.giveBack size = b := by
  obtain ⟨limit, used⟩ := b
  simp only [reserve] at h
  split at h
  case isTrue hfit =>
    cases h
    have hlimit := limit.toNat_lt
    simp only [giveBack, mk.injEq, true_and]
    rw [UInt64.ofNat_add, UInt64.ofNat_toNat, UInt64.add_sub_cancel]
  case isFalse => cases h

end Budget

end TensorMachine
