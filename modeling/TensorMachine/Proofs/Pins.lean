import TensorMachine.Proofs.HostTurns
import Mathlib.Data.List.DropRight
import Mathlib.Logic.Function.Basic

/-!
# Pins

A serial may be pinned and unpinned at any time: before it is issued, while its tensor is held, while
the release of the tensor waits, and long after. The pins of a device are a multiset, which behaves
like a table of counts that are never zero. A count is that of the pins less the unpins since it was
cleared, and it decides on a release that is not forced.
-/

namespace TensorMachine

namespace HostDevice

variable {budget : UInt64} {maxAllocation : Nat}

/-!
### Counts
-/

namespace Turn

def pins (n : Nat) (turn : Turn) : Bool :=
  match turn.request with
  | .pin m => m == n
  | _ => false

/-- The turn takes a pin of a serial back. Without a pin there is nothing to take back. -/
def unpins (n : Nat) (turn : Turn) : Bool :=
  match turn.request with
  | .unpin m => m == n && decide (n ∈ turn.device.pins)
  | _ => false

/-- The turn clears the count of a serial: it takes the last pin back, or releases the tensor. -/
def clears (n : Nat) (turn : Turn) : Bool :=
  match turn.request with
  | .unpin m => m == n && turn.device.pinCount n == 1
  | .release t force => t.serial == n && (turn.device.release t force).1.isOk
  | _ => false

lemma unpin_of_unpins {turn : Turn} {n : Nat} (h : turn.unpins n = true) :
    turn.request = .unpin n := by
  obtain ⟨d, request⟩ := turn
  cases request with
  | unpin m =>
    simp only [unpins, Bool.and_eq_true, beq_iff_eq] at h
    rw [h.1]
  | _ => cases h

lemma pinCount_after (turn : Turn) (n : Nat) :
    turn.after.pinCount n = (turn.request.pinsLeft turn.device).count n :=
  congrArg (List.count n) (Request.pins_serve turn.device turn.request)

lemma pinCount_of_clears {turn : Turn} {n : Nat} (h : turn.clears n = true) :
    turn.after.pinCount n = 0 := by
  rw [pinCount_after]
  obtain ⟨d, request⟩ := turn
  cases request with
  | unpin m =>
    obtain ⟨rfl, hlast⟩ : m = n ∧ d.pins.count n = 1 := by simpa [clears, pinCount] using h
    rw [Request.pinsLeft, List.count_erase_self, hlast]
  | release t force =>
    obtain ⟨rfl, hok⟩ : t.serial = n ∧ (d.release t force).1.isOk = true := by
      simpa [clears] using h
    rw [Request.pinsLeft, if_pos hok, List.count_eq_zero]
    simp
  | _ => cases h

/-- A turn that does not clear the count of a serial counts up with a pin and down with an unpin. -/
lemma pinCount_of_not_clears {turn : Turn} {n : Nat} (h : turn.clears n = false) :
    turn.after.pinCount n + (if turn.unpins n then 1 else 0) =
      turn.device.pinCount n + if turn.pins n then 1 else 0 := by
  rw [pinCount_after]
  obtain ⟨d, request⟩ := turn
  cases request with
  | pin m => exact List.count_cons
  | unpin m =>
    simp only [Request.pinsLeft, pinCount, pins, unpins]
    by_cases hm : m = n
    · subst hm
      rw [List.count_erase_self]
      by_cases hin : m ∈ d.pins
      · have hpos := List.count_pos_iff.mpr hin
        simp only [beq_self_eq_true, hin, decide_true, Bool.and_true, if_true, Bool.false_eq_true,
          if_false]
        omega
      · simp [hin, List.count_eq_zero_of_not_mem hin]
    · simp [List.count_erase_of_ne (Ne.symm hm), hm]
  | release t force =>
    simp only [Request.pinsLeft, pinCount, pins, unpins, Bool.false_eq_true, if_false]
    split
    · next hok =>
      have hne : n ≠ t.serial := fun hsame => by simp [clears, hok, hsame] at h
      rw [List.count_filter (by simpa using hne)]
    · rfl
  | _ => rfl

end Turn

/-- The turns since the count of a serial was cleared, or all if it never was. -/
def sinceCleared (n : Nat) (turns : List Turn) : List Turn :=
  turns.rtakeWhile fun turn => !turn.clears n

/-- The count of a serial is what the pins since it was cleared come to less the unpins. -/
lemma Course.pinCount_sinceCleared {turns : List Turn} {d : HostDevice} {tensors : List HostTensor}
    (h : Course budget maxAllocation turns d tensors) (n : Nat) :
    d.pinCount n + (sinceCleared n turns).countP (·.unpins n) =
      (sinceCleared n turns).countP (·.pins n) := by
  induction h with
  | new => rfl
  | @turn turns d tensors _ request howned ih =>
    rw [sinceCleared, List.rtakeWhile_concat]
    cases hclears : Turn.clears n ⟨d, request⟩ with
    | true =>
      simpa using Turn.pinCount_of_clears hclears
    | false =>
      have hstep : _ = d.pinCount n + _ := Turn.pinCount_of_not_clears hclears
      simp only [Bool.not_false, if_true, List.countP_append, List.countP_singleton]
      unfold sinceCleared at ih
      omega

/-- The turns since the count of a serial was cleared all lie behind each turn that cleared it. -/
lemma mem_of_mem_sinceCleared {before later : List Turn} {turn x : Turn} {n : Nat}
    (hclears : turn.clears n = true) (hx : x ∈ sinceCleared n (before ++ turn :: later)) :
    x ∈ later := by
  have hkept : ∀ y ∈ sinceCleared n (before ++ turn :: later), y.clears n = false := by
    intro y hy
    simpa using List.mem_rtakeWhile_imp hy
  have hturn : turn ∉ sinceCleared n (before ++ turn :: later) := fun hmem => by
    rw [hkept turn hmem] at hclears
    cases hclears
  have hlater : turn :: later <:+ before ++ turn :: later := List.suffix_append before _
  rcases List.suffix_or_suffix_of_suffix (List.rtakeWhile_suffix _ _) hlater with hsub | hsub
  · rcases List.suffix_cons_iff.mp hsub with heq | hsub
    · rw [sinceCleared, heq] at hturn
      exact absurd List.mem_cons_self hturn
    · exact hsub.mem hx
  · exact absurd (hsub.mem List.mem_cons_self) hturn

/-!
### Tables of counts
-/

/-- A table of pin counts, with entries for some serials. -/
abbrev PinTable : Type := Nat → Option Nat

namespace PinTable

/-- Takes a pin out of the entry of a serial, if there is one, and the entry away with the last pin.
A count of zero cannot go down. -/
def unpin? (table : PinTable) (n : Nat) : Option PinTable :=
  match table n with
  | none => some table
  | some 0 => none
  | some 1 => some (Function.update table n none)
  | some (count + 2) => some (Function.update table n (some (count + 1)))

/-- The table behind a turn, unless a count of zero was to go down. -/
def serve? (table : PinTable) (turn : Turn) : Option PinTable :=
  match turn.request with
  | .pin n => some (Function.update table n (some ((table n).getD 0 + 1)))
  | .unpin n => table.unpin? n
  | .release t force =>
    if (turn.device.release t force).1.isOk then some (Function.update table t.serial none)
    else some table
  | _ => some table

/-- The table of some pins, with an entry for each serial that is among them. -/
def ofPins (pins : List Nat) : PinTable :=
  fun n => if pins.count n = 0 then none else some (pins.count n)

lemma ofPins_eq_some {pins : List Nat} {n count : Nat} (h : ofPins pins n = some count) :
    count = pins.count n ∧ 1 ≤ count := by
  unfold ofPins at h
  split at h
  · cases h
  · cases h
    omega

lemma ofPins_eq_update {pins others : List Nat} {n : Nat} {entry : Option Nat}
    (hrest : ∀ m, m ≠ n → others.count m = pins.count m) (hentry : ofPins others n = entry) :
    ofPins others = Function.update (ofPins pins) n entry := by
  funext m
  by_cases hm : m = n
  · rw [hm, Function.update_self, hentry]
  · rw [Function.update_of_ne hm, ofPins, ofPins, hrest m hm]

lemma ofPins_cons (n : Nat) (pins : List Nat) :
    ofPins (n :: pins) = Function.update (ofPins pins) n (some ((ofPins pins n).getD 0 + 1)) := by
  apply ofPins_eq_update
  · intro m hm
    exact List.count_cons_of_ne (Ne.symm hm)
  · by_cases hcount : pins.count n = 0 <;> simp [ofPins, hcount]

lemma ofPins_filter (n : Nat) (pins : List Nat) :
    ofPins (pins.filter (· != n)) = Function.update (ofPins pins) n none := by
  apply ofPins_eq_update
  · intro m hm
    exact List.count_filter (by simpa using hm)
  · simp [ofPins, List.count_eq_zero]

/-- The count that is to go down is not zero, since such an entry is never stored. -/
lemma unpin?_ofPins (n : Nat) (pins : List Nat) :
    (ofPins pins).unpin? n = some (ofPins (pins.erase n)) := by
  have hrest : ∀ m, m ≠ n → (pins.erase n).count m = pins.count m := fun m hm =>
    List.count_erase_of_ne hm
  have hself : (pins.erase n).count n = pins.count n - 1 := List.count_erase_self
  unfold unpin?
  rcases hcount : pins.count n with _ | _ | count
  · have hentry : ofPins pins n = none := if_pos hcount
    rw [hentry, List.erase_of_not_mem (List.count_eq_zero.mp hcount)]
  · have hentry : ofPins pins n = some 1 := by simp [ofPins, hcount]
    rw [hentry, ofPins_eq_update hrest (if_pos (by rw [hself, hcount]))]
  · have hentry : ofPins pins n = some (count + 2) := by simp [ofPins, hcount]
    have hleft : ofPins (pins.erase n) n = some (count + 1) := by simp [ofPins, hself, hcount]
    rw [hentry, ofPins_eq_update hrest hleft]

end PinTable

/-- The pins of a device as a table. -/
def pinTable (d : HostDevice) : PinTable := .ofPins d.pins

lemma serve?_pinTable (turn : Turn) :
    turn.device.pinTable.serve? turn = some turn.after.pinTable := by
  have hafter : turn.after.pinTable = .ofPins (turn.request.pinsLeft turn.device) :=
    congrArg PinTable.ofPins (Request.pins_serve turn.device turn.request)
  rw [hafter]
  obtain ⟨d, request⟩ := turn
  cases request with
  | pin n => exact congrArg some (PinTable.ofPins_cons n d.pins).symm
  | unpin n => exact PinTable.unpin?_ofPins n d.pins
  | release t force =>
    simp only [PinTable.serve?, Request.pinsLeft]
    split
    · exact congrArg some (PinTable.ofPins_filter t.serial d.pins).symm
    · rfl
  | _ => rfl

/-- A table that goes along with the turns never fails, and has an entry for each pinned serial. -/
lemma Course.replay_pinTable {turns : List Turn} {d : HostDevice} {tensors : List HostTensor}
    (h : Course budget maxAllocation turns d tensors) :
    turns.foldlM PinTable.serve? (fun _ => none) = some d.pinTable := by
  induction h with
  | new => rfl
  | @turn turns d tensors _ request howned ih =>
    rw [List.foldlM_append, ih]
    have hstep := serve?_pinTable ⟨d, request⟩
    simpa [Turn.after] using hstep

/-!
### Answers
-/

/-- A release goes through if it is forced or the serial has no pin, and else it is deferred. -/
lemma release_of_live {d : HostDevice} {t : HostTensor} (hlive : t.serial ∈ d.outstanding)
    (harmed : .release ∉ d.armed) (force : Bool) :
    ((d.release t force).1 = .ok () ↔ force = true ∨ d.pinCount t.serial = 0) ∧
      ((d.release t force).1 ≠ .ok () →
        (d.release t force).1 = .error (.pendingReferences t.serial) ∧
          (d.release t force).2.deferred = d.deferred ++ [t]) := by
  have hcount : d.pinCount t.serial = 0 ↔ t.serial ∉ d.pins := List.count_eq_zero
  rw [hcount]
  rcases release_outcome d t force with
    ⟨hdead, -⟩ | ⟨-, ⟨hfires, -⟩ | ⟨-, hforce, hpinned, hcall⟩ | ⟨-, hfree, hcall⟩⟩
  · exact absurd hlive hdead
  · exact absurd hfires harmed
  · rw [hcall]
    exact ⟨by simp [hforce, hpinned], fun _ => ⟨rfl, rfl⟩⟩
  · rw [hcall]
    exact ⟨by simp [hfree], fun h => absurd rfl h⟩

structure SoundPins (turns : List Turn) (d : HostDevice) : Prop where
  replayed : turns.foldlM PinTable.serve? (fun _ => none) = some d.pinTable
  stored : ∀ n count, d.pinTable n = some count → count = d.pinCount n ∧ 1 ≤ count
  counted : ∀ n, d.pinCount n + (sinceCleared n turns).countP (·.unpins n) =
    (sinceCleared n turns).countP (·.pins n)
  answered : ∀ t force, t.serial ∈ d.outstanding → .release ∉ d.armed →
    ((d.release t force).1 = .ok () ↔ force = true ∨ d.pinCount t.serial = 0) ∧
      ((d.release t force).1 ≠ .ok () →
        (d.release t force).1 = .error (.pendingReferences t.serial) ∧
          (d.release t force).2.deferred = d.deferred ++ [t])

lemma Course.soundPins {turns : List Turn} {d : HostDevice} {tensors : List HostTensor}
    (h : Course budget maxAllocation turns d tensors) : SoundPins turns d where
  replayed := h.replay_pinTable
  stored _ _ hentry := PinTable.ofPins_eq_some hentry
  counted := h.pinCount_sinceCleared
  answered _ force hlive harmed := release_of_live hlive harmed force

end HostDevice

end TensorMachine
