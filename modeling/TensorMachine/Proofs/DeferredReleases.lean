import TensorMachine.Journal.Run
import TensorMachine.Proofs.Pins

/-!
# Deferred releases

Unless a release was made to fail, a tensor waits for its release only while its serial has a pin.
All the while the device pays for it, and the call that takes the last pin away is the one that
gives it up. No serial is deferred twice, since none is issued twice.
-/

namespace TensorMachine

namespace HostDevice

variable {budget : UInt64} {maxAllocation : Nat}

lemma mem_serials_filter {tensors : List HostTensor} {n m : Nat} :
    n ∈ (tensors.filter (·.serial != m)).map (·.serial) ↔ n ∈ tensors.map (·.serial) ∧ n ≠ m := by
  simp only [List.mem_map, List.mem_filter, bne_iff_ne]
  constructor
  · rintro ⟨t, ⟨ht, hne⟩, rfl⟩
    exact ⟨⟨t, ht, rfl⟩, hne⟩
  · rintro ⟨⟨t, ht, rfl⟩, hne⟩
    exact ⟨t, ⟨ht, hne⟩, rfl⟩

namespace Turn

/-- The turn is a release of a serial that does not go through. -/
def defers (n : Nat) (turn : Turn) : Bool :=
  match turn.request with
  | .release t force => t.serial == n && !(turn.device.release t force).1.isOk
  | _ => false

/-- The turn gives up the tensor of a serial whose release was deferred. -/
def reclaims (n : Nat) (turn : Turn) : Bool :=
  decide (n ∈ turn.device.deferredSerials ∧ n ∉ turn.after.deferredSerials)

def injected (turn : Turn) : Bool :=
  match turn.request with
  | .release _ _ => decide (.release ∈ turn.device.armed)
  | _ => false

def TakesLast (n : Nat) (turn : Turn) : Prop :=
  turn.request = .unpin n ∧ turn.device.pinCount n = 1

/-- A serial is deferred by a release that does not go through, until its last pin is taken. -/
lemma mem_deferredSerials_after (turn : Turn)
    (hlive : ∀ t force, turn.request = .release t force → t.serial ∈ turn.device.outstanding)
    (n : Nat) :
    n ∈ turn.after.deferredSerials ↔
      turn.defers n = true ∨ n ∈ turn.device.deferredSerials ∧ ¬turn.TakesLast n := by
  have hafter : turn.after.deferredSerials =
      (turn.request.deferredLeft turn.device).map fun t => t.serial := by
    rw [← Request.deferred_serve]
    rfl
  rw [hafter]
  obtain ⟨d, request⟩ := turn
  cases request with
  | unpin m =>
    simp only [Request.deferredLeft, deferredSerials, defers, TakesLast, Request.unpin.injEq,
      Bool.false_eq_true, false_or]
    split
    · next hlast =>
      rw [mem_serials_filter]
      refine and_congr_right fun _ => not_congr ?_
      constructor
      · rintro rfl
        exact ⟨rfl, hlast⟩
      · exact fun h => h.1.symm
    · next hmore =>
      refine ⟨fun h => ⟨h, ?_⟩, fun h => h.1⟩
      rintro ⟨rfl, hlast⟩
      exact hmore hlast
  | release t force =>
    have hin : t.serial ∈ d.outstanding := hlive t force rfl
    simp only [Request.deferredLeft, deferredSerials, defers, TakesLast, hin, true_and]
    cases (d.release t force).1.isOk
    · simp only [if_true, List.map_append, List.mem_append, List.map_singleton,
        List.mem_singleton, Bool.not_false, Bool.and_true, beq_iff_eq]
      constructor
      · rintro (h | rfl)
        · exact .inr ⟨h, by rintro ⟨⟨⟩, -⟩⟩
        · exact .inl rfl
      · rintro (rfl | h)
        · exact .inr rfl
        · exact .inl h.1
    · simp
  | _ => simp [Request.deferredLeft, deferredSerials, defers, TakesLast]

lemma TakesLast.clears {turn : Turn} {n : Nat} (h : turn.TakesLast n) : turn.clears n = true := by
  simp [Turn.clears, h.1, h.2]

lemma release_of_defers {turn : Turn} {n : Nat} (h : turn.defers n = true) :
    ∃ t force, turn.request = .release t force ∧ t.serial = n ∧
      (turn.device.release t force).1.isOk = false := by
  obtain ⟨d, request⟩ := turn
  cases request with
  | release t force =>
    simp only [defers, Bool.and_eq_true, beq_iff_eq, Bool.not_eq_true'] at h
    exact ⟨t, force, rfl, h⟩
  | _ => cases h

/-- A deferred tensor is given up with the last pin of its serial and not otherwise. -/
lemma reclaims_iff (turn : Turn)
    (hlive : ∀ t force, turn.request = .release t force → t.serial ∈ turn.device.outstanding)
    (n : Nat) :
    turn.reclaims n = true ↔ n ∈ turn.device.deferredSerials ∧ turn.TakesLast n := by
  rw [reclaims, decide_eq_true_iff, mem_deferredSerials_after turn hlive]
  refine and_congr_right fun hbefore => ?_
  constructor
  · intro hgone
    by_contra hkept
    exact hgone (.inr ⟨hbefore, hkept⟩)
  · rintro hlast (hdefers | ⟨-, hkept⟩)
    · rw [defers, hlast.1] at hdefers
      cases hdefers
    · exact hkept hlast

/-- The journal of an unpin tells of a deferred release exactly if the turn reclaims it. -/
theorem unpinJournal_eq (d : HostDevice) (n : Nat) :
    d.unpinJournal n = if reclaims n ⟨d, .unpin n⟩ then [.releaseReclaimed n] else [] := by
  have hiff : (d.unpin n).deferred.length < d.deferred.length ↔
      reclaims n ⟨d, .unpin n⟩ = true := by
    rw [reclaims, decide_eq_true_eq]
    change _ ↔ n ∈ d.deferredSerials ∧ n ∉ (d.unpin n).deferredSerials
    rcases unpin_outcome d n with ⟨-, heq⟩ | ⟨t, ht, hserial, -, -, heq⟩
    · rw [heq]
      exact iff_of_false (Nat.lt_irrefl _) fun h => h.2 h.1
    · have hgone : n ∉ (d.unpin n).deferredSerials := by
        rw [heq, deferredSerials, mem_serials_filter]
        exact fun h => h.2 rfl
      have hfewer : (d.unpin n).deferred.length < d.deferred.length := by
        rw [heq]
        exact List.length_filter_lt_length_iff_exists.mpr ⟨t, ht, by simp [hserial]⟩
      exact iff_of_true hfewer ⟨hserial ▸ List.mem_map_of_mem ht, hgone⟩
  exact if_congr hiff rfl rfl

end Turn

namespace Course

variable {turns : List Turn} {d : HostDevice} {tensors : List HostTensor}

/-- A deferred release is reclaimed or still waits, and no serial is deferred twice. -/
lemma deferrals (h : Course budget maxAllocation turns d tensors) (n : Nat) :
    turns.countP (·.reclaims n) + (if n ∈ d.deferredSerials then 1 else 0) =
        turns.countP (·.defers n) ∧
      (turns.countP (·.defers n) = 0 ∨
        turns.countP (·.defers n) = 1 ∧ n < d.nextSerial ∧ n ∉ d.outstanding) := by
  induction h with
  | new => exact ⟨rfl, .inl rfl⟩
  | @turn turns d tensors hcourse request howned ih =>
    obtain ⟨hsum, hspent⟩ := ih
    have hmem := Turn.mem_deferredSerials_after ⟨d, request⟩ (hcourse.live howned) n
    have hreclaims := Turn.reclaims_iff ⟨d, request⟩ (hcourse.live howned) n
    simp only [List.countP_append, List.countP_singleton]
    by_cases hdefers : Turn.defers n ⟨d, request⟩ = true
    · obtain ⟨t, force, rfl, rfl, -⟩ := Turn.release_of_defers hdefers
      obtain ⟨hlive, hissued, hnot, hgone⟩ := hcourse.held_serials howned
      have hzero : turns.countP (·.defers t.serial) = 0 := by
        rcases hspent with hzero | ⟨-, -, hspent⟩
        · exact hzero
        · exact absurd hlive hspent
      have hkept : ¬Turn.reclaims t.serial ⟨d, .release t force⟩ = true := fun hreclaimed =>
        hnot (hreclaims.mp hreclaimed).1
      obtain ⟨hnext, hout⟩ := handles_of_release hlive force
      rw [if_neg hnot] at hsum
      rw [if_neg hkept, if_pos (hmem.mpr (.inl hdefers)), if_pos hdefers]
      refine ⟨by omega, .inr ⟨by omega, hnext ▸ hissued, hout ▸ hgone⟩⟩
    · rw [if_neg hdefers]
      refine ⟨?_, hspent.imp id fun ⟨hone, hissued, hgone⟩ =>
        ⟨hone, Turn.outstanding_after hissued hgone⟩⟩
      by_cases hbefore : n ∈ d.deferredSerials <;> by_cases hlast : Turn.TakesLast n ⟨d, request⟩ <;>
        simp_all

/-- A serial whose release waits keeps a pin until the turn that takes the last one. -/
lemma pinCount_pos_after (h : Course budget maxAllocation turns d tensors) {request : Request}
    (howned : request.Owned tensors) {n : Nat} (hdeferred : n ∈ d.deferredSerials)
    (hpos : 0 < d.pinCount n) (hkept : ¬Turn.TakesLast n ⟨d, request⟩) :
    0 < (Turn.after ⟨d, request⟩).pinCount n := by
  have hclears : Turn.clears n ⟨d, request⟩ = false := by
    cases request with
    | unpin m =>
      by_contra hlast
      apply hkept
      simpa [Turn.clears, Turn.TakesLast, and_comm] using hlast
    | release t force =>
      have hother : t.serial ≠ n := fun hsame => (h.held_serials howned).2.2.1 (hsame ▸ hdeferred)
      simp [Turn.clears, hother]
    | _ => rfl
  have hstep : _ = d.pinCount n + _ := Turn.pinCount_of_not_clears hclears
  by_cases hunpins : Turn.unpins n ⟨d, request⟩ = true
  · have hmore : d.pinCount n ≠ 1 := fun hone => hkept ⟨Turn.unpin_of_unpins hunpins, hone⟩
    rw [if_pos hunpins] at hstep
    omega
  · rw [if_neg hunpins] at hstep
    omega

/-- Without a release that was made to fail, each serial whose release waits has a pin. -/
lemma deferred_pinned (h : Course budget maxAllocation turns d tensors)
    (hinjected : ∀ turn ∈ turns, turn.injected = false) {n : Nat}
    (hdeferred : n ∈ d.deferredSerials) : 0 < d.pinCount n := by
  induction h with
  | new => cases hdeferred
  | @turn turns d tensors hcourse request howned ih =>
    rcases (Turn.mem_deferredSerials_after ⟨d, request⟩ (hcourse.live howned) n).mp
      hdeferred with hdefers | ⟨hbefore, hkept⟩
    · obtain ⟨t, force, rfl, rfl, hrefused⟩ := Turn.release_of_defers hdefers
      have hcalm := hinjected _ (List.mem_append_right turns (List.mem_singleton_self _))
      have harmed : .release ∉ d.armed := by simpa [Turn.injected] using hcalm
      have hlive := hcourse.live howned t force rfl
      have hsame : (Turn.after ⟨d, .release t force⟩).pinCount t.serial = d.pinCount t.serial := by
        rw [Turn.pinCount_after, Request.pinsLeft, hrefused]
        rfl
      rw [hsame, Nat.pos_iff_ne_zero]
      intro hzero
      rw [(release_of_live hlive harmed force).1.mpr (.inr hzero)] at hrefused
      cases hrefused
    · have hpos := ih (fun turn hturn => hinjected turn (List.mem_append_left _ hturn)) hbefore
      exact hcourse.pinCount_pos_after howned hbefore hpos hkept

lemma reclaims_iff (h : Course budget maxAllocation turns d tensors) {turn : Turn}
    (hturn : turn ∈ turns) (n : Nat) :
    turn.reclaims n = true ↔ n ∈ turn.device.deferredSerials ∧ turn.TakesLast n := by
  obtain ⟨before, held, hbefore, howned, -⟩ := h.before_turn hturn
  exact turn.reclaims_iff (hbefore.live howned) n

/-- A tensor that was reclaimed is not deferred again, and unpins take back later pins only. -/
lemma unpin_of_reclaimed (h : Course budget maxAllocation turns d tensors) {before later : List Turn}
    {turn : Turn} {n : Nat} (hturns : turns = before ++ turn :: later)
    (hreclaims : turn.reclaims n = true) :
    d.unpin n = { d with pins := d.pins.erase n } ∧
      ((∀ x ∈ later, x.pins n = false) → d.unpin n = d) := by
  subst hturns
  have hturn : turn ∈ before ++ turn :: later := List.mem_append_right _ List.mem_cons_self
  obtain ⟨hsum, hspent⟩ := h.deferrals n
  have hreclaimed : 0 < (before ++ turn :: later).countP (·.reclaims n) :=
    List.countP_pos_iff.mpr ⟨turn, hturn, hreclaims⟩
  have hnot : n ∉ d.deferredSerials := by
    intro hdeferred
    rw [if_pos hdeferred] at hsum
    omega
  have hunpin : d.unpin n = { d with pins := d.pins.erase n } := by
    rcases unpin_outcome d n with ⟨-, heq⟩ | ⟨t, ht, rfl, -⟩
    · exact heq
    · exact absurd (List.mem_map_of_mem ht) hnot
  refine ⟨hunpin, fun hlater => ?_⟩
  have hclears := ((h.reclaims_iff hturn n).mp hreclaims).2.clears
  have hpins : (sinceCleared n (before ++ turn :: later)).countP (·.pins n) = 0 := by
    rw [List.countP_eq_zero]
    intro x hx
    rw [hlater x (mem_of_mem_sinceCleared hclears hx)]
    exact Bool.false_ne_true
  have hcount := h.pinCount_sinceCleared n
  have hunpinned : n ∉ d.pins := by
    rw [← List.count_eq_zero]
    change d.pinCount n = 0
    omega
  rw [hunpin, List.erase_of_not_mem hunpinned]

end Course

structure SoundDeferrals (turns : List Turn) (d : HostDevice) (tensors : List HostTensor) : Prop where
  pinned : ∀ n ∈ d.deferredSerials, 0 < d.pinCount n
  charged : d.memory.used.toNat = deviceBytes (tensors ++ d.deferred)
  reclaimed : ∀ turn ∈ turns, ∀ n, turn.reclaims n = true ↔
    n ∈ turn.device.deferredSerials ∧ turn.request = .unpin n ∧ turn.device.pinCount n = 1
  emptied : ∀ turn ∈ turns, ∀ n ∈ turn.device.deferredSerials,
    turn.reclaims n = true ↔ turn.after.pinCount n = 0
  refunded : ∀ turn ∈ turns, ∀ n, turn.reclaims n = true →
    ∃ t ∈ turn.device.deferred, t.serial = n ∧ turn.after.memory = reclaim turn.device.memory t
  once : ∀ n, turns.countP (·.reclaims n) + (if n ∈ d.deferredSerials then 1 else 0) =
    turns.countP (·.defers n) ∧ turns.countP (·.defers n) ≤ 1
  unpinned : ∀ before turn later n, turns = before ++ turn :: later → turn.reclaims n = true →
    d.unpin n = { d with pins := d.pins.erase n } ∧
      ((∀ x ∈ later, x.pins n = false) → d.unpin n = d)

namespace Course

variable {turns : List Turn} {d : HostDevice} {tensors : List HostTensor}

lemma soundDeferrals (h : Course budget maxAllocation turns d tensors)
    (hinjected : ∀ turn ∈ turns, turn.injected = false) : SoundDeferrals turns d tensors where
  pinned n hdeferred := h.deferred_pinned hinjected hdeferred
  charged := h.history.accounts.books.counts.used
  reclaimed turn hturn n := h.reclaims_iff hturn n
  emptied turn hturn n hdeferred := by
    obtain ⟨before, held, hbefore, howned, hsub⟩ := h.before_turn hturn
    have hpos := hbefore.deferred_pinned (fun x hx => hinjected x (hsub x hx)) hdeferred
    rw [h.reclaims_iff hturn]
    constructor
    · exact fun hlast => Turn.pinCount_of_clears hlast.2.clears
    · intro hzero
      refine ⟨hdeferred, ?_⟩
      by_contra hkept
      exact absurd hzero (hbefore.pinCount_pos_after howned hdeferred hpos hkept).ne'
  refunded turn hturn n hreclaims := by
    obtain ⟨hdeferred, hrequest, hlast⟩ := (h.reclaims_iff hturn n).mp hreclaims
    obtain ⟨hin, hout⟩ := last_pin_iff.mpr hlast
    rw [Turn.after, hrequest, Request.serve]
    rcases unpin_outcome turn.device n with ⟨hnone, -⟩ | ⟨t, ht, hserial, -, -, heq⟩
    · obtain ⟨t, ht, hserial⟩ := List.mem_map.mp hdeferred
      exact absurd hserial (hnone hin hout t ht)
    · exact ⟨t, ht, hserial, by rw [heq]⟩
  once n := by
    obtain ⟨hsum, hspent⟩ := h.deferrals n
    refine ⟨hsum, ?_⟩
    omega
  unpinned before turn later n hturns hreclaims := h.unpin_of_reclaimed hturns hreclaims

/-- Pins are counted without an underflow, and decide on releases. Unless a release was made to
fail, a tensor whose release was deferred has a pin and is paid for until the unpin that takes the
last one away, which alone reclaims it, and once. -/
theorem pins_and_deferrals (h : Course budget maxAllocation turns d tensors) :
    SoundPins turns d ∧
      ((∀ turn ∈ turns, turn.injected = false) → SoundDeferrals turns d tensors) :=
  ⟨h.soundPins, h.soundDeferrals⟩

/-- A serial is pinned before it is issued and once more while its release waits. Its two bytes are
given back with the second unpin. -/
theorem pins_and_deferrals_again :
    let t : HostTensor := ⟨⟨1, ⟨.u8, [2]⟩, .device⟩, [0, 0]⟩
    ∃ turns d, turns.map Turn.request =
        [.pin 1, .allocate ⟨.u8, [2]⟩ .device none, .release t false, .pin 1, .unpin 1, .unpin 1] ∧
      turns.map (·.device.memory.used) = [0, 0, 2, 2, 2, 2] ∧ d.memory.used = 0 ∧
      turns.map (·.reclaims 1) = [false, false, false, false, false, true] ∧
      Course 8 64 turns d [] ∧ SoundPins turns d ∧ SoundDeferrals turns d [] := by
  intro t
  have hnew : Course 8 64 [] (.new 8 64) [] := .new
  have hmade := (hnew.turn (.pin 1) trivial).turn (.allocate ⟨.u8, [2]⟩ .device none) trivial
  have hwaits := hmade.turn (.release t false) (List.mem_singleton_self t)
  have h := ((hwaits.turn (.pin 1) trivial).turn (.unpin 1) trivial).turn (.unpin 1) trivial
  obtain ⟨hpins, hdeferrals⟩ := h.pins_and_deferrals
  exact ⟨_, _, rfl, by decide, by decide, by decide, h, hpins, hdeferrals (by decide)⟩

end Course

end HostDevice

end TensorMachine
