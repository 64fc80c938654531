import TensorMachine.Proofs.HostTurns
import Mathlib.Data.List.Induction

/-!
# Serials

A host device numbers its tensors from one and uses no number again. Whatever it is asked for, also
with handles of other devices, a number that it keeps stands in one place: it is outstanding, waits
for a deferred release, or is listed as released. It leaves the outstanding ones by a release of a
handle that carries it, and this happens once.
-/

namespace TensorMachine

namespace HostDevice

/-!
### Requests without restraint
-/

/-- The device behind some requests. -/
def serveAll (d : HostDevice) (requests : List Request) : HostDevice :=
  requests.foldl Request.serve d

/-- The turns that some requests come to. -/
def turns : HostDevice → List Request → List Turn
  | _, [] => []
  | d, request :: rest => ⟨d, request⟩ :: turns (request.serve d) rest

lemma serveAll_append (d : HostDevice) (requests more : List Request) :
    d.serveAll (requests ++ more) = (d.serveAll requests).serveAll more :=
  List.foldl_append

lemma turns_eq_append_cons {d : HostDevice} {requests : List Request} {before later : List Turn}
    {turn : Turn} (h : d.turns requests = before ++ turn :: later) :
    ∃ first rest, requests = first ++ turn.request :: rest ∧ turn.device = d.serveAll first ∧
      before = d.turns first ∧ later = turn.after.turns rest := by
  induction before generalizing d requests with
  | nil =>
    cases requests with
    | nil => cases h
    | cons request rest =>
      cases h
      exact ⟨[], rest, rfl, rfl, rfl, rfl⟩
  | cons x before ih =>
    cases requests with
    | nil => cases h
    | cons request rest =>
      rw [turns, List.cons_append, List.cons.injEq] at h
      obtain ⟨rfl, h⟩ := h
      obtain ⟨first, rest, rfl, hdevice, rfl, hlater⟩ := ih h
      exact ⟨request :: first, rest, rfl, hdevice, rfl, hlater⟩

lemma device_of_mem_turns {d : HostDevice} {requests : List Request} {turn : Turn}
    (h : turn ∈ d.turns requests) : ∃ first, turn.device = d.serveAll first := by
  obtain ⟨before, later, hturns⟩ := List.append_of_mem h
  obtain ⟨first, -, -, hdevice, -⟩ := turns_eq_append_cons hturns
  exact ⟨first, hdevice⟩

/-!
### Single turns
-/

/-- The serials that a device keeps. -/
def serials (d : HostDevice) : List Nat := d.outstanding ++ d.deferredSerials ++ d.released

lemma Refused.serials {α : Type} {d d' : HostDevice} {call : DeviceCall}
    {check : Except DeviceError α} {e : DeviceError} (h : d.Refused call check e d') :
    d'.serials = d.serials := by
  cases h <;> rfl

lemma perm_serials {d d' : HostDevice} {n : Nat} (hlive : n ∈ d.outstanding)
    (hout : d'.outstanding = d.outstanding.erase n)
    (helsewhere : (d'.deferredSerials ++ d'.released).Perm
      (n :: (d.deferredSerials ++ d.released))) : d'.serials.Perm d.serials := by
  rw [List.perm_iff_count]
  intro m
  have hfirst := (List.perm_cons_erase hlive).count_eq m
  have hrest := helsewhere.count_eq m
  simp only [List.count_cons, List.count_append] at hfirst hrest
  simp only [serials, hout, List.count_append]
  omega

lemma perm_deferred (d : HostDevice) (t : HostTensor) :
    ((d.deferred ++ [t]).map (·.serial) ++ d.released).Perm
      (t.serial :: (d.deferredSerials ++ d.released)) := by
  rw [List.map_append]
  exact (List.perm_append_singleton _ _).append_right d.released

namespace Turn

/-- The turn makes a tensor. -/
def issues (turn : Turn) : Bool :=
  match turn.request with
  | .allocate type location data? => (turn.device.allocate type location data?).1.isOk
  | .compute kernel operands => (turn.device.compute kernel operands).1.isOk
  | _ => false

/-- In the turn a serial leaves the outstanding ones. -/
def takesBack (n : Nat) (turn : Turn) : Bool :=
  decide (n ∈ turn.device.outstanding ∧ n ∉ turn.after.outstanding)

/-- All that a turn may do to serials: it keeps them, though it may forget some whose release was
deferred, it issues the next one, or it is a release that takes an outstanding one back. -/
inductive MovesSerials (turn : Turn) (d' : HostDevice) : Prop
  | keeps (hissues : turn.issues = false) (hhandles : turn.device.SameHandles d')
    (hserials : d'.serials.Sublist turn.device.serials) : MovesSerials turn d'
  | issues (hissues : turn.issues = true) (hnext : d'.nextSerial = turn.device.nextSerial + 1)
    (hout : d'.outstanding = turn.device.nextSerial :: turn.device.outstanding)
    (hserials : d'.serials = turn.device.nextSerial :: turn.device.serials) : MovesSerials turn d'
  | takesBack {t : HostTensor} {force : Bool} (hrequest : turn.request = .release t force)
    (hlive : t.serial ∈ turn.device.outstanding) (hnext : d'.nextSerial = turn.device.nextSerial)
    (hout : d'.outstanding = turn.device.outstanding.erase t.serial)
    (hserials : d'.serials.Perm turn.device.serials) : MovesSerials turn d'

theorem movesSerials (turn : Turn) : turn.MovesSerials turn.after := by
  obtain ⟨d, request⟩ := turn
  cases request with
  | failNext call => exact .keeps rfl ⟨rfl, rfl⟩ (.refl _)
  | pin n => exact .keeps rfl ⟨rfl, rfl⟩ (.refl _)
  | unpin n =>
    refine .keeps rfl (sameHandles_unpin d n) ?_
    simp only [Turn.after, Request.serve]
    rcases unpin_outcome d n with ⟨-, heq⟩ | ⟨t, -, -, -, -, heq⟩ <;> rw [heq]
    · exact .refl _
    · have hfewer : (d.deferred.filter (·.serial != n)).map (·.serial) |>.Sublist
          d.deferredSerials := List.filter_sublist.map _
      exact (hfewer.append_left d.outstanding).append_right d.released
  | allocate type location data? =>
    rcases allocate_outcome d type location data? with
      ⟨e, d', hrefused, hcall⟩ | ⟨bytes, memory, -, -, hcall⟩ <;>
      simp only [Turn.after, Request.serve, hcall]
    · exact .keeps (by simp only [Turn.issues, hcall]; rfl) hrefused.sameHandles
        (hrefused.serials ▸ .refl _)
    · exact .issues (by simp only [Turn.issues, hcall]; rfl) rfl rfl rfl
  | release t force =>
    rcases release_outcome d t force with
      ⟨-, hcall⟩ | ⟨hlive, ⟨-, hcall⟩ | ⟨-, -, -, hcall⟩ | ⟨-, -, hcall⟩⟩ <;>
      simp only [Turn.after, Request.serve, hcall]
    · exact .keeps rfl .rfl (.refl _)
    · exact .takesBack rfl hlive rfl rfl (perm_serials hlive rfl (perm_deferred d t))
    · exact .takesBack rfl hlive rfl rfl (perm_serials hlive rfl (perm_deferred d t))
    · refine .takesBack rfl hlive rfl rfl (perm_serials hlive rfl ?_)
      rw [← List.append_assoc]
      exact List.perm_append_singleton _ _
  | transfer destination t =>
    rcases transfer_outcome d destination t with
      ⟨e, d', hrefused, hcall⟩ | ⟨memory, -, -, hcall⟩ <;>
      simp only [Turn.after, Request.serve, hcall]
    · exact .keeps rfl hrefused.sameHandles (hrefused.serials ▸ .refl _)
    · exact .keeps rfl ⟨rfl, rfl⟩ (.refl _)
  | compute kernel operands =>
    rcases compute_outcome d kernel operands with
      ⟨e, d', hrefused, hcall⟩ | ⟨type, memory, -, -, hcall⟩ <;>
      simp only [Turn.after, Request.serve, hcall]
    · exact .keeps (by simp only [Turn.issues, hcall]; rfl) hrefused.sameHandles
        (hrefused.serials ▸ .refl _)
    · exact .issues (by simp only [Turn.issues, hcall]; rfl) rfl rfl rfl

lemma nextSerial_after (turn : Turn) :
    turn.after.nextSerial = turn.device.nextSerial + if turn.issues then 1 else 0 := by
  cases turn.movesSerials with
  | keeps hissues hhandles hserials => rw [hissues, hhandles.nextSerial]; rfl
  | issues hissues hnext hout hserials => rw [hissues, hnext]; rfl
  | takesBack hrequest hlive hnext hout hserials =>
    have hissues : turn.issues = false := by rw [issues, hrequest]
    rw [hissues, hnext]; rfl

end Turn

/-!
### Runs of requests
-/

/-- Each serial that a device keeps was issued, and stands in one place. -/
structure Orderly (d : HostDevice) : Prop where
  next_pos : 1 ≤ d.nextSerial
  issued : ∀ n ∈ d.serials, 1 ≤ n ∧ n < d.nextSerial
  distinct : d.serials.Nodup

lemma orderly_new (budget : UInt64) (maxAllocation : Nat) : (new budget maxAllocation).Orderly := by
  refine ⟨Nat.le_refl 1, fun n hn => ?_, List.nodup_nil⟩
  cases hn

namespace Orderly

variable {d : HostDevice}

lemma nodup_outstanding (h : d.Orderly) : d.outstanding.Nodup :=
  (List.nodup_append.mp (List.nodup_append.mp h.distinct).1).1

lemma lt_of_outstanding (h : d.Orderly) {n : Nat} (hn : n ∈ d.outstanding) : n < d.nextSerial :=
  (h.issued n (List.mem_append_left _ (List.mem_append_left _ hn))).2

lemma serve (h : d.Orderly) (request : Request) : (request.serve d).Orderly := by
  have hmoves := Turn.movesSerials ⟨d, request⟩
  obtain ⟨hpos, hissued, hdistinct⟩ := h
  cases hmoves with
  | keeps hissues hhandles hserials =>
    have hnext : (request.serve d).nextSerial = d.nextSerial := hhandles.nextSerial
    refine ⟨hnext ▸ hpos, fun n hn => ?_, hdistinct.sublist hserials⟩
    exact hnext ▸ hissued n (hserials.subset hn)
  | issues hissues hnext hout hserials =>
    have hnext : (request.serve d).nextSerial = d.nextSerial + 1 := hnext
    have hserials : (request.serve d).serials = d.nextSerial :: d.serials := hserials
    have hfresh : d.nextSerial ∉ d.serials := fun hmem => Nat.lt_irrefl _ (hissued _ hmem).2
    refine ⟨by omega, fun n hn => ?_, hserials ▸ List.nodup_cons.mpr ⟨hfresh, hdistinct⟩⟩
    rw [hserials, List.mem_cons] at hn
    rcases hn with rfl | hn
    · omega
    · have hn := hissued n hn
      omega
  | takesBack hrequest hlive hnext hout hserials =>
    have hnext : (request.serve d).nextSerial = d.nextSerial := hnext
    refine ⟨hnext ▸ hpos, fun n hn => ?_, hserials.nodup_iff.mpr hdistinct⟩
    exact hnext ▸ hissued n (hserials.mem_iff.mp hn)

lemma serveAll (h : d.Orderly) (requests : List Request) : (d.serveAll requests).Orderly := by
  induction requests generalizing d with
  | nil => exact h
  | cons request rest ih => exact ih (h.serve request)

end Orderly

lemma orderly_of_mem_turns {d : HostDevice} (h : d.Orderly) {requests : List Request} {turn : Turn}
    (hturn : turn ∈ d.turns requests) : turn.device.Orderly := by
  obtain ⟨first, hdevice⟩ := device_of_mem_turns hturn
  exact hdevice ▸ h.serveAll first

/-- A serial that was taken back is not outstanding in any later turn. -/
lemma gone_for_good {d : HostDevice} {n : Nat} (hissued : n < d.nextSerial)
    (hgone : n ∉ d.outstanding) (requests : List Request) :
    n ∉ (d.serveAll requests).outstanding ∧ ∀ x ∈ d.turns requests, n ∉ x.device.outstanding := by
  induction requests generalizing d with
  | nil => exact ⟨hgone, nofun⟩
  | cons request rest ih =>
    have hafter : n < (Turn.after ⟨d, request⟩).nextSerial ∧
        n ∉ (Turn.after ⟨d, request⟩).outstanding := Turn.outstanding_after hissued hgone
    obtain ⟨hlast, hlater⟩ := ih hafter.1 hafter.2
    exact ⟨hlast, List.forall_mem_cons.mpr ⟨hgone, hlater⟩⟩

namespace Turn

lemma gone_of_takesBack {turn : Turn} (h : turn.device.Orderly) {n : Nat}
    (htaken : turn.takesBack n = true) :
    n < turn.after.nextSerial ∧ n ∉ turn.after.outstanding := by
  obtain ⟨hlive, hgone⟩ := of_decide_eq_true htaken
  refine ⟨?_, hgone⟩
  have hissued := h.lt_of_outstanding hlive
  have hnext := turn.nextSerial_after
  omega

/-- A serial is taken back by the release of a live handle that carries it. -/
lemma takesBack_iff {turn : Turn} (h : turn.device.Orderly) {n : Nat} :
    turn.takesBack n = true ↔ ∃ t force, turn.request = .release t force ∧ t.serial = n ∧
      turn.device.checkLive t = .ok () := by
  rw [takesBack, decide_eq_true_iff]
  constructor
  · rintro ⟨hlive, hgone⟩
    cases turn.movesSerials with
    | keeps hissues hhandles hserials => exact absurd (hhandles.outstanding ▸ hlive) hgone
    | issues hissues hnext hout hserials =>
      exact absurd (hout ▸ List.mem_cons_of_mem _ hlive) hgone
    | @takesBack t force hrequest hserial hnext hout hserials =>
      refine ⟨t, force, hrequest, ?_, checkLive_eq_ok_iff.mpr hserial⟩
      by_contra hother
      exact hgone (hout ▸ (List.mem_erase_of_ne (Ne.symm hother)).mpr hlive)
  · rintro ⟨t, force, hrequest, rfl, hcheck⟩
    have hlive := checkLive_eq_ok_iff.mp hcheck
    obtain ⟨-, hout⟩ := handles_of_release hlive force
    rw [after, hrequest, Request.serve, hout]
    exact ⟨hlive, h.nodup_outstanding.not_mem_erase⟩

end Turn

lemma countP_takesBack_le {d : HostDevice} (h : d.Orderly) (n : Nat) (requests : List Request) :
    (d.turns requests).countP (·.takesBack n) ≤ 1 := by
  induction requests generalizing d with
  | nil => exact Nat.zero_le 1
  | cons request rest ih =>
    rw [turns, List.countP_cons]
    by_cases htaken : Turn.takesBack n ⟨d, request⟩ = true
    · obtain ⟨hissued, hgone⟩ := Turn.gone_of_takesBack h htaken
      obtain ⟨-, hlater⟩ := gone_for_good hissued hgone rest
      have hzero : ((request.serve d).turns rest).countP (·.takesBack n) = 0 := by
        rw [List.countP_eq_zero]
        exact fun x hx hagain => hlater x hx (of_decide_eq_true hagain).1
      rw [if_pos htaken]
      omega
    · rw [if_neg htaken]
      exact ih (h.serve request)

/-- The serials of a device behind some turns, and what became of them. -/
structure SoundSerials (turns : List Turn) (d : HostDevice) : Prop where
  issued : ∀ n ∈ d.serials, 1 ≤ n ∧ n < d.nextSerial
  distinct : d.serials.Nodup
  counted : ∀ turn ∈ turns,
    turn.after.nextSerial = turn.device.nextSerial + if turn.issues then 1 else 0
  takenBack : ∀ turn ∈ turns, ∀ n, turn.takesBack n = true ↔
    ∃ t force, turn.request = .release t force ∧ t.serial = n ∧ turn.device.checkLive t = .ok ()
  once : ∀ n, turns.countP (·.takesBack n) ≤ 1
  gone : ∀ before turn later n, turns = before ++ turn :: later → turn.takesBack n = true →
    n ∉ d.outstanding ∧ ∀ x ∈ later, n ∉ x.device.outstanding

/-- Whatever is asked of a host device, its serials count the tensors that it has made. Each is
outstanding, deferred or released and never two of these, leaves the outstanding ones with the
release of a live handle, and does not come back. -/
theorem serials_lifecycle (budget : UInt64) (maxAllocation : Nat) (requests : List Request) :
    SoundSerials ((new budget maxAllocation).turns requests)
      ((new budget maxAllocation).serveAll requests) where
  issued := ((orderly_new budget maxAllocation).serveAll requests).issued
  distinct := ((orderly_new budget maxAllocation).serveAll requests).distinct
  counted turn _ := turn.nextSerial_after
  takenBack _ hturn _ :=
    Turn.takesBack_iff (orderly_of_mem_turns (orderly_new budget maxAllocation) hturn)
  once n := countP_takesBack_le (orderly_new budget maxAllocation) n requests
  gone before turn later n hturns htaken := by
    obtain ⟨first, rest, rfl, hdevice, -, rfl⟩ := turns_eq_append_cons hturns
    have horderly : turn.device.Orderly :=
      hdevice ▸ (orderly_new budget maxAllocation).serveAll first
    obtain ⟨hissued, hgone⟩ := Turn.gone_of_takesBack horderly htaken
    have hlast : (new budget maxAllocation).serveAll (first ++ turn.request :: rest) =
        turn.after.serveAll rest := by
      rw [serveAll_append, ← hdevice]
      rfl
    rw [hlast]
    exact gone_for_good hissued hgone rest

/-- A tensor of another device takes the serial back, and the device's own tensor comes too late. -/
example :
    let own : HostTensor := ⟨⟨1, ⟨.u8, [1]⟩, .device⟩, [0]⟩
    let other : HostTensor := ⟨⟨1, ⟨.u8, [3]⟩, .host⟩, [7, 7, 7]⟩
    let turns := (new 8 64).turns
      [.allocate ⟨.u8, [1]⟩ .device none, .release other true, .release own true]
    turns.map (·.takesBack 1) = [false, true, false] := by
  decide

end HostDevice

end TensorMachine
