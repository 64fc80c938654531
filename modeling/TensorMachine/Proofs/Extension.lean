import TensorMachine.Proofs.SteadyReaders
import TensorMachine.Proofs.Basics

/-!
# Decoding bytes that go on

The readers of a program are steady. A decoded program leaves nothing, so that a longer byte string
has the bytes behind it left over, and a shorter one ends in a shortfall. The parameters of a record
are read from a window of their own, where a shortfall makes the record malformed: more bytes behind
the window change nothing about that.
-/

namespace TensorMachine

open Shortfalls Reader

/-!
### The errors of a program
-/

namespace DecodeError

/-- The error is about the record with an index. -/
def Blames (index : Nat) (e : DecodeError) : Prop := e.record? = some index

/-- The error is about what the record with an index says, as far as it was read. -/
def Refuses (index : Nat) (e : DecodeError) : Prop := shortfall? e = none ∧ e.Blames index

/-- The errors about what stands in front of the records: the header and the bindings. -/
inductive OfFront : DecodeError → Prop
  | truncated (offset needed : Nat) : OfFront (.truncated none offset needed)
  | badMagic (found : Bytes) : OfFront (.badMagic found)
  | unsupportedVersion (version : UInt16) : OfFront (.unsupportedVersion version)
  | unsupportedElement (code : UInt8) : OfFront (.unsupportedElement none code)

/-- The error is not about what stands behind a program. -/
def Inner (e : DecodeError) : Prop := ∀ count, e ≠ .trailingBytes count

/-- The error is about bytes that were read, so that none behind them can mend it. -/
def Final (e : DecodeError) : Prop := shortfall? e = none ∧ e.Inner

lemma final_or (e : DecodeError) : e.Final ∨ (∃ count, e = .trailingBytes count) ∨
    ∃ record offset needed, e = .truncated record offset needed := by
  cases e with
  | trailingBytes count => exact .inr (.inl ⟨count, rfl⟩)
  | truncated record offset needed => exact .inr (.inr ⟨record, offset, needed, rfl⟩)
  | _ => exact .inl ⟨rfl, fun _ h => nomatch h⟩

lemma Blames.inner {index : Nat} {e : DecodeError} (h : e.Blames index) : e.Inner := by
  rintro count rfl
  cases h

lemma OfFront.inner {e : DecodeError} (h : e.OfFront) : e.Inner := by
  rintro count rfl
  cases h

lemma OfFront.record?_eq_none {e : DecodeError} (h : e.OfFront) : e.record? = none := by
  cases h <;> rfl

end DecodeError

/-!
### The readers of a program
-/

open DecodeError

lemma TensorType.steady_read : TensorType.read.Steady := by
  have hbyte : (u8.withError TypeFault.shortfall).Steady :=
    steady_u8.withError (fun _ => rfl) fun _ _ => rfl
  refine hbyte.bind fun code => (steady_ofOption rfl).bind fun element => ?_
  refine hbyte.bind fun rank => Steady.bind ?_ fun dims => steady_pure _
  exact (steady_u32.times rank.toNat).withError (fun _ => rfl) fun _ _ => rfl

namespace Record

lemma steady_read (index : Nat) : (Record.read index).Steady := by
  have hbyte := steady_u8.within (some index)
  refine hbyte.bind fun tag => hbyte.bind fun inputCount => hbyte.bind fun outputCount => ?_
  refine hbyte.bind fun _ => (steady_u16.within (some index)).bind fun paramCount => ?_
  refine (steady_ofOption rfl).bind fun opcode => ?_
  refine ((steady_u32.times inputCount.toNat).within (some index)).bind fun inputs => ?_
  refine ((steady_u32.times outputCount.toNat).within (some index)).bind fun outputs => ?_
  exact ((steady_take paramCount.toNat).within (some index)).bind fun params => steady_pure _

lemma blames_read (index : Nat) : (Record.read index).Raises (Blames index) := by
  have hfield : ∀ {α : Type} {r : Reader Shortfall α},
      (within (some index) r).Raises (Blames index) := raises_within fun _ => rfl
  have htag : ∀ tag, (ofOption (Opcode.ofTag? tag) (.unsupportedOperation index tag)).Raises
      (Blames index) := fun _ => raises_ofOption rfl
  refine hfield.bind fun tag => hfield.bind fun inputCount => hfield.bind fun outputCount => ?_
  refine hfield.bind fun _ => hfield.bind fun paramCount => ?_
  refine (htag tag).bind fun opcode => hfield.bind fun inputs => ?_
  exact hfield.bind fun outputs => hfield.bind fun params => raises_pure _

lemma refuses_readParams {α : Type} {index : Nat} {r : Record} {reader : Reader DecodeError α}
    (h : reader.Raises (Refuses index)) {e : DecodeError} (he : r.readParams reader = .error e) :
    e.Refuses index := by
  unfold readParams at he
  split at he
  · cases he
  · next hread =>
    cases he
    exact h _ _ hread

lemma refuses_paramByte (index : Nat) (opcode : Opcode) :
    (paramByte index opcode).Raises (Refuses index) := raises_withError fun _ _ _ => ⟨rfl, rfl⟩

/-- The parameters are read from a window: where they run short the record is malformed. -/
lemma refuses_allocationParams (index : Nat) :
    (allocationParams index).Raises (Refuses index) := by
  refine (refuses_paramByte index .allocate).bind fun code => ?_
  refine (raises_ofOption ⟨rfl, rfl⟩).bind fun residence => ?_
  refine Raises.bind (raises_withError fun _ fault _ => ?_) fun type => ?_
  · cases fault <;> exact ⟨rfl, rfl⟩
  · exact (raises_ensure ⟨rfl, rfl⟩).bind fun _ => raises_pure _

lemma refuses_forceParam (index : Nat) : (forceParam index).Raises (Refuses index) :=
  (refuses_paramByte index .deallocate).bind fun _ => raises_ofOption ⟨rfl, rfl⟩

lemma refuses_kernelParam (index : Nat) : (kernelParam index).Raises (Refuses index) :=
  (refuses_paramByte index .compute).bind fun _ => raises_ofOption ⟨rfl, rfl⟩

lemma refuses_wrongCount {α : Type} {index : Nat} {r : Record} {side : OperandSide}
    {e : DecodeError} (h : r.wrongCount (α := α) index side = .error e) : e.Refuses index := by
  cases h
  exact ⟨rfl, rfl⟩

lemma refuses_transfer {index : Nat} {r : Record} {destination : Residence} {e : DecodeError}
    (h : r.transfer index destination = .error e) : e.Refuses index := by
  unfold transfer at h
  split at h
  · split at h
    · cases h
    · exact refuses_wrongCount h
  · exact refuses_wrongCount h

/-- What a whole record says is not changed by the bytes behind it. -/
lemma refuses_instruction {index : Nat} {r : Record} {e : DecodeError}
    (h : r.instruction index = .error e) : e.Refuses index := by
  have hparams : ∀ {α : Type} {reader : Reader DecodeError α} {g : α → Instruction},
      reader.Raises (Refuses index) → (r.readParams reader >>= fun a => .ok (g a)) = .error e →
        e.Refuses index := by
    intro α reader g hreader hread
    rcases Except.bind_eq_error_iff.mp hread with hread | ⟨_, -, hread⟩
    · exact refuses_readParams hreader hread
    · cases hread
  unfold instruction at h
  split at h
  · split at h
    · exact hparams (g := fun a => .allocate _ a.2 a.1) (refuses_allocationParams index) h
    · exact refuses_wrongCount h
    · exact refuses_wrongCount h
  · exact refuses_transfer h
  · exact refuses_transfer h
  · split at h
    · exact hparams (g := fun force => .deallocate _ force) (refuses_forceParam index) h
    · exact refuses_wrongCount h
    · exact refuses_wrongCount h
  · split at h
    · cases h
      exact ⟨rfl, rfl⟩
    · exact hparams (g := fun kernel => .compute kernel _ _) (refuses_kernelParam index) h
    · exact refuses_wrongCount h

end Record

lemma Instruction.steady_read (index : Nat) : (Instruction.read index).Steady :=
  (Record.steady_read index).bind fun _ =>
    steady_ofExcept fun _ h => (Record.refuses_instruction h).1

/-- Whatever is wrong with a record is reported under its index. -/
lemma Instruction.blames_read (index : Nat) : (Instruction.read index).Raises (Blames index) :=
  (Record.blames_read index).bind fun _ =>
    raises_ofExcept fun _ h => (Record.refuses_instruction h).2

namespace Program

lemma steady_readHeader : readHeader.Steady := by
  have hword := steady_u16.within none
  refine ((steady_take 4).within none).bind fun found => (steady_ensure rfl).bind fun _ => ?_
  refine hword.bind fun foundVersion => (steady_ensure rfl).bind fun _ => ?_
  refine hword.bind fun _ => (steady_u32.within none).bind fun records => ?_
  exact hword.bind fun inputs => hword.bind fun outputs => steady_pure _

lemma Input.steady_read : Input.read.Steady := by
  refine (steady_u32.within none).bind fun id => Steady.bind ?_ fun type => steady_pure _
  refine TensorType.steady_read.withError (fun fault => ?_) fun n fault => ?_
  · cases fault <;> rfl
  · cases fault <;> rfl

lemma readInstructions_succ (index n : Nat) (seen : List Instruction) :
    readInstructions index (n + 1) seen =
      Instruction.read index >>= fun i => readInstructions (index + 1) n (i :: seen) := by
  funext c
  rw [readInstructions, bind_apply]
  cases Instruction.read index c <;> rfl

lemma steady_readInstructions (index n : Nat) (seen : List Instruction) :
    (readInstructions index n seen).Steady := by
  induction n generalizing index seen with
  | zero => exact steady_pure seen.reverse
  | succ n ih =>
    rw [readInstructions_succ]
    exact (Instruction.steady_read index).bind fun i => ih (index + 1) (i :: seen)

lemma steady_read : Program.read.Steady := by
  refine steady_readHeader.bind fun counts => (Input.steady_read.times _).bind fun inputs => ?_
  refine ((steady_u32.times counts.outputs).within none).bind fun outputs => ?_
  exact (steady_readInstructions 0 counts.records []).bind fun instructions => steady_pure _

/-!
### Decoding
-/

lemma ofFront_within {α : Type} {r : Reader Shortfall α} : (within none r).Raises OfFront :=
  raises_within fun s => .truncated s.offset s.needed

lemma ofFront_readHeader : readHeader.Raises OfFront := by
  have hfield : ∀ {α : Type} {r : Reader Shortfall α}, (within none r).Raises OfFront :=
    ofFront_within
  refine hfield.bind fun found => (raises_ensure (.badMagic found)).bind fun _ => ?_
  refine hfield.bind fun version => (raises_ensure (.unsupportedVersion version)).bind fun _ => ?_
  refine hfield.bind fun _ => hfield.bind fun records => ?_
  exact hfield.bind fun inputs => hfield.bind fun outputs => raises_pure _

lemma Input.ofFront_read : Input.read.Raises OfFront := by
  refine ofFront_within.bind fun id => Raises.bind ?_ fun _ => raises_pure _
  refine raises_withError fun _ fault _ => ?_
  cases fault with
  | shortfall s => exact .truncated s.offset s.needed
  | unknownElement code => exact .unsupportedElement code

/-- Reads what stands in front of the records: the header with their number, the inputs and the
outputs. -/
def readFront : Reader DecodeError (Nat × List Input × List TensorId) := do
  let counts ← readHeader
  let inputs ← Reader.times counts.inputs Input.read
  let outputs ← Reader.within none (Reader.times counts.outputs Reader.u32)
  pure (counts.records, inputs, outputs)

lemma ofFront_readFront : readFront.Raises OfFront := by
  refine ofFront_readHeader.bind fun counts => (Input.ofFront_read.times _).bind fun inputs => ?_
  exact ofFront_within.bind fun outputs => raises_pure _

lemma read_eq_front : Program.read = readFront >>= fun front =>
    readInstructions 0 front.1 [] >>= fun instructions =>
      pure ⟨front.2.1, front.2.2, instructions⟩ := by
  simp only [read, readFront, bind_assoc, pure_bind]

lemma inner_readInstructions (index n : Nat) (seen : List Instruction) :
    (readInstructions index n seen).Raises Inner := by
  induction n generalizing index seen with
  | zero => exact raises_pure seen.reverse
  | succ n ih =>
    rw [readInstructions_succ]
    have hfirst := (Instruction.blames_read index).mono fun _ he => he.inner
    exact hfirst.bind fun i => ih (index + 1) (i :: seen)

lemma inner_read : Program.read.Raises Inner := by
  rw [read_eq_front]
  refine (ofFront_readFront.mono fun _ he => he.inner).bind fun front => ?_
  exact (inner_readInstructions 0 front.1 []).bind fun instructions => raises_pure _

lemma decode_of_read {bytes : Bytes} {p : Program} {c : Cursor}
    (h : read (.start bytes) = .ok (p, c)) :
    decode bytes =
      if c.rest.length = 0 then .ok p else .error (.trailingBytes c.rest.length) := by
  rw [decode, h]
  rfl

lemma decode_of_read_error {bytes : Bytes} {e : DecodeError}
    (h : read (.start bytes) = .error e) : decode bytes = .error e := by
  rw [decode, h]

/-- What is decoded comes from what is read: a program and what is left behind it, or an error. -/
lemma read_of_decode {bytes : Bytes} {answer : Except DecodeError Program}
    (h : decode bytes = answer) :
    (∃ p c, read (.start bytes) = .ok (p, c) ∧
      answer = if c.rest.length = 0 then .ok p else .error (.trailingBytes c.rest.length)) ∨
    ∃ e, read (.start bytes) = .error e ∧ e.Inner ∧ answer = .error e := by
  cases hread : read (.start bytes) with
  | ok result =>
    obtain ⟨p, c⟩ := result
    exact .inl ⟨p, c, rfl, h.symm.trans (decode_of_read hread)⟩
  | error e =>
    exact .inr ⟨e, rfl, inner_read _ e hread, h.symm.trans (decode_of_read_error hread)⟩

lemma read_of_decode_ok {bytes : Bytes} {p : Program} (h : decode bytes = .ok p) :
    ∃ c, read (.start bytes) = .ok (p, c) ∧ c.rest = [] := by
  rcases read_of_decode h with ⟨found, c, hread, hanswer⟩ | ⟨e, -, -, hanswer⟩
  · split at hanswer
    · next hnothing =>
      cases hanswer
      exact ⟨c, hread, List.length_eq_zero_iff.mp hnothing⟩
    · cases hanswer
  · cases hanswer

lemma read_of_decode_trailing {bytes : Bytes} {count : Nat}
    (h : decode bytes = .error (.trailingBytes count)) :
    0 < count ∧ ∃ p c, read (.start bytes) = .ok (p, c) ∧ c.rest.length = count := by
  rcases read_of_decode h with ⟨p, c, hread, hanswer⟩ | ⟨e, -, hinner, hanswer⟩
  · split at hanswer
    · cases hanswer
    · next hsome =>
      cases hanswer
      exact ⟨Nat.pos_of_ne_zero hsome, p, c, hread, rfl⟩
  · cases hanswer
    exact absurd rfl (hinner count)

lemma read_of_decode_error {bytes : Bytes} {e : DecodeError} (h : decode bytes = .error e)
    (hinner : e.Inner) : read (.start bytes) = .error e := by
  rcases read_of_decode h with ⟨p, c, -, hanswer⟩ | ⟨e', hread, -, hanswer⟩
  · split at hanswer
    · cases hanswer
    · cases hanswer
      exact absurd rfl (hinner _)
  · cases hanswer
    exact hread

/-- The bytes that a program leaves are left over, however many they are. -/
lemma decode_append_of_read {bytes : Bytes} {p : Program} {c : Cursor}
    (h : read (.start bytes) = .ok (p, c)) {more : Bytes}
    (hmore : 0 < c.rest.length + more.length) :
    decode (bytes ++ more) = .error (.trailingBytes (c.rest.length + more.length)) := by
  have hread : read (.start (bytes ++ more)) = .ok (p, c.extend more) := steady_read.ok h more
  have hlength : (c.extend more).rest.length = c.rest.length + more.length := List.length_append
  rw [decode_of_read hread, hlength, if_neg (Nat.ne_of_gt hmore)]

lemma decode_append_of_ok {bytes more : Bytes} {p : Program} (h : decode bytes = .ok p)
    (hmore : more ≠ []) : decode (bytes ++ more) = .error (.trailingBytes more.length) := by
  obtain ⟨c, hread, hnothing⟩ := read_of_decode_ok h
  have hlength : c.rest.length + more.length = more.length := by
    rw [hnothing, List.length_nil, Nat.zero_add]
  rw [decode_append_of_read hread (by rw [hlength]; exact List.length_pos_iff.mpr hmore), hlength]

lemma decode_append_of_trailing {bytes : Bytes} {count : Nat}
    (h : decode bytes = .error (.trailingBytes count)) (more : Bytes) :
    decode (bytes ++ more) = .error (.trailingBytes (count + more.length)) := by
  obtain ⟨hcount, p, c, hread, rfl⟩ := read_of_decode_trailing h
  exact decode_append_of_read hread (Nat.lt_add_right _ hcount)

lemma decode_append_of_final {bytes : Bytes} {e : DecodeError} (h : decode bytes = .error e)
    (hfinal : e.Final) (more : Bytes) : decode (bytes ++ more) = .error e := by
  have hread := read_of_decode_error h hfinal.2
  have hnone : ∀ s, shortfall? e = some s → more.length < s.needed := by
    intro s hs
    rw [hfinal.1] at hs
    cases hs
  have hagain := steady_read.error hread hnone
  rw [lessen_of_none hfinal.1] at hagain
  exact decode_of_read_error hagain

lemma decode_append_of_truncated {bytes : Bytes} {record : Option Nat} {offset needed : Nat}
    (h : decode bytes = .error (.truncated record offset needed)) (more : Bytes) :
    0 < needed ∧ offset ≤ bytes.length ∧
      (more.length < needed →
        decode (bytes ++ more) = .error (.truncated record offset (needed - more.length))) ∧
      (needed ≤ more.length → ∀ record' offset' needed',
        decode (bytes ++ more) = .error (.truncated record' offset' needed') → offset < offset') := by
  have hread := read_of_decode_error h (fun _ h => nomatch h)
  obtain ⟨hneeded, -, hstop⟩ := steady_read.misses hread rfl
  refine ⟨hneeded, by simpa [Cursor.stop, Cursor.start] using hstop, fun hfew => ?_,
    fun hmany record' offset' needed' hagain => ?_⟩
  · apply decode_of_read_error
    exact steady_read.error hread fun s hs => by cases hs; exact hfew
  · have hpast := steady_read.filled hread rfl hmany
    have hread' := read_of_decode_error hagain (fun _ h => nomatch h)
    rw [show (Cursor.start bytes).extend more = .start (bytes ++ more) from rfl, hread'] at hpast
    exact hpast _ rfl

lemma truncated_of_decode_append {bytes more : Bytes} {p : Program}
    (h : decode (bytes ++ more) = .ok p) (hmore : more ≠ []) :
    ∃ record offset needed, decode bytes = .error (.truncated record offset needed) := by
  cases hfront : decode bytes with
  | ok p' =>
    rw [decode_append_of_ok hfront hmore] at h
    cases h
  | error e =>
    rcases e.final_or with hfinal | ⟨count, rfl⟩ | ⟨record, offset, needed, rfl⟩
    · rw [decode_append_of_final hfront hfinal more] at h
      cases h
    · rw [decode_append_of_trailing hfront more] at h
      cases h
    · exact ⟨record, offset, needed, rfl⟩

/-- What is decoded from a byte string that goes on. Behind a program everything is left over. A
truncated program misses fewer bytes, and where it has them it may be truncated further on only.
Every other error stays. So what is cut off an accepted program leaves a truncated one. -/
theorem decode_append (bytes more : Bytes) :
    (∀ p, decode bytes = .ok p → more ≠ [] →
      decode (bytes ++ more) = .error (.trailingBytes more.length)) ∧
    (∀ count, decode bytes = .error (.trailingBytes count) →
      decode (bytes ++ more) = .error (.trailingBytes (count + more.length))) ∧
    (∀ record offset needed, decode bytes = .error (.truncated record offset needed) →
      0 < needed ∧ offset ≤ bytes.length ∧
        (more.length < needed →
          decode (bytes ++ more) = .error (.truncated record offset (needed - more.length))) ∧
        (needed ≤ more.length → ∀ record' offset' needed',
          decode (bytes ++ more) = .error (.truncated record' offset' needed') →
            offset < offset')) ∧
    (∀ e, decode bytes = .error e → (∀ record offset needed, e ≠ .truncated record offset needed) →
      (∀ count, e ≠ .trailingBytes count) → decode (bytes ++ more) = .error e) ∧
    (∀ p, decode (bytes ++ more) = .ok p → more ≠ [] →
      ∃ record offset needed, decode bytes = .error (.truncated record offset needed)) := by
  refine ⟨fun p h hmore => decode_append_of_ok h hmore,
    fun count h => decode_append_of_trailing h more,
    fun record offset needed h => decode_append_of_truncated h more,
    fun e h hshort hinner => ?_, fun p h hmore => truncated_of_decode_append h hmore⟩
  rcases e.final_or with hfinal | ⟨count, rfl⟩ | ⟨record, offset, needed, rfl⟩
  · exact decode_append_of_final h hfinal more
  · exact absurd rfl (hinner count)
  · exact absurd rfl (hshort record offset needed)

/-- A header without anything behind it, and what is left of it when it is cut in the number of
its records. -/
theorem decode_append_header :
    let header := headerBytes 0 0 0
    decode header = .ok ⟨[], [], []⟩ ∧
      decode (header ++ [7]) = .error (.trailingBytes 1) ∧
      decode (header ++ [7] ++ [8, 9]) = .error (.trailingBytes 3) ∧
      decode (header.take 9 ++ [0, 0]) = .error (.truncated none 8 1) ∧
      ∃ record offset needed,
        decode (header.take 9) = .error (.truncated record offset needed) := by
  intro header
  have hheader : decode header = .ok ⟨[], [], []⟩ := rfl
  have hmore := (decode_append header [7]).1 _ hheader (by decide)
  have hcut := (decode_append (header.take 9) [0, 0]).2.2.1 none 8 3 rfl
  exact ⟨hheader, hmore, (decode_append (header ++ [7]) [8, 9]).2.1 1 hmore,
    hcut.2.2.1 (by decide),
    (decode_append (header.take 9) (header.drop 9)).2.2.2.2 _ hheader (by decide)⟩

end Program

end TensorMachine
