import TensorMachine.Proofs.Acceptance
import TensorMachine.Proofs.Extension

/-!
# Which record is bad

An error that names a record names the first bad one. To say so, the number of records in the header
is changed: up to the named record the bytes are those of a program, with or without bytes behind
it, and with the named record they are not. An error that names no record lies in front of all
records or behind them.

The number of records stands in the bytes 8 to 11. What stands in front of it is read from eight
bytes, and the rest of the front is read in the same way whatever the number says.
-/

namespace TensorMachine

open Reader DecodeError

namespace Program

/-- The number of records that the header announces. -/
def recordCount (bytes : Bytes) : Nat := LittleEndian.combine ((bytes.drop 8).take 4)

/-- The bytes with another number of records in the header, modulo the width of its field. -/
def withRecordCount (count : Nat) (bytes : Bytes) : Bytes :=
  bytes.take 8 ++ (Field.u32 (UInt32.ofNat count)).bytes ++ bytes.drop 12

/-!
### The number of records
-/

lemma exists_u16 {window : Bytes} (h : window.length = 2) :
    ∃ value, window = (Field.u16 value).bytes := by
  have hlt := LittleEndian.combine_lt window
  rw [h] at hlt
  refine ⟨UInt16.ofNat (LittleEndian.combine window), ?_⟩
  rw [Field.bytes, UInt16.toNat_ofNat_of_lt' hlt, split_of_combine h]

lemma recordCount_lt (bytes : Bytes) : recordCount bytes < UInt32.size := by
  have hlt := LittleEndian.combine_lt ((bytes.drop 8).take 4)
  have hle : ((bytes.drop 8).take 4).length ≤ 4 := List.length_take_le 4 _
  exact Nat.lt_of_lt_of_le hlt (Nat.pow_le_pow_right (by decide) hle)

lemma withRecordCount_recordCount {bytes : Bytes} (h : 12 ≤ bytes.length) :
    withRecordCount (recordCount bytes) bytes = bytes := by
  have hlength : ((bytes.drop 8).take 4).length = 4 := by
    rw [List.length_take, List.length_drop]
    omega
  have hcount : (UInt32.ofNat (recordCount bytes)).toNat = recordCount bytes :=
    UInt32.toNat_ofNat_of_lt' (recordCount_lt bytes)
  have hdrop : bytes.drop 12 = (bytes.drop 8).drop 4 := by rw [List.drop_drop]
  rw [withRecordCount, Field.bytes, hcount, recordCount, split_of_combine hlength,
    List.append_assoc, hdrop, List.take_append_drop, List.take_append_drop]

/-!
### The front of a program
-/

/-- Reads what stands in front of the number of records: magic, version and flags. -/
def readPrelude : Reader DecodeError Unit := do
  let found ← Reader.within none (Reader.take 4)
  Reader.ensure (found = magic) (.badMagic found)
  let foundVersion ← Reader.within none Reader.u16
  Reader.ensure (foundVersion = version) (.unsupportedVersion foundVersion)
  let _flags ← Reader.within none Reader.u16
  pure ()

/-- Reads what stands between the number of records and the records. -/
def readBindings : Reader DecodeError (List Input × List TensorId) := do
  let inputCount ← Reader.within none Reader.u16
  let outputCount ← Reader.within none Reader.u16
  let inputs ← Reader.times inputCount.toNat Input.read
  let outputs ← Reader.within none (Reader.times outputCount.toNat Reader.u32)
  pure (inputs, outputs)

lemma readFront_eq : readFront = readPrelude >>= fun _ => within none u32 >>= fun records =>
    readBindings >>= fun bindings => pure (records.toNat, bindings) := by
  simp only [readFront, readHeader, readPrelude, readBindings, bind_assoc, pure_bind]

/-- Eight bytes decide what is said of magic and version. -/
lemma readPrelude_reads_or_fails {head : Bytes} (h : head.length = 8) :
    readPrelude.Reads head () ∨ ∃ e, readPrelude.Fails head e := by
  have hfound : (head.take 4).length = 4 := by rw [List.length_take]; omega
  obtain ⟨foundVersion, hversion⟩ : ∃ value, (head.drop 4).take 2 = (Field.u16 value).bytes :=
    exists_u16 (by rw [List.length_take, List.length_drop]; omega)
  obtain ⟨flags, hflags⟩ : ∃ value, (head.drop 4).drop 2 = (Field.u16 value).bytes :=
    exists_u16 (by rw [List.length_drop, List.length_drop]; omega)
  have hhead : head =
      head.take 4 ++ ((Field.u16 foundVersion).bytes ++ (Field.u16 flags).bytes) := by
    rw [← hversion, ← hflags, List.take_append_drop, List.take_append_drop]
  have hmagic := (reads_take (head.take 4)).within none
  rw [hfound] at hmagic
  have hword := (reads_u16 foundVersion).within none
  rw [hhead]
  by_cases hexpected : head.take 4 = magic
  · by_cases hknown : foundVersion = version
    · left
      refine hmagic.bind ((reads_ensure hexpected _).bind_nil (hword.bind ?_))
      refine (reads_ensure hknown _).bind_nil ?_
      exact ((reads_u16 flags).within none).then_nil (reads_pure ())
    · right
      refine ⟨.unsupportedVersion foundVersion, hmagic.bind_fails ?_⟩
      refine (reads_ensure hexpected _).bind_nil_fails (hword.bind_fails ?_)
      exact ((fails_ensure hknown _).bind _).of_nil _
  · right
    refine ⟨.badMagic (head.take 4), hmagic.bind_fails ?_⟩
    exact ((fails_ensure hexpected _).bind _).of_nil _

/-- Whatever the number of records, the front is read as the same bindings, or the same is wrong
with it. -/
lemma readFront_cases (bytes : Bytes) (h : 12 ≤ bytes.length) :
    (∃ e, ∀ count, readFront (.start (withRecordCount count bytes)) = .error e) ∨
    ∃ bindings c, ∀ count, readFront (.start (withRecordCount count bytes)) =
      .ok (((UInt32.ofNat count).toNat, bindings), c) := by
  have hlength : (bytes.take 8).length = 8 := by rw [List.length_take]; omega
  rcases readPrelude_reads_or_fails hlength with hreads | ⟨e, hfails⟩
  · have hfront : ∀ count, readFront (.start (withRecordCount count bytes)) =
        (readBindings >>= fun bindings => pure ((UInt32.ofNat count).toNat, bindings))
          ⟨12, bytes.drop 12⟩ := by
      intro count
      have hword := (reads_u32 (UInt32.ofNat count)).within none
      rw [readFront_eq, bind_apply, Cursor.start, withRecordCount, List.append_assoc, hreads]
      simp only
      rw [bind_apply, hword, hlength]
      rfl
    cases hbindings : readBindings ⟨12, bytes.drop 12⟩ with
    | error e =>
      left
      refine ⟨e, fun count => ?_⟩
      rw [hfront, bind_apply, hbindings]
    | ok result =>
      right
      refine ⟨result.1, result.2, fun count => ?_⟩
      rw [hfront, bind_apply, hbindings]
      rfl
  · left
    refine ⟨e, fun count => ?_⟩
    rw [readFront_eq, bind_apply, Cursor.start, withRecordCount, List.append_assoc, hfails]

lemma length_of_readFront {bytes : Bytes} {front : Nat × List Input × List TensorId} {c : Cursor}
    (h : readFront (.start bytes) = .ok (front, c)) : 12 ≤ bytes.length := by
  obtain ⟨counts, c₁, hheader, -⟩ := bind_eq_ok_iff.mp h
  obtain ⟨-, -, -, flags, hrest⟩ := rest_of_readHeader hheader
  change bytes = _ at hrest
  rw [hrest, List.length_append]
  change 12 ≤ 16 + c₁.rest.length
  omega

lemma readFront_withRecordCount {bytes : Bytes} {n : Nat} {bindings : List Input × List TensorId}
    {c : Cursor} (h : readFront (.start bytes) = .ok ((n, bindings), c)) :
    n = recordCount bytes ∧ ∀ count < UInt32.size,
      readFront (.start (withRecordCount count bytes)) = .ok ((count, bindings), c) := by
  have hlength := length_of_readFront h
  have hself := withRecordCount_recordCount hlength
  rcases readFront_cases bytes hlength with ⟨e, hfails⟩ | ⟨bindings', c', hreads⟩
  · have hagain := hfails (recordCount bytes)
    rw [hself, h] at hagain
    cases hagain
  · have hagain := hreads (recordCount bytes)
    rw [hself, h, UInt32.toNat_ofNat_of_lt' (recordCount_lt bytes)] at hagain
    simp only [Except.ok.injEq, Prod.mk.injEq] at hagain
    obtain ⟨⟨hn, rfl⟩, rfl⟩ := hagain
    refine ⟨hn, fun count hcount => ?_⟩
    rw [hreads, UInt32.toNat_ofNat_of_lt' hcount]

lemma read_of_front {bytes : Bytes} {n : Nat} {bindings : List Input × List TensorId} {c : Cursor}
    (h : readFront (.start bytes) = .ok ((n, bindings), c)) :
    read (.start bytes) = (readInstructions 0 n [] >>= fun instructions =>
      pure ⟨bindings.1, bindings.2, instructions⟩) c := by
  rw [read_eq_front, bind_apply, h]

/-!
### The records
-/

lemma length_of_readInstructions {index n : Nat} {seen instructions : List Instruction}
    {c c' : Cursor} (h : readInstructions index n seen c = .ok (instructions, c')) :
    instructions.length = seen.length + n := by
  obtain ⟨found, records, rfl, hlength, -⟩ := written_of_readInstructions h
  rw [List.length_append, List.length_reverse, hlength]

/-- The reading of records stops at the first one that cannot be read, with its index. -/
lemma readInstructions_error {index n : Nat} {seen : List Instruction} {c : Cursor}
    {e : DecodeError} (h : readInstructions index n seen c = .error e) :
    ∃ k < n, e.Blames (index + k) ∧ readInstructions index (k + 1) seen c = .error e ∧
      ∀ j ≤ k, ∃ instructions c', readInstructions index j seen c = .ok (instructions, c') := by
  induction n generalizing index seen c with
  | zero => cases h
  | succ n ih =>
    rw [readInstructions_succ, bind_apply] at h
    cases hfirst : Instruction.read index c with
    | error e' =>
      rw [hfirst] at h
      cases h
      refine ⟨0, Nat.succ_pos n, Instruction.blames_read index c e hfirst, ?_, fun j hj => ?_⟩
      · rw [readInstructions_succ, bind_apply, hfirst]
      · obtain rfl := Nat.le_zero.mp hj
        exact ⟨seen.reverse, c, rfl⟩
    | ok result =>
      obtain ⟨i, c₁⟩ := result
      rw [hfirst] at h
      obtain ⟨k, hk, hblames, hstops, hreads⟩ := ih h
      refine ⟨k + 1, Nat.succ_lt_succ hk, ?_, ?_, fun j hj => ?_⟩
      · rwa [Nat.add_right_comm, Nat.add_assoc] at hblames
      · rw [readInstructions_succ, bind_apply, hfirst]
        exact hstops
      · cases j with
        | zero => exact ⟨seen.reverse, c, rfl⟩
        | succ j =>
          rw [readInstructions_succ, bind_apply, hfirst]
          exact hreads j (Nat.le_of_succ_le_succ hj)

/-!
### What is decoded
-/

lemma decode_of_records {bytes : Bytes} {n : Nat} {bindings : List Input × List TensorId}
    {c c' : Cursor} {instructions : List Instruction}
    (hfront : readFront (.start bytes) = .ok ((n, bindings), c))
    (h : readInstructions 0 n [] c = .ok (instructions, c')) :
    (∃ p, decode bytes = .ok p ∧ p.instructions.length = n) ∨
      ∃ count, decode bytes = .error (.trailingBytes count) := by
  have hlength := length_of_readInstructions h
  rw [List.length_nil, Nat.zero_add] at hlength
  have hread : read (.start bytes) = .ok (⟨bindings.1, bindings.2, instructions⟩, c') := by
    rw [read_of_front hfront, bind_apply, h]
    rfl
  rw [decode_of_read hread]
  by_cases hnothing : c'.rest.length = 0
  · rw [if_pos hnothing]
    exact .inl ⟨_, rfl, hlength⟩
  · rw [if_neg hnothing]
    exact .inr ⟨_, rfl⟩

lemma decode_of_records_error {bytes : Bytes} {n : Nat} {bindings : List Input × List TensorId}
    {c : Cursor} {e : DecodeError} (hfront : readFront (.start bytes) = .ok ((n, bindings), c))
    (h : readInstructions 0 n [] c = .error e) : decode bytes = .error e := by
  apply decode_of_read_error
  rw [read_of_front hfront, bind_apply, h]

lemma decode_of_front_error {bytes : Bytes} {e : DecodeError} (hlength : 12 ≤ bytes.length)
    (h : readFront (.start bytes) = .error e) (count : Nat) :
    decode (withRecordCount count bytes) = .error e := by
  have hself := withRecordCount_recordCount hlength
  apply decode_of_read_error
  rcases readFront_cases bytes hlength with ⟨e', hfails⟩ | ⟨bindings, c, hreads⟩
  · have hagain := hfails (recordCount bytes)
    rw [hself, h] at hagain
    cases hagain
    rw [read_eq_front, bind_apply, hfails]
  · have hagain := hreads (recordCount bytes)
    rw [hself, h] at hagain
    cases hagain

/-- What cannot be read is bad in the front or in a record. -/
lemma read_error_cases {bytes : Bytes} {e : DecodeError} (h : read (.start bytes) = .error e) :
    (e.OfFront ∧ readFront (.start bytes) = .error e) ∨
    ∃ bindings c, readFront (.start bytes) = .ok ((recordCount bytes, bindings), c) ∧
      readInstructions 0 (recordCount bytes) [] c = .error e := by
  rw [read_eq_front] at h
  rcases bind_eq_error_iff.mp h with hfront | ⟨⟨n, bindings⟩, c, hfront, hrest⟩
  · exact .inl ⟨ofFront_readFront _ e hfront, hfront⟩
  · obtain ⟨rfl, -⟩ := readFront_withRecordCount hfront
    rcases bind_eq_error_iff.mp hrest with hrecords | ⟨_, _, -, hdone⟩
    · exact .inr ⟨bindings, c, hfront, hrecords⟩
    · cases hdone

/-- What is decoded from bytes that go on behind their last record is decoded without them. -/
lemma decode_take_of_trailing {bytes : Bytes} {count : Nat}
    (h : decode bytes = .error (.trailingBytes count)) :
    ∃ p, decode (bytes.take (bytes.length - count)) = .ok p ∧
      p.instructions.length = recordCount bytes := by
  obtain ⟨-, p, c, hread, rfl⟩ := read_of_decode_trailing h
  obtain ⟨front, hwritten, hrest⟩ := written_of_read hread
  change bytes = front ++ c.rest at hrest
  have htake : bytes.take (bytes.length - c.rest.length) = front := by
    rw [hrest, List.length_append, Nat.add_sub_cancel, List.take_left]
  refine ⟨p, ?_, ?_⟩
  · rw [htake, decode, hwritten.reads.start]
    rfl
  · rw [read_eq_front] at hread
    obtain ⟨⟨n, bindings⟩, c₁, hfront, hread⟩ := bind_eq_ok_iff.mp hread
    obtain ⟨instructions, c₂, hinstructions, hread⟩ := bind_eq_ok_iff.mp hread
    obtain ⟨rfl, rfl⟩ := pure_eq_ok_iff.mp hread
    rw [← (readFront_withRecordCount hfront).1, length_of_readInstructions hinstructions]
    exact Nat.zero_add n

/-- An error that names a record names the first bad one. With fewer records announced in the header
the bytes are a program with that many records, perhaps with bytes behind it, and with the named
record as the last one the error is the same. An error that names no record is about bytes behind
the last record, all of which are good, or about the front, and then the number of records does not
matter. -/
theorem decode_error_record {bytes : Bytes} {e : DecodeError} (h : decode bytes = .error e) :
    (∀ i, e.record? = some i →
      12 ≤ bytes.length ∧ i < recordCount bytes ∧
      (∀ j ≤ i, (∃ p, decode (withRecordCount j bytes) = .ok p ∧ p.instructions.length = j) ∨
        ∃ count, decode (withRecordCount j bytes) = .error (.trailingBytes count)) ∧
      decode (withRecordCount (i + 1) bytes) = .error e) ∧
    (e.record? = none →
      (∃ count p, e = .trailingBytes count ∧
        decode (bytes.take (bytes.length - count)) = .ok p ∧
        p.instructions.length = recordCount bytes) ∨
      (e.OfFront ∧ readFront (.start bytes) = .error e ∧
        (12 ≤ bytes.length → ∀ j, decode (withRecordCount j bytes) = .error e))) := by
  refine ⟨fun i hi => ?_, fun hnone => ?_⟩
  · have hblames : e.Blames i := hi
    rcases read_error_cases (read_of_decode_error h hblames.inner) with
      ⟨hfront, -⟩ | ⟨bindings, c, hfront, hrecords⟩
    · rw [hfront.record?_eq_none] at hi
      cases hi
    · obtain ⟨k, hk, hnamed, hstops, hreads⟩ := readInstructions_error hrecords
      rw [Blames, hi, Nat.zero_add, Option.some.injEq] at hnamed
      subst hnamed
      have hlt := recordCount_lt bytes
      have hagain := (readFront_withRecordCount hfront).2
      refine ⟨length_of_readFront hfront, hk, fun j hj => ?_, ?_⟩
      · obtain ⟨instructions, c', hread⟩ := hreads j hj
        exact decode_of_records (hagain j (by omega)) hread
      · exact decode_of_records_error (hagain (i + 1) (by omega)) hstops
  · by_cases htrailing : ∃ count, e = .trailingBytes count
    · obtain ⟨count, rfl⟩ := htrailing
      obtain ⟨p, hdecode, hlength⟩ := decode_take_of_trailing h
      exact .inl ⟨count, p, rfl, hdecode, hlength⟩
    · have hinner : e.Inner := fun count he => htrailing ⟨count, he⟩
      rcases read_error_cases (read_of_decode_error h hinner) with
        ⟨hof, hfront⟩ | ⟨bindings, c, -, hrecords⟩
      · exact .inr ⟨hof, hfront, fun hlength j => decode_of_front_error hlength hfront j⟩
      · obtain ⟨k, -, hnamed, -⟩ := readInstructions_error hrecords
        rw [Blames, hnone] at hnamed
        cases hnamed

/-- The second of two records has no known tag. -/
theorem decode_error_record_unknownTag :
    let bytes := headerBytes 2 0 0 ++ (Instruction.deallocate 7 true).record.bytes ++
      [9, 0, 0, 0, 0, 0]
    let e : DecodeError := .unsupportedOperation 1 9
    decode bytes = .error e ∧ 1 < recordCount bytes ∧
      decode (withRecordCount 1 bytes) = .error (.trailingBytes 6) ∧
      decode (withRecordCount 2 bytes) = .error e := by
  intro bytes e
  have hdecode : decode bytes = .error e := by decide
  obtain ⟨-, hlt, -, hagain⟩ := (decode_error_record hdecode).1 1 rfl
  exact ⟨hdecode, hlt, by decide, hagain⟩

end Program

end TensorMachine
