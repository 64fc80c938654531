import TensorMachine.Proofs.SteadyReaders

/-!
# Fields one after the other

Fields that were written are read back by their kinds. In whatever bytes, and whichever of the reads
fail, each read starts where the last successful one has ended: it gives the value of the bytes that
stand there or tells how many are missing. A failed read is as good as none, so that the same bytes
can be read by a smaller one. The readers hand on a cursor and the bytes ahead of it. A reader that
keeps all bytes and moves an offset comes to the same.
-/

namespace TensorMachine

namespace Field

/-- The bytes show the value of the field, integers with the lowest byte first. -/
inductive ShownBy : Field → Bytes → Prop
  | u8 (a : UInt8) : ShownBy (.u8 a) [a]
  | u16 {value : UInt16} {a b : UInt8} (h : value.toNat = a.toNat + 2 ^ 8 * b.toNat) :
      ShownBy (.u16 value) [a, b]
  | u32 {value : UInt32} {a b c d : UInt8}
      (h : value.toNat = a.toNat + 2 ^ 8 * b.toNat + 2 ^ 16 * c.toNat + 2 ^ 24 * d.toNat) :
      ShownBy (.u32 value) [a, b, c, d]
  | raw (value : Bytes) : ShownBy (.raw value) value

/-- The bytes of a field show its value. -/
lemma shownBy_bytes (f : Field) : f.ShownBy f.bytes := by
  cases f with
  | u8 value =>
    simp only [bytes, LittleEndian.split, UInt8.ofNat_toNat]
    exact .u8 value
  | u16 value =>
    have hlt : value.toNat < 2 ^ 16 := value.toNat_lt
    refine .u16 ?_
    simp only [UInt8.toNat_ofNat']
    omega
  | u32 value =>
    have hlt : value.toNat < 2 ^ 32 := value.toNat_lt
    refine .u32 ?_
    simp only [UInt8.toNat_ofNat']
    omega
  | raw value => exact .raw value

lemma reads_bytes (f : Field) : f.kind.read.Reads f.bytes f := by
  cases f with
  | u8 value => exact (Reader.reads_u8 value).map Field.u8
  | u16 value => exact (Reader.reads_u16 value).map Field.u16
  | u32 value => exact (Reader.reads_u32 value).map Field.u32
  | raw value => exact (Reader.reads_take value).map Field.raw

end Field

namespace FieldKind

/-- The value of a field of this kind in the bytes that were taken for it. -/
def decode : FieldKind → Bytes → Field
  | u8, window => .u8 (UInt8.ofNat (LittleEndian.combine window))
  | u16, window => .u16 (UInt16.ofNat (LittleEndian.combine window))
  | u32, window => .u32 (UInt32.ofNat (LittleEndian.combine window))
  | raw _, window => .raw window

/-- The kinds of fields differ only in what they make of the bytes taken. -/
lemma read_eq (k : FieldKind) : k.read = k.decode <$> Reader.take k.width := by
  cases k with
  | u8 => exact (comp_map _ _ _).symm
  | u16 => exact (comp_map _ _ _).symm
  | u32 => exact (comp_map _ _ _).symm
  | raw length => rfl

variable {k : FieldKind} {window : Bytes}

lemma kind_decode (h : window.length = k.width) : (k.decode window).kind = k := by
  cases k with
  | raw length => exact congrArg raw h
  | u8 | u16 | u32 => rfl

lemma bytes_decode (h : window.length = k.width) : (k.decode window).bytes = window := by
  have hlt := LittleEndian.combine_lt window
  rw [h] at hlt
  have hsplit := Reader.split_of_combine h
  cases k with
  | u8 => rwa [decode, Field.bytes, UInt8.toNat_ofNat_of_lt' hlt]
  | u16 => rwa [decode, Field.bytes, UInt16.toNat_ofNat_of_lt' hlt]
  | u32 => rwa [decode, Field.bytes, UInt32.toNat_ofNat_of_lt' hlt]
  | raw length => rfl

lemma decode_shownBy (h : window.length = k.width) : (k.decode window).ShownBy window := by
  have hshown := (k.decode window).shownBy_bytes
  rwa [bytes_decode h] at hshown

/-!
### Reads at a cursor
-/

/-- Reads a field, or stays at the cursor if the reader fails. -/
def attempt (k : FieldKind) : StateM Cursor (Except Shortfall Field) := fun c =>
  match k.read c with
  | .ok (f, c') => (.ok f, c')
  | .error e => (.error e, c)

/-- Reads fields one after the other, whether or not those in front could be read. -/
def attempts (kinds : List FieldKind) : StateM Cursor (List (Except Shortfall Field)) :=
  kinds.mapM attempt

lemma attempts_cons (k : FieldKind) (kinds : List FieldKind) (c : Cursor) :
    attempts (k :: kinds) c =
      ((k.attempt c).1 :: (attempts kinds (k.attempt c).2).1,
        (attempts kinds (k.attempt c).2).2) := by
  rw [attempts, List.mapM_cons]
  rfl

lemma attempts_append (kinds more : List FieldKind) (c : Cursor) :
    attempts (kinds ++ more) c =
      ((attempts kinds c).1 ++ (attempts more (attempts kinds c).2).1,
        (attempts more (attempts kinds c).2).2) := by
  induction kinds generalizing c with
  | nil => rfl
  | cons k kinds ih => rw [List.cons_append, attempts_cons, attempts_cons, ih, List.cons_append]

/-- Fields that were written are read back, and what follows them is left. -/
lemma attempts_map_kind (fields : List Field) (further : Bytes) (offset : Nat) :
    attempts (fields.map Field.kind) ⟨offset, fields.flatMap Field.bytes ++ further⟩ =
      (fields.map .ok, ⟨offset + (fields.flatMap Field.bytes).length, further⟩) := by
  induction fields generalizing offset with
  | nil => rfl
  | cons f fields ih =>
    have hread := f.reads_bytes offset (fields.flatMap Field.bytes ++ further)
    rw [List.map_cons, attempts_cons, List.flatMap_cons, List.append_assoc, attempt, hread]
    simp only
    rw [ih, List.length_append, Nat.add_assoc]
    rfl

end FieldKind

/-- The cursor at an offset in some bytes. -/
def Cursor.within (data : Bytes) (offset : Nat) : Cursor := ⟨offset, data.drop offset⟩

/-- Bytes with the offset of the next one to read. -/
structure Buffer where
  bytes : Bytes
  offset : Nat

namespace Buffer

/-- Steps on a buffer until one of them fails. What they have moved stays when a later one fails. -/
abbrev Attempt (α : Type) : Type := ExceptT Shortfall (StateM Buffer) α

def remaining (b : Buffer) : Nat := b.bytes.length - b.offset

def take (n : Nat) : Attempt Bytes := do
  let b ← get
  if b.remaining < n then
    throw ⟨b.offset, n - b.remaining⟩
  else
    set { b with offset := b.offset + n }
    return b.bytes.extract b.offset (b.offset + n)

def read (k : FieldKind) : Attempt Field := do
  let window ← take k.width
  return k.decode window

def attempts (kinds : List FieldKind) : StateM Buffer (List (Except Shortfall Field)) :=
  kinds.mapM fun k => (read k).run

lemma attempts_cons (k : FieldKind) (kinds : List FieldKind) (b : Buffer) :
    attempts (k :: kinds) b =
      ((read k b).1 :: (attempts kinds (read k b).2).1, (attempts kinds (read k b).2).2) := by
  rw [attempts, List.mapM_cons]
  rfl

lemma take_eq (n : Nat) (b : Buffer) :
    take n b =
      if b.remaining < n then (.error ⟨b.offset, n - b.remaining⟩, b)
      else (.ok ((b.bytes.drop b.offset).take n), { b with offset := b.offset + n }) := by
  have hwindow : b.bytes.extract b.offset (b.offset + n) = (b.bytes.drop b.offset).take n := by
    rw [List.extract_eq_take_drop, Nat.add_sub_cancel_left]
  rw [← hwindow]
  change (if b.remaining < n then _ else _ : Attempt Bytes) b = _
  split <;> rfl

end Buffer

/-- What a read at an offset in some bytes comes to, and the offset behind it: the value of the next
bytes if there are enough, or else what is missing, with no byte taken. -/
inductive ReadOutcome (data : Bytes) (k : FieldKind) (offset : Nat) :
    Except Shortfall Field → Nat → Prop
  | granted {f : Field} (hfits : offset + k.width ≤ data.length) (hkind : f.kind = k)
      (hshown : f.ShownBy ((data.drop offset).take k.width)) :
      ReadOutcome data k offset (.ok f) (offset + k.width)
  | refused (hshort : data.length < offset + k.width) :
      ReadOutcome data k offset (.error ⟨offset, k.width - (data.length - offset)⟩) offset

/-- The outcomes of reads one after the other. -/
inductive ReadOutcomes (data : Bytes) :
    List FieldKind → Nat → List (Except Shortfall Field) → Nat → Prop
  | nil {offset : Nat} (hinside : offset ≤ data.length) : ReadOutcomes data [] offset [] offset
  | cons {k : FieldKind} {kinds : List FieldKind} {answer : Except Shortfall Field}
      {answers : List (Except Shortfall Field)} {offset next last : Nat}
      (hinside : offset ≤ data.length) (hfirst : ReadOutcome data k offset answer next)
      (hrest : ReadOutcomes data kinds next answers last) :
      ReadOutcomes data (k :: kinds) offset (answer :: answers) last

lemma ReadOutcomes.last_le {data : Bytes} {kinds : List FieldKind}
    {answers : List (Except Shortfall Field)} {offset last : Nat}
    (h : ReadOutcomes data kinds offset answers last) : last ≤ data.length := by
  induction h with
  | nil hinside => exact hinside
  | cons _ _ _ ih => exact ih

namespace FieldKind

variable {data : Bytes} {k : FieldKind} {offset : Nat}

lemma length_window (hfits : offset + k.width ≤ data.length) :
    ((data.drop offset).take k.width).length = k.width := by
  rw [List.length_take, List.length_drop]
  omega

lemma attempt_of_fits (hfits : offset + k.width ≤ data.length) :
    k.attempt (.within data offset) =
      (.ok (k.decode ((data.drop offset).take k.width)), .within data (offset + k.width)) := by
  have hrest : k.width ≤ (data.drop offset).length := by
    rw [List.length_drop]
    omega
  have hread : k.read (.within data offset) =
      .ok (k.decode ((data.drop offset).take k.width), .within data (offset + k.width)) := by
    rw [read_eq, Reader.map_eq_ok_iff]
    exact ⟨_, Reader.take_eq_ok_iff.mpr ⟨hrest, rfl, congrArg _ List.drop_drop⟩, rfl⟩
  rw [attempt, hread]

lemma attempt_of_short (hinside : offset ≤ data.length)
    (hshort : data.length < offset + k.width) :
    k.attempt (.within data offset) =
      (.error ⟨offset, k.width - (data.length - offset)⟩, .within data offset) := by
  have hrest : (data.drop offset).length < k.width := by
    rw [List.length_drop]
    omega
  have htake : Reader.take k.width (.within data offset) =
      .error ⟨offset, k.width - (data.length - offset)⟩ := by
    rw [Reader.take_eq_error_iff, ← List.length_drop]
    exact ⟨hrest, rfl⟩
  have hread : k.read (.within data offset) =
      .error ⟨offset, k.width - (data.length - offset)⟩ := by
    rw [read_eq, Reader.map_eq_bind, Reader.bind_apply, htake]
  rw [attempt, hread]

end FieldKind

namespace Buffer

variable {b b' : Buffer} {k : FieldKind}

lemma read_of_take {answer : Except Shortfall Bytes} (h : take k.width b = (answer, b')) :
    read k b = (answer.map k.decode, b') := by
  change (match take k.width b with
    | (r, c) => ExceptT.bindCont (fun window => (pure (k.decode window) : Attempt Field)) r c) = _
  rw [h]
  cases answer <;> rfl

lemma read_of_fits (h : k.width ≤ b.remaining) :
    read k b = (.ok (k.decode ((b.bytes.drop b.offset).take k.width)),
      { b with offset := b.offset + k.width }) :=
  read_of_take ((take_eq k.width b).trans (if_neg (Nat.not_lt.mpr h)))

lemma read_of_short (h : b.remaining < k.width) :
    read k b = (.error ⟨b.offset, k.width - b.remaining⟩, b) :=
  read_of_take ((take_eq k.width b).trans (if_pos h))

end Buffer

namespace ReadOutcome

variable {data : Bytes} {offset : Nat}

/-- A cursor and a buffer at the same offset make the same of a read. -/
lemma exists_of_le (hinside : offset ≤ data.length) (k : FieldKind) :
    ∃ answer next, ReadOutcome data k offset answer next ∧ next ≤ data.length ∧
      k.attempt (.within data offset) = (answer, .within data next) ∧
      Buffer.read k ⟨data, offset⟩ = (answer, ⟨data, next⟩) := by
  by_cases hfits : offset + k.width ≤ data.length
  · have hlength := FieldKind.length_window hfits
    exact ⟨_, _, .granted hfits (FieldKind.kind_decode hlength) (FieldKind.decode_shownBy hlength),
      hfits, FieldKind.attempt_of_fits hfits, Buffer.read_of_fits (Nat.le_sub_of_add_le' hfits)⟩
  · have hshort := Nat.not_le.mp hfits
    exact ⟨_, _, .refused hshort, hinside, FieldKind.attempt_of_short hinside hshort,
      Buffer.read_of_short (Nat.sub_lt_left_of_lt_add hinside hshort)⟩

end ReadOutcome

namespace ReadOutcomes

variable {data : Bytes} {offset : Nat}

lemma exists_of_le (hinside : offset ≤ data.length) (kinds : List FieldKind) :
    ∃ answers last, ReadOutcomes data kinds offset answers last ∧
      FieldKind.attempts kinds (.within data offset) = (answers, .within data last) ∧
      Buffer.attempts kinds ⟨data, offset⟩ = (answers, ⟨data, last⟩) := by
  induction kinds generalizing offset with
  | nil => exact ⟨[], offset, .nil hinside, rfl, rfl⟩
  | cons k kinds ih =>
    obtain ⟨answer, next, hfirst, hnext, hcursor, hbuffer⟩ := ReadOutcome.exists_of_le hinside k
    obtain ⟨answers, last, hrest, hcursors, hbuffers⟩ := ih hnext
    refine ⟨answer :: answers, last, .cons hinside hfirst hrest, ?_, ?_⟩
    · rw [FieldKind.attempts_cons, hcursor, hcursors]
    · rw [Buffer.attempts_cons, hbuffer, hbuffers]

end ReadOutcomes

namespace FieldKind

/-- After a read that has failed, a smaller one takes the same bytes. -/
lemma attempts_smaller {data : Bytes} {kinds : List FieldKind} {k k' : FieldKind}
    {answers : List (Except Shortfall Field)} {offset : Nat} (hinside : offset ≤ data.length)
    (hattempts : attempts kinds (.start data) = (answers, .within data offset))
    (hshort : data.length < offset + k.width) (hfits : offset + k'.width ≤ data.length) :
    ∃ f, f.kind = k' ∧ f.ShownBy ((data.drop offset).take k'.width) ∧
      attempts (kinds ++ [k, k']) (.start data) =
        (answers ++ [.error ⟨offset, k.width - (data.length - offset)⟩, .ok f],
          .within data (offset + k'.width)) := by
  have hlength := length_window hfits
  refine ⟨_, kind_decode hlength, decode_shownBy hlength, ?_⟩
  rw [attempts_append, hattempts, attempts_cons, attempts_cons, attempt_of_short hinside hshort,
    attempt_of_fits hfits]
  rfl

/-- Fields that were written are read back one by one, up to what follows them. And in whatever
bytes, all reads have their outcomes, one behind the other. A cursor that is handed on stands just
where the offset of a buffer stands, never behind the end. Where a read fails, a smaller one is
still granted. -/
theorem field_reads :
    (∀ (fields : List Field) (further : Bytes),
      attempts (fields.map Field.kind) (.start (fields.flatMap Field.bytes ++ further)) =
        (fields.map .ok, ⟨(fields.flatMap Field.bytes).length, further⟩)) ∧
    ∀ (data : Bytes) (kinds : List FieldKind), ∃ answers offset,
      ReadOutcomes data kinds 0 answers offset ∧ offset ≤ data.length ∧
        attempts kinds (.start data) = (answers, .within data offset) ∧
        Buffer.attempts kinds ⟨data, 0⟩ = (answers, ⟨data, offset⟩) ∧
        ∀ k k', data.length < offset + k.width → offset + k'.width ≤ data.length →
          ∃ f : Field, f.kind = k' ∧ f.ShownBy ((data.drop offset).take k'.width) ∧
            attempts (kinds ++ [k, k']) (.start data) =
              (answers ++ [.error ⟨offset, k.width - (data.length - offset)⟩, .ok f],
                .within data (offset + k'.width)) := by
  refine ⟨fun fields further => ?_, fun data kinds => ?_⟩
  · have hback := attempts_map_kind fields further 0
    rwa [Nat.zero_add] at hback
  · obtain ⟨answers, offset, houtcomes, hcursor, hbuffer⟩ :=
      ReadOutcomes.exists_of_le (Nat.zero_le data.length) kinds
    have hinside := houtcomes.last_le
    exact ⟨answers, offset, houtcomes, hinside, hcursor, hbuffer,
      fun k k' hshort hfits => attempts_smaller hinside hcursor hshort hfits⟩

/-- An integer of four bytes does not fit behind the first of two bytes, but then the second one can
be read alone. -/
theorem field_reads_short :
    ∃ f : Field, f.kind = .u8 ∧ f.ShownBy [0xbb] ∧
      attempts [.u8, .u32, .u8] (.start [0xaa, 0xbb]) =
        ([.ok (.u8 0xaa), .error ⟨1, 3⟩, .ok f], ⟨2, []⟩) := by
  obtain ⟨answers, offset, -, -, hattempts, -, hsmaller⟩ := field_reads.2 [0xaa, 0xbb] [.u8]
  have hfirst : attempts [.u8] (.start [0xaa, 0xbb]) = ([.ok (.u8 0xaa)], ⟨1, [0xbb]⟩) := rfl
  obtain ⟨rfl, hcursor⟩ := Prod.mk.inj (hattempts.symm.trans hfirst)
  obtain rfl : offset = 1 := congrArg Cursor.offset hcursor
  exact hsmaller .u32 .u8 (by decide) (by decide)

end FieldKind

end TensorMachine
