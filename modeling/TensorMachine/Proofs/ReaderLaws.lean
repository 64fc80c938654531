import TensorMachine.Program.Reading
import Mathlib.Algebra.Group.Nat.Defs
import Mathlib.Data.List.Basic

/-!
# Laws of readers

A reader reads a value from some bytes if it takes exactly these bytes from the front of whatever
follows, and it fails on some bytes if no bytes behind them change its failure. Both compose along
the concatenation of bytes, so that the bytes of a layout are read field by field.
-/

namespace TensorMachine

namespace LittleEndian

theorem combine_lt (bs : Bytes) : combine bs < 256 ^ bs.length := by
  induction bs with
  | nil => simp [combine]
  | cons b bs ih =>
    have hb : b.toNat < 256 := b.toNat_lt
    simp only [combine, List.length_cons, Nat.pow_succ]
    omega

theorem combine_split (width n : Nat) : combine (split width n) = n % 256 ^ width := by
  induction width generalizing n with
  | zero => simp [split, combine, Nat.mod_one]
  | succ width ih =>
    have hsplit : n % 256 ^ (width + 1) = n % 256 + 256 * (n / 256 % 256 ^ width) := by
      rw [Nat.pow_succ', Nat.mod_mul]
    simp [split, combine, ih, hsplit]

end LittleEndian

namespace Reader

variable {ε δ α β : Type}

/-- The reader takes a value from the bytes and leaves what follows them. -/
def Reads (r : Reader ε α) (bytes : Bytes) (a : α) : Prop :=
  ∀ offset rest, r ⟨offset, bytes ++ rest⟩ = .ok (a, ⟨offset + bytes.length, rest⟩)

/-- The reader fails on the bytes, whatever follows them. -/
def Fails (r : Reader ε α) (bytes : Bytes) (e : ε) : Prop :=
  ∀ offset rest, r ⟨offset, bytes ++ rest⟩ = .error e

lemma Reads.start {r : Reader ε α} {bytes : Bytes} {a : α} (h : r.Reads bytes a) :
    r (.start bytes) = .ok (a, ⟨bytes.length, []⟩) := by
  have hread := h 0 []
  rwa [List.append_nil, Nat.zero_add] at hread

lemma Fails.start {r : Reader ε α} {bytes : Bytes} {e : ε} (h : r.Fails bytes e) :
    r (.start bytes) = .error e := by
  have hread := h 0 []
  rwa [List.append_nil] at hread

/-- A reader reads at most one value from the front of some bytes. -/
lemma Reads.inj {r : Reader ε α} {bytes bytes' rest rest' : Bytes} {a a' : α}
    (h : r.Reads bytes a) (h' : r.Reads bytes' a') (heq : bytes ++ rest = bytes' ++ rest') :
    a = a' ∧ bytes = bytes' ∧ rest = rest' := by
  have hread := h 0 rest
  rw [heq, h' 0 rest'] at hread
  simp only [Except.ok.injEq, Prod.mk.injEq, Cursor.mk.injEq] at hread
  obtain ⟨ha, -, hrest⟩ := hread
  rw [hrest] at heq
  exact ⟨ha.symm, List.append_cancel_right heq, hrest.symm⟩

/-!
### Sequences
-/

lemma bind_apply (r : Reader ε α) (g : α → Reader ε β) (c : Cursor) :
    (r >>= g) c =
      match r c with
      | .ok (a, c') => g a c'
      | .error e => .error e := by
  change (r c >>= fun result => g result.1 result.2) = _
  cases r c <;> rfl

lemma reads_pure (a : α) : Reads (pure a : Reader ε α) [] a := fun _ _ => rfl

lemma Reads.bind {r : Reader ε α} {g : α → Reader ε β} {bytes more : Bytes} {a : α} {b : β}
    (h : r.Reads bytes a) (hg : (g a).Reads more b) : (r >>= g).Reads (bytes ++ more) b := by
  intro offset rest
  rw [bind_apply, List.append_assoc, h offset (more ++ rest)]
  simp only
  rw [hg, List.length_append, Nat.add_assoc]

/-- A reader that reads nothing in front of another. -/
lemma Reads.bind_nil {r : Reader ε α} {g : α → Reader ε β} {bytes : Bytes} {a : α} {b : β}
    (h : r.Reads [] a) (hg : (g a).Reads bytes b) : (r >>= g).Reads bytes b := h.bind hg

/-- A reader that reads nothing behind another. -/
lemma Reads.then_nil {r : Reader ε α} {g : α → Reader ε β} {bytes : Bytes} {a : α} {b : β}
    (h : r.Reads bytes a) (hg : (g a).Reads [] b) : (r >>= g).Reads bytes b := by
  have hboth := h.bind hg
  rwa [List.append_nil] at hboth

lemma Reads.bind_fails {r : Reader ε α} {g : α → Reader ε β} {bytes more : Bytes} {a : α} {e : ε}
    (h : r.Reads bytes a) (hg : (g a).Fails more e) : (r >>= g).Fails (bytes ++ more) e := by
  intro offset rest
  rw [bind_apply, List.append_assoc, h offset (more ++ rest)]
  exact hg (offset + bytes.length) rest

lemma Reads.bind_nil_fails {r : Reader ε α} {g : α → Reader ε β} {bytes : Bytes} {a : α} {e : ε}
    (h : r.Reads [] a) (hg : (g a).Fails bytes e) : (r >>= g).Fails bytes e := h.bind_fails hg

lemma Reads.then_fails {r : Reader ε α} {g : α → Reader ε β} {bytes : Bytes} {a : α} {e : ε}
    (h : r.Reads bytes a) (hg : (g a).Fails [] e) : (r >>= g).Fails bytes e := by
  have hboth := h.bind_fails hg
  rwa [List.append_nil] at hboth

lemma Fails.bind {r : Reader ε α} {bytes : Bytes} {e : ε} (h : r.Fails bytes e)
    (g : α → Reader ε β) : (r >>= g).Fails bytes e := by
  intro offset rest
  rw [bind_apply, h offset rest]

/-- A reader that fails without looking at any bytes. -/
lemma Fails.of_nil {r : Reader ε α} {e : ε} (h : r.Fails [] e) (bytes : Bytes) :
    r.Fails bytes e := fun offset rest => h offset (bytes ++ rest)

lemma Reads.map {r : Reader ε α} {bytes : Bytes} {a : α} (h : r.Reads bytes a) (f : α → β) :
    Reads (f <$> r) bytes (f a) := by
  intro offset rest
  simp only [Functor.map, StateT.map, h offset rest, pure, Except.pure]
  rfl

lemma Reads.withError {r : Reader ε α} {bytes : Bytes} {a : α} (h : r.Reads bytes a) (f : ε → δ) :
    (r.withError f).Reads bytes a := by
  intro offset rest
  rw [Reader.withError, h offset rest]
  rfl

lemma Reads.within {r : Reader Shortfall α} {bytes : Bytes} {a : α} (h : r.Reads bytes a)
    (record : Option Nat) : (Reader.within record r).Reads bytes a :=
  h.withError (DecodeError.ofShortfall record)

lemma reads_ensure {condition : Prop} [Decidable condition] (h : condition) (e : ε) :
    Reads (ensure condition e) [] () := by
  intro offset rest
  rw [ensure, if_pos h]
  rfl

lemma fails_ensure {condition : Prop} [Decidable condition] (h : ¬condition) (e : ε) :
    Fails (ensure condition e) [] e := by
  intro offset rest
  rw [ensure, if_neg h]

lemma reads_ofOption {value? : Option α} {a : α} (h : value? = some a) (e : ε) :
    Reads (ofOption value? e) [] a := by
  intro offset rest
  simp only [ofOption, h]
  rfl

lemma reads_ofExcept {answer : Except ε α} {a : α} (h : answer = .ok a) :
    Reads (ofExcept answer) [] a := by
  intro offset rest
  simp only [ofExcept, h]
  rfl

lemma fails_ofExcept {answer : Except ε α} {e : ε} (h : answer = .error e) :
    Fails (ofExcept answer) [] e := by
  intro offset rest
  simp only [ofExcept, h]

/-- Values are read one after the other if each of them is read from its bytes. -/
lemma reads_times {r : Reader ε α} {encode : α → Bytes} (values : List α)
    (h : ∀ a ∈ values, r.Reads (encode a) a) :
    Reads (times values.length r) (values.flatMap encode) values := by
  induction values with
  | nil => exact fun _ _ => rfl
  | cons a values ih =>
    obtain ⟨ha, hvalues⟩ := List.forall_mem_cons.mp h
    intro offset rest
    have hrest := ih hvalues (offset + (encode a).length) rest
    rw [List.length_cons, times_succ, List.flatMap_cons, List.append_assoc, ha]
    simp only [hrest, Except.map, List.length_append, Nat.add_assoc]

/-!
### Fields
-/

lemma reads_take (bytes : Bytes) : Reads (take bytes.length) bytes bytes := by
  intro offset rest
  have hwindow : (bytes ++ rest).take bytes.length = bytes := List.take_left
  have hdrop : (bytes ++ rest).drop bytes.length = rest := List.drop_left
  simp only [take, hwindow, hdrop, Nat.lt_irrefl, if_false]

lemma reads_split (width n : Nat) :
    Reads (take width) (LittleEndian.split width n) (LittleEndian.split width n) := by
  have h := reads_take (LittleEndian.split width n)
  rwa [LittleEndian.length_split] at h

lemma reads_u8 (value : UInt8) : u8.Reads (Field.u8 value).bytes value := by
  have hlt : value.toNat < 256 ^ 1 := value.toNat_lt
  have hvalue : UInt8.ofNat (LittleEndian.combine (Field.u8 value).bytes) = value := by
    rw [Field.bytes, LittleEndian.combine_split, Nat.mod_eq_of_lt hlt, UInt8.ofNat_toNat]
  have h : u8.Reads (Field.u8 value).bytes
      (UInt8.ofNat (LittleEndian.combine (Field.u8 value).bytes)) :=
    (reads_split 1 value.toNat).map _
  rwa [hvalue] at h

lemma reads_u16 (value : UInt16) : u16.Reads (Field.u16 value).bytes value := by
  have hlt : value.toNat < 256 ^ 2 := value.toNat_lt
  have hvalue : UInt16.ofNat (LittleEndian.combine (Field.u16 value).bytes) = value := by
    rw [Field.bytes, LittleEndian.combine_split, Nat.mod_eq_of_lt hlt, UInt16.ofNat_toNat]
  have h : u16.Reads (Field.u16 value).bytes
      (UInt16.ofNat (LittleEndian.combine (Field.u16 value).bytes)) :=
    (reads_split 2 value.toNat).map _
  rwa [hvalue] at h

lemma reads_u32 (value : UInt32) : u32.Reads (Field.u32 value).bytes value := by
  have hlt : value.toNat < 256 ^ 4 := value.toNat_lt
  have hvalue : UInt32.ofNat (LittleEndian.combine (Field.u32 value).bytes) = value := by
    rw [Field.bytes, LittleEndian.combine_split, Nat.mod_eq_of_lt hlt, UInt32.ofNat_toNat]
  have h : u32.Reads (Field.u32 value).bytes
      (UInt32.ofNat (LittleEndian.combine (Field.u32 value).bytes)) :=
    (reads_split 4 value.toNat).map _
  rwa [hvalue] at h

/-- A byte in front of other bytes is read first. -/
lemma reads_byte (value : UInt8) : u8.Reads [value] value := by
  have h := reads_u8 value
  simp only [Field.bytes, LittleEndian.split, UInt8.ofNat_toNat] at h
  exact h

lemma reads_u32s (values : List UInt32) :
    Reads (times values.length u32) (values.flatMap fun v => (Field.u32 v).bytes) values :=
  reads_times values fun value _ => reads_u32 value

/-!
### Answers

Every value that was read stands in front of the bytes that are left.
-/

lemma bind_eq_ok_iff {r : Reader ε α} {g : α → Reader ε β} {c c' : Cursor} {b : β} :
    (r >>= g) c = .ok (b, c') ↔ ∃ a c₁, r c = .ok (a, c₁) ∧ g a c₁ = .ok (b, c') := by
  rw [bind_apply]
  cases r c with
  | error e => simp
  | ok result =>
    obtain ⟨a, c₁⟩ := result
    simp

lemma pure_eq_ok_iff {a b : α} {c c' : Cursor} :
    (pure a : Reader ε α) c = .ok (b, c') ↔ a = b ∧ c = c' := by
  change (Except.ok (a, c) : Except ε (α × Cursor)) = .ok (b, c') ↔ _
  simp

lemma withError_eq_ok_iff {r : Reader ε α} {f : ε → δ} {c : Cursor} {result : α × Cursor} :
    r.withError f c = .ok result ↔ r c = .ok result := by
  rw [Reader.withError]
  cases r c <;> simp [Except.mapError]

lemma within_eq_ok_iff {r : Reader Shortfall α} {record : Option Nat} {c : Cursor}
    {result : α × Cursor} : within record r c = .ok result ↔ r c = .ok result :=
  withError_eq_ok_iff

lemma ensure_eq_ok_iff {condition : Prop} [Decidable condition] {e : ε} {u : Unit}
    {c c' : Cursor} : ensure condition e c = .ok (u, c') ↔ condition ∧ c = c' := by
  by_cases h : condition <;> simp [ensure, h]

lemma ofOption_eq_ok_iff {value? : Option α} {e : ε} {a : α} {c c' : Cursor} :
    ofOption value? e c = .ok (a, c') ↔ value? = some a ∧ c = c' := by
  cases value? <;> simp [ofOption]

lemma ofExcept_eq_ok_iff {answer : Except ε α} {a : α} {c c' : Cursor} :
    ofExcept answer c = .ok (a, c') ↔ answer = .ok a ∧ c = c' := by
  cases answer <;> simp [ofExcept]

lemma rest_of_take {n : Nat} {c c' : Cursor} {window : Bytes} (h : take n c = .ok (window, c')) :
    window.length = n ∧ c.rest = window ++ c'.rest := by
  simp only [take] at h
  split at h
  · cases h
  · next hlong =>
    cases h
    have hle := List.length_take_le n c.rest
    exact ⟨by omega, (List.take_append_drop n c.rest).symm⟩

lemma map_eq_ok_iff {r : Reader ε α} {f : α → β} {c c' : Cursor} {b : β} :
    (f <$> r) c = .ok (b, c') ↔ ∃ a, r c = .ok (a, c') ∧ f a = b := by
  change (r c >>= fun result => .ok (f result.1, result.2)) = .ok (b, c') ↔ _
  cases r c with
  | error e => simp [bind, Except.bind]
  | ok result =>
    obtain ⟨a, c₁⟩ := result
    change Except.ok (f a, c₁) = .ok (b, c') ↔ ∃ x, Except.ok (a, c₁) = .ok (x, c') ∧ f x = b
    simp only [Except.ok.injEq, Prod.mk.injEq]
    constructor
    · rintro ⟨hb, rfl⟩
      exact ⟨a, ⟨rfl, rfl⟩, hb⟩
    · rintro ⟨x, ⟨rfl, rfl⟩, hb⟩
      exact ⟨hb, rfl⟩

lemma rest_of_u8 {c c' : Cursor} {value : UInt8} (h : u8 c = .ok (value, c')) :
    c.rest = value :: c'.rest := by
  obtain ⟨window, htake, hvalue⟩ := map_eq_ok_iff.mp h
  obtain ⟨hlength, hrest⟩ := rest_of_take htake
  obtain ⟨b, rfl⟩ := List.length_eq_one_iff.mp hlength
  have hb : value = b := by
    rw [← hvalue]
    simp [LittleEndian.combine]
  rw [hrest, hb, List.singleton_append]

lemma split_of_combine {window : Bytes} {width : Nat} (h : window.length = width) :
    LittleEndian.split width (LittleEndian.combine window) = window := by
  rw [← h, LittleEndian.split_combine]

lemma rest_of_u16 {c c' : Cursor} {value : UInt16} (h : u16 c = .ok (value, c')) :
    c.rest = (Field.u16 value).bytes ++ c'.rest := by
  obtain ⟨window, htake, rfl⟩ := map_eq_ok_iff.mp h
  obtain ⟨hlength, hrest⟩ := rest_of_take htake
  have hlt := LittleEndian.combine_lt window
  rw [hlength] at hlt
  rw [hrest, Field.bytes, UInt16.toNat_ofNat_of_lt' hlt, split_of_combine hlength]

lemma rest_of_u32 {c c' : Cursor} {value : UInt32} (h : u32 c = .ok (value, c')) :
    c.rest = (Field.u32 value).bytes ++ c'.rest := by
  obtain ⟨window, htake, rfl⟩ := map_eq_ok_iff.mp h
  obtain ⟨hlength, hrest⟩ := rest_of_take htake
  have hlt := LittleEndian.combine_lt window
  rw [hlength] at hlt
  rw [hrest, Field.bytes, UInt32.toNat_ofNat_of_lt' hlt, split_of_combine hlength]

lemma rest_of_times {r : Reader ε α} {encode : α → Bytes} (Valid : α → Prop)
    (hr : ∀ {c a c'}, r c = .ok (a, c') → Valid a ∧ c.rest = encode a ++ c'.rest)
    {n : Nat} {c c' : Cursor} {values : List α} (h : times n r c = .ok (values, c')) :
    values.length = n ∧ (∀ a ∈ values, Valid a) ∧
      c.rest = values.flatMap encode ++ c'.rest := by
  induction n generalizing c values with
  | zero =>
    cases h
    simp
  | succ n ih =>
    rw [times_succ] at h
    cases hfirst : r c with
    | error e =>
      rw [hfirst] at h
      cases h
    | ok result =>
      obtain ⟨a, c₁⟩ := result
      rw [hfirst] at h
      simp only at h
      cases hrest : times n r c₁ with
      | error e =>
        rw [hrest] at h
        cases h
      | ok result =>
        rw [hrest] at h
        cases h
        obtain ⟨hvalid, hbytes⟩ := hr hfirst
        obtain ⟨hlength, hvalids, hbytes'⟩ := ih hrest
        refine ⟨by simp [hlength], List.forall_mem_cons.mpr ⟨hvalid, hvalids⟩, ?_⟩
        rw [hbytes, hbytes', List.flatMap_cons, List.append_assoc]

lemma rest_of_u32s {n : Nat} {c c' : Cursor} {values : List UInt32}
    (h : times n u32 c = .ok (values, c')) :
    values.length = n ∧ c.rest = values.flatMap (fun v => (Field.u32 v).bytes) ++ c'.rest := by
  obtain ⟨hlength, -, hrest⟩ :=
    rest_of_times (fun _ => True) (fun hvalue => ⟨trivial, rest_of_u32 hvalue⟩) h
  exact ⟨hlength, hrest⟩

end Reader

end TensorMachine
