import TensorMachine.Proofs.IndexedLoops
import TensorMachine.Proofs.ReaderLaws

/-!
# Position by position

What the loops of the kernels do to a destination is told by positions. An element of the result is
the operation on the elements of the sources at its position. The bytes behind the last whole
element stay, and what the sources have beyond the elements of the destination does not matter. This
holds for any operation, so that it does not depend on how elements are added or multiplied.
-/

namespace TensorMachine

namespace Elements

/-- The number of bytes of the whole elements. -/
def whole (destination : Bytes) : Nat := size * (destination.length / size)

/-- The result consists of the elements given and of the bytes of the destination behind its last
whole element. -/
structure Fills (element? : Nat → Option UInt32) (destination result : Bytes) : Prop where
  length : result.length = destination.length
  element : ∀ i < destination.length / size, wordAt? result i = element? i
  behind : result.drop (whole destination) = destination.drop (whole destination)

/-!
### Elements and bytes
-/

lemma words_bytes_append (element : UInt32) (rest : Bytes) :
    words (bytes element ++ rest) = element :: words rest := by
  have hlt : element.toNat < 256 ^ size := element.toNat_lt
  have hvalue : UInt32.ofNat (LittleEndian.combine (bytes element)) = element := by
    rw [bytes, LittleEndian.combine_split, Nat.mod_eq_of_lt hlt, UInt32.ofNat_toNat]
  exact (words_cons _ _ _ _ rest).trans (congrArg (· :: words rest) hvalue)

lemma words_flatMap_bytes_append (elements : List UInt32) (rest : Bytes) :
    words (elements.flatMap bytes ++ rest) = elements ++ words rest := by
  induction elements with
  | nil => rfl
  | cons element elements ih =>
    rw [List.flatMap_cons, List.append_assoc, words_bytes_append, ih, List.cons_append]

/-- Elements are written as the bytes that they were read from. -/
lemma flatMap_bytes_words : ∀ source : Bytes,
    (words source).flatMap bytes = source.take (whole source)
  | [] | [_] | [_, _] | [_, _, _] => by simp [words, wordsAfter, whole, size]
  | a :: b :: c :: d :: rest => by
    have hwhole : whole (a :: b :: c :: d :: rest) = whole rest + 4 := by
      simp only [whole, size, List.length_cons]
      omega
    have hlt : LittleEndian.combine [a, b, c, d] < 256 ^ 4 := LittleEndian.combine_lt [a, b, c, d]
    have hbytes : bytes (UInt32.ofNat (LittleEndian.combine [a, b, c, d])) = [a, b, c, d] := by
      rw [bytes, UInt32.toNat_ofNat_of_lt' hlt]
      exact LittleEndian.split_combine [a, b, c, d]
    rw [words_cons, List.flatMap_cons, flatMap_bytes_words rest, hbytes, hwhole]
    rfl

lemma words_take (source : Bytes) (n : Nat) :
    words (source.take (size * n)) = (words source).take n := by
  refine List.ext_getElem? fun i => ?_
  rw [List.getElem?_take, ← wordAt?_eq, ← wordAt?_eq]
  by_cases hi : i < n
  · have hbyte : ∀ k < size, size * i + k < size * n := by
      simp only [size]
      omega
    have hbytes : ∀ k < size, (source.take (size * n))[size * i + k]? = source[size * i + k]? :=
      fun k hk => List.getElem?_take_of_lt (hbyte k hk)
    have hzero := hbytes 0 (by decide)
    rw [Nat.add_zero] at hzero
    rw [if_pos hi, wordAt?, wordAt?, hzero, hbytes 1 (by decide), hbytes 2 (by decide),
      hbytes 3 (by decide)]
  · rw [if_neg hi, wordAt?_eq_none]
    rw [List.length_take]
    simp only [size]
    omega

lemma wordAt?_eq_none_iff {source : Bytes} {i : Nat} :
    wordAt? source i = none ↔ source.length / size ≤ i := by
  rw [wordAt?_eq, List.getElem?_eq_none_iff, length_words]

/-- There is only one such result. -/
lemma Fills.unique {element? : Nat → Option UInt32} {destination result result' : Bytes}
    (h : Fills element? destination result) (h' : Fills element? destination result') :
    result = result' := by
  have hwords : words result = words result' := by
    refine List.ext_getElem? fun i => ?_
    rw [← wordAt?_eq, ← wordAt?_eq]
    by_cases hi : i < destination.length / size
    · rw [h.element i hi, h'.element i hi]
    · have hend := Nat.not_lt.mp hi
      rw [wordAt?_eq_none_iff.mpr (h.length ▸ hend), wordAt?_eq_none_iff.mpr (h'.length ▸ hend)]
  have hwhole : ∀ {b : Bytes}, b.length = destination.length → whole b = whole destination := by
    intro b hb
    rw [whole, hb, whole]
  rw [← List.take_append_drop (whole destination) result, h.behind, ← hwhole h.length,
    ← flatMap_bytes_words, hwords, flatMap_bytes_words, hwhole h.length, hwhole h'.length,
    ← h'.behind, List.take_append_drop]

lemma fills_overwrite {elements : List UInt32} {destination : Bytes}
    (h : destination.length / size ≤ elements.length) :
    Fills (elements[·]?) destination (overwrite elements destination) where
  length := length_overwrite h
  element i hi := by
    rw [wordAt?_eq, overwrite, words_flatMap_bytes_append, List.getElem?_append_left,
      List.getElem?_take_of_lt hi]
    rw [List.length_take]
    omega
  behind := by
    have hfront : ((elements.take (destination.length / size)).flatMap bytes).length =
        whole destination := by
      rw [length_flatMap_bytes, List.length_take, Nat.min_eq_left h, whole]
    exact List.drop_left' hfront

lemma le_of_fills {elements : List UInt32} {destination result : Bytes}
    (h : Fills (elements[·]?) destination result) :
    destination.length / size ≤ elements.length := by
  by_contra hless
  have hlt := Nat.not_le.mp hless
  have hnone : wordAt? result elements.length = none :=
    (h.element _ hlt).trans (List.getElem?_eq_none Nat.le.refl)
  rw [wordAt?_eq_none_iff, h.length] at hnone
  exact hless hnone

/-- The loop over the elements given has an answer exactly if it stays in range, and this is the
filled destination. -/
lemma putAll?_eq_some_iff {elements : List UInt32} {destination result : Bytes} :
    putAll? (elements[·]?) destination = some result ↔
      Fills (elements[·]?) destination result := by
  rw [putAll?_eq]
  constructor
  · intro h
    split at h
    · next hcount =>
      cases h
      exact fills_overwrite hcount
    · cases h
  · intro h
    have hcount := le_of_fills h
    rw [if_pos hcount, (fills_overwrite hcount).unique h]

lemma isSome_putAll?_iff {elements : List UInt32} {destination : Bytes} :
    (putAll? (elements[·]?) destination).isSome ↔
      destination.length / size ≤ elements.length := by
  rw [putAll?_eq]
  split <;> simp [*]

/-!
### Operations
-/

/-- What a loop over the elements of sources answers: it stays in range if all sources have the
bytes of the elements of the destination, and then it fills the destination. -/
structure Positionwise (element? : Nat → Option UInt32) (sources : List Bytes)
    (destination : Bytes) (answer? : Option Bytes) : Prop where
  loop : putAll? element? destination = answer?
  inRange : answer?.isSome ↔ ∀ source ∈ sources, whole destination ≤ source.length
  fills : ∀ result, answer? = some result ↔ Fills element? destination result

lemma whole_le_iff {source destination : Bytes} :
    whole destination ≤ source.length ↔ destination.length / size ≤ (words source).length := by
  rw [length_words, Nat.le_div_iff_mul_le (by decide), Nat.mul_comm, whole]

lemma positionwise_map (op : UInt32 → UInt32) (source destination : Bytes) :
    Positionwise (unaryAt? op source) [source] destination (mapInto op source destination) := by
  have hloop := putAll?_unaryAt? op source destination
  rw [← hloop, unaryAt?_eq]
  refine ⟨rfl, ?_, fun _ => putAll?_eq_some_iff⟩
  rw [isSome_putAll?_iff, List.length_map, List.forall_mem_singleton, whole_le_iff]

lemma positionwise_zip (op : UInt32 → UInt32 → UInt32) (left right destination : Bytes) :
    Positionwise (binaryAt? op left right) [left, right] destination
      (zipInto op left right destination) := by
  have hloop := putAll?_binaryAt? op left right destination
  rw [← hloop, binaryAt?_eq]
  refine ⟨rfl, ?_, fun _ => putAll?_eq_some_iff⟩
  rw [isSome_putAll?_iff, List.length_zipWith, Nat.le_min, List.forall_mem_cons,
    List.forall_mem_singleton, whole_le_iff, whole_le_iff]

lemma overwrite_take (elements : List UInt32) (destination : Bytes) :
    overwrite (elements.take (destination.length / size)) destination =
      overwrite elements destination := by
  simp only [overwrite, List.take_take, Nat.min_self]

lemma length_words_take_lt_iff (source destination : Bytes) :
    (words (source.take (whole destination))).length < destination.length / size ↔
      (words source).length < destination.length / size := by
  rw [whole, words_take, List.length_take]
  omega

/-- Bytes of the source beyond the elements of the destination are ignored. -/
lemma mapInto_take (op : UInt32 → UInt32) (source destination : Bytes) :
    mapInto op (source.take (whole destination)) destination = mapInto op source destination := by
  simp only [mapInto, length_words_take_lt_iff]
  rw [whole, words_take, List.map_take, overwrite_take]

/-- Bytes of the sources beyond the elements of the destination are ignored. -/
lemma zipInto_take (op : UInt32 → UInt32 → UInt32) (left right destination : Bytes) :
    zipInto op (left.take (whole destination)) (right.take (whole destination)) destination =
      zipInto op left right destination := by
  simp only [zipInto, length_words_take_lt_iff]
  rw [whole, words_take, words_take, ← List.take_zipWith, overwrite_take]

end Elements

namespace Kernel

/-- The element that the kernel makes of one element of each operand. -/
def combine? : Kernel → List UInt32 → Option UInt32
  | add, [a, b] => some (Binary32.add a b)
  | multiply, [a, b] => some (Binary32.multiply a b)
  | relu, [a] => some (Binary32.rectify a)
  | copy, [a] => some a
  | _, _ => none

/-- The elements at a position of the operands that the kernel takes. -/
def elementsAt? (k : Kernel) (operands : List Bytes) (i : Nat) : Option (List UInt32) :=
  (operands.take k.arity).mapM (Elements.wordAt? · i)

/-- The operands that the kernel takes are there and have the bytes for the elements of the first
one. -/
def Suffices (k : Kernel) (operands : List Bytes) : Prop :=
  k.arity ≤ operands.length ∧ ∃ first ∈ operands.head?,
    ∀ operand ∈ operands.take k.arity, Elements.whole first ≤ operand.length

/-- The result of the kernel by positions: as long as the first operand, each element made of those
of the operands at its position, and zeros behind the last one unless the kernel copies. -/
structure Elementwise (k : Kernel) (operands : List Bytes) (result : Bytes) : Prop where
  length : operands.head?.map List.length = some result.length
  element : ∀ i, Elements.wordAt? result i = (k.elementsAt? operands i).bind k.combine?
  zeros : k ≠ .copy → result.drop (Elements.whole result) =
    List.replicate (result.length % Elements.size) 0

variable {k : Kernel} {operands rest : List Bytes} {first second result : Bytes}

lemma run?_of_few (h : operands.length < k.arity) : k.run? operands = none := by
  match k, operands with
  | add, [] | add, [_] | multiply, [] | multiply, [_] | relu, [] | copy, [] => rfl
  | add, _ :: _ :: _ | multiply, _ :: _ :: _ | relu, _ :: _ | copy, _ :: _ =>
    simp only [arity, List.length_cons] at h
    omega

lemma map_elementsAt? (harity : k.arity = 1) {op : UInt32 → UInt32}
    (hop : ∀ a, k.combine? [a] = some (op a)) :
    (fun i => (k.elementsAt? (first :: rest) i).bind k.combine?) = Elements.unaryAt? op first := by
  funext i
  rw [elementsAt?, harity, Elements.unaryAt?]
  cases h : Elements.wordAt? first i <;> simp [h, hop]

lemma zip_elementsAt? (harity : k.arity = 2) {op : UInt32 → UInt32 → UInt32}
    (hop : ∀ a b, k.combine? [a, b] = some (op a b)) :
    (fun i => (k.elementsAt? (first :: second :: rest) i).bind k.combine?) =
      Elements.binaryAt? op first second := by
  funext i
  rw [elementsAt?, harity, Elements.binaryAt?]
  cases h : Elements.wordAt? first i <;> cases h' : Elements.wordAt? second i <;> simp [h, h', hop]

lemma positionwise_unary (harity : k.arity = 1) {op : UInt32 → UInt32}
    (hop : ∀ a, k.combine? [a] = some (op a)) :
    Elements.Positionwise (fun i => (k.elementsAt? (first :: rest) i).bind k.combine?)
      ((first :: rest).take k.arity) (List.replicate first.length 0)
      (Elements.mapInto op first (List.replicate first.length 0)) := by
  rw [map_elementsAt? harity hop, harity]
  exact Elements.positionwise_map op first _

lemma positionwise_binary (harity : k.arity = 2) {op : UInt32 → UInt32 → UInt32}
    (hop : ∀ a b, k.combine? [a, b] = some (op a b)) :
    Elements.Positionwise (fun i => (k.elementsAt? (first :: second :: rest) i).bind k.combine?)
      ((first :: second :: rest).take k.arity) (List.replicate first.length 0)
      (Elements.zipInto op first second (List.replicate first.length 0)) := by
  rw [zip_elementsAt? harity hop, harity]
  exact Elements.positionwise_zip op first second _

/-- A kernel that computes is a loop over zeros as long as the first operand. -/
lemma positionwise_run (hk : k ≠ .copy) (hcount : k.arity ≤ (first :: rest).length) :
    Elements.Positionwise (fun i => (k.elementsAt? (first :: rest) i).bind k.combine?)
      ((first :: rest).take k.arity) (List.replicate first.length 0) (k.run? (first :: rest)) := by
  cases k with
  | add =>
    obtain ⟨second, rest, rfl⟩ := List.exists_cons_of_length_pos (Nat.lt_of_succ_lt_succ hcount)
    exact positionwise_binary rfl fun _ _ => rfl
  | multiply =>
    obtain ⟨second, rest, rfl⟩ := List.exists_cons_of_length_pos (Nat.lt_of_succ_lt_succ hcount)
    exact positionwise_binary rfl fun _ _ => rfl
  | relu => exact positionwise_unary rfl fun _ => rfl
  | copy => exact absurd rfl hk

/-- There are no elements behind those of the first operand. -/
lemma elementsAt?_eq_none {i : Nat} (h : first.length / Elements.size ≤ i) :
    k.elementsAt? (first :: rest) i = none := by
  obtain ⟨n, hn⟩ := Nat.exists_eq_add_one.mpr k.arity_pos
  rw [elementsAt?, hn, List.take_succ_cons, List.mapM_cons, Elements.wordAt?_eq_none_iff.mpr h]
  rfl

lemma whole_replicate (first : Bytes) :
    Elements.whole (List.replicate first.length 0) = Elements.whole first := by
  rw [Elements.whole, List.length_replicate, Elements.whole]

lemma isSome_run?_iff (k : Kernel) (operands : List Bytes) :
    (k.run? operands).isSome ↔ k.Suffices operands := by
  by_cases hcount : k.arity ≤ operands.length
  · obtain ⟨first, rest, rfl⟩ :=
      List.exists_cons_of_length_pos (Nat.lt_of_lt_of_le k.arity_pos hcount)
    by_cases hk : k = .copy
    · subst hk
      refine iff_of_true rfl ⟨hcount, first, rfl, ?_⟩
      rw [arity, List.take_succ_cons, List.take_zero, List.forall_mem_singleton]
      exact Nat.mul_div_le first.length Elements.size
    · rw [(positionwise_run hk hcount).inRange, whole_replicate]
      exact ⟨fun h => ⟨hcount, first, rfl, h⟩, fun ⟨_, _, rfl, h⟩ => h⟩
  · rw [run?_of_few (Nat.not_le.mp hcount)]
    exact iff_of_false nofun fun h => hcount h.1

/-- Each element of a result is made of the elements of the operands at its position. -/
lemma elementwise_of_run? (h : k.run? operands = some result) : k.Elementwise operands result := by
  have hcount : k.arity ≤ operands.length := by
    by_contra hfew
    rw [run?_of_few (Nat.not_le.mp hfew)] at h
    cases h
  obtain ⟨first, rest, rfl⟩ :=
    List.exists_cons_of_length_pos (Nat.lt_of_lt_of_le k.arity_pos hcount)
  by_cases hk : k = .copy
  · subst hk
    obtain rfl : first = result := Option.some.inj h
    refine ⟨rfl, fun i => ?_, fun h => absurd rfl h⟩
    change _ = ([first].mapM (Elements.wordAt? · i)).bind copy.combine?
    cases h : Elements.wordAt? first i <;> simp [h, combine?]
  · have hfills := ((positionwise_run hk hcount).fills result).mp h
    have hlength : result.length = first.length := hfills.length.trans List.length_replicate
    refine ⟨congrArg some hlength.symm, fun i => ?_, fun _ => ?_⟩
    · by_cases hi : i < first.length / Elements.size
      · exact hfills.element i (by rwa [List.length_replicate])
      · have hend := Nat.not_lt.mp hi
        rw [elementsAt?_eq_none hend, Elements.wordAt?_eq_none_iff.mpr (hlength ▸ hend)]
        rfl
    · have hbehind := hfills.behind
      rw [whole_replicate, List.drop_replicate, Elements.whole, ← Nat.mod_eq_sub_mul_div] at hbehind
      rwa [Elements.whole, hlength]

/-- The loops with any operation on elements, and the kernels. A loop stays in range exactly if all
sources have the bytes of the elements of the destination. Then it puts the operation on the
elements of the sources at the position of each element, keeps the bytes behind the last one and
ignores those that the sources have beyond. So an element of the result of a kernel depends on the
elements of the operands at its position only, and behind the last element there are zeros. -/
theorem run_position_by_position :
    (∀ (op : UInt32 → UInt32) (source destination : Bytes),
      Elements.Positionwise (Elements.unaryAt? op source) [source] destination
        (Elements.mapInto op source destination) ∧
      Elements.mapInto op (source.take (Elements.whole destination)) destination =
        Elements.mapInto op source destination) ∧
    (∀ (op : UInt32 → UInt32 → UInt32) (left right destination : Bytes),
      Elements.Positionwise (Elements.binaryAt? op left right) [left, right] destination
        (Elements.zipInto op left right destination) ∧
      Elements.zipInto op (left.take (Elements.whole destination))
          (right.take (Elements.whole destination)) destination =
        Elements.zipInto op left right destination) ∧
    ∀ (k : Kernel) (operands : List Bytes),
      ((k.run? operands).isSome ↔ k.Suffices operands) ∧
      ∀ result, k.run? operands = some result → k.Elementwise operands result ∧
        ∀ operands' result' i, k.run? operands' = some result' →
          k.elementsAt? operands i = k.elementsAt? operands' i →
            Elements.wordAt? result i = Elements.wordAt? result' i := by
  refine ⟨fun op source destination => ?_, fun op left right destination => ?_,
    fun k operands => ⟨isSome_run?_iff k operands, fun result hrun => ?_⟩⟩
  · exact ⟨Elements.positionwise_map op source destination,
      Elements.mapInto_take op source destination⟩
  · exact ⟨Elements.positionwise_zip op left right destination,
      Elements.zipInto_take op left right destination⟩
  · have hresult := elementwise_of_run? hrun
    refine ⟨hresult, fun operands' result' i hrun' hsame => ?_⟩
    rw [hresult.element, (elementwise_of_run? hrun').element, hsame]

/-- Two runs of a kernel on operands that share the first element only, one with a partial element
behind it. -/
theorem run_position_by_position_partial :
    ∃ result result', relu.run? [[0, 0, 128, 63, 7, 7]] = some result ∧
      relu.run? [[0, 0, 128, 63, 0, 0, 128, 191]] = some result' ∧
      Elements.wordAt? result 0 = Elements.wordAt? result' 0 ∧ result.drop 4 = [0, 0] := by
  obtain ⟨-, -, hkernels⟩ := run_position_by_position
  have hrun : relu.run? [[0, 0, 128, 63, 7, 7]] = some [0, 0, 128, 63, 0, 0] := by decide
  have hrun' : relu.run? [[0, 0, 128, 63, 0, 0, 128, 191]] =
      some [0, 0, 128, 63, 0, 0, 0, 0] := by decide
  obtain ⟨hresult, hsame⟩ := (hkernels relu _).2 _ hrun
  exact ⟨_, _, hrun, hrun', hsame _ _ 0 hrun' (by decide), hresult.zeros nofun⟩

end Kernel

end TensorMachine
