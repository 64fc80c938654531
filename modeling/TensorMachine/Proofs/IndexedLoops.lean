import TensorMachine.Kernel.Run
import TensorMachine.Proofs.Basics

/-!
# Loops over indices

The loops of the kernels as they run on buffers: each step reads elements at its index, byte by
byte, and overwrites the element of the destination at this index. A byte that is read or written
out of range ends the loop without an answer. These loops give what the kernels are defined to
give, on all operands, so that an answer of a kernel tells that nothing was out of range.
-/

namespace TensorMachine

namespace Elements

/-- The element at an index, unless one of its bytes is out of range. -/
def wordAt? (source : Bytes) (i : Nat) : Option UInt32 := do
  let a ← source[size * i]?
  let b ← source[size * i + 1]?
  let c ← source[size * i + 2]?
  let d ← source[size * i + 3]?
  some (UInt32.ofNat (LittleEndian.combine [a, b, c, d]))

/-- Overwrites the element at an index, unless one of its bytes is out of range. -/
def putAt? (destination : Bytes) (i : Nat) (element : UInt32) : Option Bytes :=
  if size * i + size ≤ destination.length then
    some (destination.take (size * i) ++ bytes element ++ destination.drop (size * i + size))
  else none

/-- Overwrites the elements at the first indices, one after the other, with those that a function
gives. -/
def putUpTo? (element? : Nat → Option UInt32) (destination : Bytes) (n : Nat) : Option Bytes :=
  (List.range n).foldlM (fun written i => (element? i).bind (putAt? written i)) destination

/-- Overwrites all whole elements of the destination. -/
def putAll? (element? : Nat → Option UInt32) (destination : Bytes) : Option Bytes :=
  putUpTo? element? destination (destination.length / size)

lemma wordAt?_eq_none {source : Bytes} {i : Nat} (h : source.length ≤ size * i + 3) :
    wordAt? source i = none := by
  have hlast : source[size * i + 3]? = none := List.getElem?_eq_none h
  simp [wordAt?, hlast]

lemma wordAt?_eq (source : Bytes) (i : Nat) : wordAt? source i = (words source)[i]? := by
  match source, i with
  | [], i | [_], i | [_, _], i | [_, _, _], i =>
    rw [wordAt?_eq_none (by simp only [List.length_cons, List.length_nil]; omega)]
    rfl
  | a :: b :: c :: d :: rest, 0 =>
    rw [words_cons]
    rfl
  | a :: b :: c :: d :: rest, i + 1 =>
    rw [words_cons, List.getElem?_cons_succ, ← wordAt?_eq rest i]
    rfl

lemma putUpTo?_succ (element? : Nat → Option UInt32) (destination : Bytes) (n : Nat) :
    putUpTo? element? destination (n + 1) =
      (putUpTo? element? destination n).bind fun written =>
        (element? n).bind (putAt? written n) := by
  rw [putUpTo?, List.range_succ, List.foldlM_append]
  simp [putUpTo?]

/-- The next element is put behind those that are written already. -/
lemma putAt?_behind {written : Bytes} {i : Nat} (hwritten : written.length = size * i)
    {rest : Bytes} (hrest : size ≤ rest.length) (element : UInt32) :
    putAt? (written ++ rest) i element =
      some (written ++ bytes element ++ rest.drop size) := by
  have hrange : size * i + size ≤ (written ++ rest).length := by
    rw [List.length_append]
    omega
  rw [putAt?, if_pos hrange, ← hwritten, List.take_left, List.drop_append]
  simp

lemma length_flatMap_bytes (elements : List UInt32) :
    (elements.flatMap bytes).length = size * elements.length := by
  rw [List.length_flatMap, List.map_congr_left fun e _ => length_bytes e, List.map_const',
    List.sum_replicate_nat, Nat.mul_comm]

/-- After some steps the first elements are written and the bytes behind them are as they were. -/
lemma putUpTo?_eq (elements : List UInt32) (destination : Bytes) {n : Nat}
    (hn : size * n ≤ destination.length) :
    putUpTo? (elements[·]?) destination n =
      if n ≤ elements.length then
        some ((elements.take n).flatMap bytes ++ destination.drop (size * n))
      else none := by
  induction n with
  | zero => simp [putUpTo?]
  | succ n ih =>
    rw [Nat.mul_succ] at hn ⊢
    rw [putUpTo?_succ, ih (by omega)]
    by_cases hlt : n < elements.length
    · have hwritten : ((elements.take n).flatMap bytes).length = size * n := by
        rw [length_flatMap_bytes, List.length_take, Nat.min_eq_left (Nat.le_of_lt hlt)]
      have hrest : size ≤ (destination.drop (size * n)).length := by
        rw [List.length_drop]
        omega
      have htake : elements.take (n + 1) = elements.take n ++ [elements[n]] :=
        (List.take_append_getElem hlt).symm
      rw [if_pos (Nat.le_of_lt hlt), if_pos (Nat.succ_le_of_lt hlt), Option.bind_some,
        List.getElem?_eq_getElem hlt, Option.bind_some, putAt?_behind hwritten hrest, htake,
        List.flatMap_append, List.drop_drop, List.flatMap_singleton]
    · have hnone : elements[n]? = none := List.getElem?_eq_none (Nat.not_lt.mp hlt)
      rw [if_neg (mt Nat.lt_of_succ_le hlt), hnone]
      exact Option.bind_fun_none _

lemma putAll?_eq (elements : List UInt32) (destination : Bytes) :
    putAll? (elements[·]?) destination =
      if destination.length / size ≤ elements.length then some (overwrite elements destination)
      else none := by
  rw [putAll?, putUpTo?_eq elements destination (Nat.mul_div_le destination.length size)]
  rfl

/-- An operation on the elements of a source at an index. -/
def unaryAt? (op : UInt32 → UInt32) (source : Bytes) (i : Nat) : Option UInt32 :=
  (wordAt? source i).map op

/-- An operation on the elements of two sources at an index. -/
def binaryAt? (op : UInt32 → UInt32 → UInt32) (left right : Bytes) (i : Nat) : Option UInt32 :=
  (wordAt? left i).bind fun a => (wordAt? right i).map (op a)

lemma unaryAt?_eq (op : UInt32 → UInt32) (source : Bytes) :
    unaryAt? op source = (((words source).map op)[·]?) := by
  funext i
  rw [unaryAt?, wordAt?_eq, List.getElem?_map]

lemma binaryAt?_eq (op : UInt32 → UInt32 → UInt32) (left right : Bytes) :
    binaryAt? op left right = ((List.zipWith op (words left) (words right))[·]?) := by
  funext i
  rw [binaryAt?, wordAt?_eq, wordAt?_eq, List.getElem?_zipWith]
  cases (words left)[i]? <;> cases (words right)[i]? <;> rfl

lemma putAll?_unaryAt? (op : UInt32 → UInt32) (source destination : Bytes) :
    putAll? (unaryAt? op source) destination = mapInto op source destination := by
  rw [unaryAt?_eq, putAll?_eq, List.length_map, mapInto]
  split <;> split <;> grind

lemma putAll?_binaryAt? (op : UInt32 → UInt32 → UInt32) (left right destination : Bytes) :
    putAll? (binaryAt? op left right) destination = zipInto op left right destination := by
  rw [binaryAt?_eq, putAll?_eq, List.length_zipWith, zipInto]
  split <;> split <;> grind

/-!
### Destinations
-/

variable {destination destination' : Bytes}

/-- Nothing is left of a destination of whole elements. -/
lemma overwrite_congr (elements : List UInt32) (hwhole : size ∣ destination.length)
    (hlength : destination'.length = destination.length) :
    overwrite elements destination' = overwrite elements destination := by
  have hall : size * (destination.length / size) = destination.length := Nat.mul_div_cancel' hwhole
  have hdrop : destination'.drop destination.length = [] :=
    List.drop_eq_nil_of_le (Nat.le_of_eq hlength)
  simp only [overwrite, hlength, hall, hdrop, List.drop_length]

lemma mapInto_congr (op : UInt32 → UInt32) (source : Bytes) (hwhole : size ∣ destination.length)
    (hlength : destination'.length = destination.length) :
    mapInto op source destination' = mapInto op source destination := by
  rw [mapInto, mapInto, hlength, overwrite_congr _ hwhole hlength]

lemma zipInto_congr (op : UInt32 → UInt32 → UInt32) (left right : Bytes)
    (hwhole : size ∣ destination.length) (hlength : destination'.length = destination.length) :
    zipInto op left right destination' = zipInto op left right destination := by
  rw [zipInto, zipInto, hlength, overwrite_congr _ hwhole hlength]

end Elements

/-!
### Kernels on buffers
-/

namespace Kernel

variable {k : Kernel} {operands : List Bytes} {size : Nat} {destination destination' : Bytes}

/-- Runs the kernel into a destination, one index after the other. There is no answer when an
operand is missing, when a byte is out of range, or when the lengths in a copy differ. -/
def runInto? (k : Kernel) (operands : List Bytes) (destination : Bytes) : Option Bytes := do
  let first ← operands[0]?
  match k with
  | add =>
    let second ← operands[1]?
    Elements.putAll? (Elements.binaryAt? Binary32.add first second) destination
  | multiply =>
    let second ← operands[1]?
    Elements.putAll? (Elements.binaryAt? Binary32.multiply first second) destination
  | relu => Elements.putAll? (Elements.unaryAt? Binary32.rectify first) destination
  | copy => if destination.length = first.length then some first else none

/-- The kernel has an answer exactly if it runs into zeros of the length of the first operand, and
then both give the same. -/
lemma run?_eq (k : Kernel) (operands : List Bytes) :
    k.run? operands =
      operands[0]?.bind fun first => k.runInto? operands (List.replicate first.length 0) := by
  match k, operands with
  | add, [] | multiply, [] | relu, [] | copy, [] => rfl
  | add, [_] | multiply, [_] => rfl
  | add, a :: b :: _ => exact (Elements.putAll?_binaryAt? Binary32.add a b _).symm
  | multiply, a :: b :: _ => exact (Elements.putAll?_binaryAt? Binary32.multiply a b _).symm
  | relu, a :: _ => exact (Elements.putAll?_unaryAt? Binary32.rectify a _).symm
  | copy, a :: _ => exact (if_pos List.length_replicate).symm

/-- What stood in a destination of whole elements does not matter, nor in the one of a copy. -/
lemma runInto?_congr (hwhole : k ≠ .copy → Elements.size ∣ destination.length)
    (hlength : destination'.length = destination.length) :
    k.runInto? operands destination' = k.runInto? operands destination := by
  cases k with
  | add =>
    simp only [runInto?, Elements.putAll?_binaryAt?,
      Elements.zipInto_congr _ _ _ (hwhole nofun) hlength]
  | multiply =>
    simp only [runInto?, Elements.putAll?_binaryAt?,
      Elements.zipInto_congr _ _ _ (hwhole nofun) hlength]
  | relu =>
    simp only [runInto?, Elements.putAll?_unaryAt?,
      Elements.mapInto_congr _ _ (hwhole nofun) hlength]
  | copy => simp only [runInto?, hlength]

/-- The kernel runs through on operands of one length. All kernels but the copy find whole elements
there, and each byte of the result is written: whatever stood in the destination before, the result
is the same. -/
structure Completes (k : Kernel) (operands : List Bytes) (size : Nat) (result : Bytes) : Prop where
  count : operands.length = k.arity
  lengths : ∀ operand ∈ operands, operand.length = size
  whole : k ≠ .copy → Elements.size ∣ size
  run : k.run? operands = some result
  length : result.length = size
  written : ∀ destination : Bytes, destination.length = size →
    k.runInto? operands destination = some result

lemma completes (hcount : operands.length = k.arity)
    (hlengths : ∀ operand ∈ operands, operand.length = size)
    (hwhole : k ≠ .copy → Elements.size ∣ size) : ∃ result, k.Completes operands size result := by
  obtain ⟨result, hrun, hresult⟩ := run?_of_length hcount hlengths
  refine ⟨result, hcount, hlengths, hwhole, hrun, hresult, fun destination hlength => ?_⟩
  have hpos : 0 < operands.length := hcount ▸ k.arity_pos
  have hfirst : operands[0].length = size := hlengths _ (List.getElem_mem hpos)
  rw [run?_eq, List.getElem?_eq_getElem hpos, Option.bind_some, hfirst] at hrun
  rw [← hrun]
  refine runInto?_congr (fun hk => ?_) ?_
  · rw [List.length_replicate]
    exact hwhole hk
  · rw [hlength, List.length_replicate]

end Kernel

end TensorMachine
