import TensorMachine.Bytes.LittleEndian

/-!
# Elementwise loops

Loops over the elements of byte strings. An element is four bytes, read as a little-endian word; the
operation on words is a parameter. A loop overwrites the whole elements of a destination, position
by position, and leaves the bytes after the last one as they are.
-/

namespace TensorMachine

namespace Elements

/-- The bytes per element of the elementwise loops. -/
def size : Nat := 4

def bytes (element : UInt32) : Bytes := LittleEndian.split size element.toNat

/-- The whole elements of a byte string behind the elements `seen`, last one first. -/
def wordsAfter (seen : List UInt32) : Bytes → List UInt32
  | a :: b :: c :: d :: rest =>
    wordsAfter (UInt32.ofNat (LittleEndian.combine [a, b, c, d]) :: seen) rest
  | _ => seen.reverse

/-- The whole elements of a byte string; up to three bytes at its end belong to none. -/
def words (source : Bytes) : List UInt32 := wordsAfter [] source

/-- Overwrites the whole elements of the destination with the elements given, as many as it has. -/
def overwrite (elements : List UInt32) (destination : Bytes) : Bytes :=
  let count := destination.length / size
  (elements.take count).flatMap bytes ++ destination.drop (size * count)

/-- Overwrites the elements of the destination with an operation on those of a source. There is no
answer when the source has fewer whole elements than the destination. -/
def mapInto (op : UInt32 → UInt32) (source destination : Bytes) : Option Bytes :=
  if (words source).length < destination.length / size then none
  else some (overwrite ((words source).map op) destination)

/-- Overwrites the elements of the destination with an operation on those of two sources. There is
no answer when a source has fewer whole elements than the destination. -/
def zipInto (op : UInt32 → UInt32 → UInt32) (left right destination : Bytes) : Option Bytes :=
  if (words left).length < destination.length / size ∨
      (words right).length < destination.length / size then none
  else some (overwrite (List.zipWith op (words left) (words right)) destination)

theorem wordsAfter_eq (seen : List UInt32) :
    ∀ source, wordsAfter seen source = seen.reverse ++ words source
  | [] | [_] | [_, _] | [_, _, _] => by simp [words, wordsAfter]
  | a :: b :: c :: d :: rest => by
    rw [words, wordsAfter, wordsAfter, wordsAfter_eq _ rest, wordsAfter_eq [_] rest]
    simp

/-- Four bytes in front of a byte string are its first element. -/
theorem words_cons (a b c d : UInt8) (rest : Bytes) :
    words (a :: b :: c :: d :: rest) =
      UInt32.ofNat (LittleEndian.combine [a, b, c, d]) :: words rest := by
  rw [words, wordsAfter, wordsAfter_eq]
  rfl

theorem length_words : ∀ source : Bytes, (words source).length = source.length / size
  | [] | [_] | [_, _] | [_, _, _] => by simp [words, wordsAfter, size]
  | a :: b :: c :: d :: rest => by
    rw [words_cons, List.length_cons, length_words rest]
    simp only [List.length_cons, size]
    omega

theorem length_bytes (element : UInt32) : (bytes element).length = size :=
  LittleEndian.length_split size element.toNat

/-- The destination keeps its length when there are elements for all of it. -/
theorem length_overwrite {elements : List UInt32} {destination : Bytes}
    (h : destination.length / size ≤ elements.length) :
    (overwrite elements destination).length = destination.length := by
  have hwhole : ((elements.take (destination.length / size)).flatMap bytes).length =
      destination.length / size * size := by
    rw [List.length_flatMap, List.map_congr_left fun e _ => length_bytes e, List.map_const',
      List.sum_replicate_nat, List.length_take, Nat.min_eq_left h]
  rw [overwrite, List.length_append, List.length_drop, hwhole]
  simp only [size]
  omega

theorem mapInto_of_length_le (op : UInt32 → UInt32) {source destination : Bytes}
    (h : destination.length ≤ source.length) :
    ∃ result, mapInto op source destination = some result ∧
      result.length = destination.length := by
  have hcount : destination.length / size ≤ (words source).length := by
    rw [length_words]
    exact Nat.div_le_div_right h
  refine ⟨_, if_neg (Nat.not_lt.mpr hcount), length_overwrite ?_⟩
  rwa [List.length_map]

theorem zipInto_of_length_le (op : UInt32 → UInt32 → UInt32) {left right destination : Bytes}
    (hleft : destination.length ≤ left.length) (hright : destination.length ≤ right.length) :
    ∃ result, zipInto op left right destination = some result ∧
      result.length = destination.length := by
  have hcountLeft : destination.length / size ≤ (words left).length := by
    rw [length_words]
    exact Nat.div_le_div_right hleft
  have hcountRight : destination.length / size ≤ (words right).length := by
    rw [length_words]
    exact Nat.div_le_div_right hright
  refine ⟨_, if_neg (by omega), length_overwrite ?_⟩
  rw [List.length_zipWith]
  exact Nat.le_min.mpr ⟨hcountLeft, hcountRight⟩

end Elements

end TensorMachine
