import TensorMachine.Bytes.Reader

/-!
# Fields

The fields of a binary layout: integers of one, two and four bytes, and raw bytes. Each field has
its bytes, and each kind of field its reader.
-/

namespace TensorMachine

/-- A value with its place in a binary layout. -/
inductive Field where
  | u8 (value : UInt8)
  | u16 (value : UInt16)
  | u32 (value : UInt32)
  | raw (value : Bytes)
  deriving DecidableEq

/-- What has to be known to read a field back. -/
inductive FieldKind where
  | u8
  | u16
  | u32
  | raw (length : Nat)
  deriving DecidableEq

namespace Field

/-- The bytes of the field, integers with the lowest byte first. -/
def bytes : Field → Bytes
  | u8 value => LittleEndian.split 1 value.toNat
  | u16 value => LittleEndian.split 2 value.toNat
  | u32 value => LittleEndian.split 4 value.toNat
  | raw value => value

def kind : Field → FieldKind
  | u8 _ => .u8
  | u16 _ => .u16
  | u32 _ => .u32
  | raw value => .raw value.length

end Field

namespace FieldKind

def read : FieldKind → Reader Shortfall Field
  | u8 => Field.u8 <$> Reader.u8
  | u16 => Field.u16 <$> Reader.u16
  | u32 => Field.u32 <$> Reader.u32
  | raw length => Field.raw <$> Reader.take length

def width : FieldKind → Nat
  | u8 => 1
  | u16 => 2
  | u32 => 4
  | raw length => length

end FieldKind

end TensorMachine
