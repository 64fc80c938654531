import TensorMachine.Device.Host
import TensorMachine.Program.Layout

/-!
# The demonstration

A small program that is run when no file is named: the positive part of the elementwise product of
two tensors with random contents.
-/

namespace TensorMachine.CommandLine.Demo

def type : TensorType := ⟨.f32, [2, 4]⟩

/-- The program: one input moves in place, the other under a new identifier; their product is
rectified and moved back, and what is left over is released. -/
def program : Program where
  inputs := [⟨1, type⟩, ⟨2, type⟩]
  outputs := [6]
  instructions :=
    [.allocate 7 type .device,
      .transfer .device 1 .inPlace,
      .transfer .device 2 (.renamed 3),
      .compute .multiply [1, 3] 4,
      .compute .relu [4] 5,
      .transfer .host 5 (.renamed 6),
      .deallocate 4 false,
      .deallocate 7 false]

def elements : Nat := 8

/-- The bits of the binary32 number that is the given one of the `2 ^ 23` evenly spaced numbers
from minus one up to one. -/
def element (choice : Nat) : UInt32 :=
  ((Float32.ofNat (choice % (1 <<< 23))) / Float32.ofNat (1 <<< 22) - 1).toBits

def contents (choices : List Nat) : Bytes :=
  choices.flatMap fun choice => Elements.bytes (element choice)

def makeInputs (left right : Bytes) (d : HostDevice) :
    Except DeviceError (List (TensorId × HostTensor)) × HostDevice :=
  match d.hostTensor type left with
  | (.error e, d) => (.error e, d)
  | (.ok x, d) =>
    match d.hostTensor type right with
    | (.error e, d) => (.error e, d)
    | (.ok w, d) => (.ok [(1, x), (2, w)], d)

end TensorMachine.CommandLine.Demo
