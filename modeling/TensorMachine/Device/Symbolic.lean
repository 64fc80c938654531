import TensorMachine.Device.Provider
import TensorMachine.Kernel.Result

/-!
# The symbolic device

A device without storage: the handle of a tensor is its type, and memory never runs out. Its calls
fail only for sizes that cannot be addressed and for operands that do not fit a kernel.
-/

namespace TensorMachine

def Provider.symbolic : Provider Unit TensorType where
  name := "symbolic"
  allocate type _ s := (type.addressableSize.map fun _ => type, s)
  release _ _ s := (.ok (), s)
  transfer _ type s := (.ok (), type, s)
  compute kernel operands s := (kernel.resultType operands, s)

end TensorMachine
