/-!
# Vulkan codes

The numeric codes that a Vulkan driver answers with, and their names in texts.
-/

namespace TensorMachine

/-- Where a Vulkan code comes from: the result of a command, or the error of a failed one. -/
inductive VulkanSource where
  | result
  | errorCode
  deriving DecidableEq

/-- A code that a Vulkan driver answered with. -/
structure VulkanCode where
  source : VulkanSource
  value : Int
  deriving DecidableEq

namespace VulkanSource

def name : VulkanSource → String
  | result => "vk::Result"
  | errorCode => "vk::ErrorCode"

end VulkanSource

namespace VulkanCode

def coreName? : Int → Option String
  | 0 => some "SUCCESS"
  | 1 => some "NOT_READY"
  | 2 => some "TIMEOUT"
  | 3 => some "EVENT_SET"
  | 4 => some "EVENT_RESET"
  | 5 => some "INCOMPLETE"
  | -1 => some "ERROR_OUT_OF_HOST_MEMORY"
  | -2 => some "ERROR_OUT_OF_DEVICE_MEMORY"
  | -3 => some "ERROR_INITIALIZATION_FAILED"
  | -4 => some "ERROR_DEVICE_LOST"
  | -5 => some "ERROR_MEMORY_MAP_FAILED"
  | -6 => some "ERROR_LAYER_NOT_PRESENT"
  | -7 => some "ERROR_EXTENSION_NOT_PRESENT"
  | -8 => some "ERROR_FEATURE_NOT_PRESENT"
  | -9 => some "ERROR_INCOMPATIBLE_DRIVER"
  | -10 => some "ERROR_TOO_MANY_OBJECTS"
  | -11 => some "ERROR_FORMAT_NOT_SUPPORTED"
  | -12 => some "ERROR_FRAGMENTED_POOL"
  | -13 => some "ERROR_UNKNOWN"
  | _ => none

/-- The source and the name of the code; a code without a name is written in decimal. -/
def text (c : VulkanCode) : String :=
  c.source.name ++ ": " ++ (coreName? c.value).getD (toString c.value)

end VulkanCode

end TensorMachine
