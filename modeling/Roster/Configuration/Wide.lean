import Roster.Configuration

/-!
# Wide configurations

The escapes of a document reach every code point, so its descriptors are wide texts. A wide
configuration is made by the same two rules as any other. It is a configuration as soon as
all of its descriptors are strings.
-/

namespace Roster

open Roster.Text (CodePoint Wide)

/-- A list of wide descriptors in order. -/
structure WideConfiguration where
  descriptors : List Wide
  deriving DecidableEq, Repr

namespace WideConfiguration

/-- The wide configuration without descriptors. -/
def empty : WideConfiguration := { descriptors := [] }

/-- The number of descriptors. -/
def size (configuration : WideConfiguration) : Nat := configuration.descriptors.length

/-- Adds a descriptor behind all others. -/
def add (configuration : WideConfiguration) (descriptor : Wide) :
    Except InvalidDescriptor WideConfiguration :=
  if descriptor.codes.isEmpty then .error .empty
  else if descriptor.codes.any CodePoint.isBlank then .error (.containsBlank descriptor)
  else .ok { descriptors := configuration.descriptors ++ [descriptor] }

/-- Whether a descriptor holds a half. -/
def isHalved (configuration : WideConfiguration) : Bool :=
  configuration.descriptors.any Wide.isHalved

/-- The strings among the descriptors. -/
def strings (configuration : WideConfiguration) : List String :=
  configuration.descriptors.filterMap Wide.string?

end WideConfiguration

/-- A configuration as a wide one. -/
def Configuration.wide (configuration : Configuration) : WideConfiguration :=
  { descriptors := configuration.descriptors.map .plain }

end Roster
