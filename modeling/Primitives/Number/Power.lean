/-!
# Powers of numbers

The powers of natural numbers and integers in this library are those of core. The declarations below
keep them so where other instances of powers are in reach, so that a definition means the same
everywhere.
-/

namespace Primitives

attribute [scoped instance (high)] instPowNat

attribute [default_instance (high + 1)] instPowNat

end Primitives
