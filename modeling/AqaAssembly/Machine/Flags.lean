import AqaAssembly.Instruction

/-!
# Comparison flags

The outcome of the last comparison.  The four flags are false until something has been compared.
After a comparison exactly one of `equal`, `greaterThan` and `lessThan` is set, and `notEqual` is
the opposite of `equal`.
-/

namespace AqaAssembly

/-- What the last comparison found. -/
structure Flags where
  equal : Bool := false
  notEqual : Bool := false
  greaterThan : Bool := false
  lessThan : Bool := false
  deriving DecidableEq, Repr

namespace Flags

/-- The outcome of a comparison of signed values. -/
def compare (left right : Int64) : Flags where
  equal := left = right
  notEqual := left ≠ right
  greaterThan := right < left
  lessThan := left < right

/-- A flag as a digit. -/
def digit (flag : Bool) : String := if flag then "1" else "0"

/-- The flags as they are shown. -/
def text (f : Flags) : String :=
  "EQ=" ++ digit f.equal ++ " NE=" ++ digit f.notEqual ++ " GT=" ++ digit f.greaterThan ++
    " LT=" ++ digit f.lessThan

end Flags

/-- Is a branch with this condition taken? -/
def Condition.holds (f : Flags) : Condition → Bool
  | always => true
  | equal => f.equal
  | notEqual => f.notEqual
  | greaterThan => f.greaterThan
  | lessThan => f.lessThan

end AqaAssembly
