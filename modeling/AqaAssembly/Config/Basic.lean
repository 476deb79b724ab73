import AqaAssembly.Decimal
import AqaAssembly.Diagnostic

/-!
# Machine configurations

How large a machine is, and whether it records its execution.  A configuration that is checked has
at most 99 registers and 999 memory cells.
-/

namespace AqaAssembly

/-- The size of a machine. -/
structure Config where
  /-- The number of registers. -/
  registers : Nat := 12
  /-- The number of memory cells. -/
  memoryCapacity : Nat := 100
  /-- Is every executed statement recorded? -/
  tracing : Bool := false
  deriving DecidableEq, Repr

namespace Config

/-- The largest number of registers. -/
def maxRegisters : Nat := 99

/-- The largest number of memory cells. -/
def maxMemoryCapacity : Nat := 999

/-- Why there is no machine of some size. -/
inductive Problem
  /-- There are too many registers. -/
  | registers (count : Nat)
  /-- There are too many memory cells. -/
  | memoryCapacity (count : Nat)
  deriving DecidableEq, Repr

/-- The configuration of a machine of the given size, if there can be one. -/
def checked (registers memoryCapacity : Nat) (tracing : Bool) : Except Problem Config :=
  if maxRegisters < registers then .error (.registers registers)
  else if maxMemoryCapacity < memoryCapacity then .error (.memoryCapacity memoryCapacity)
  else .ok ⟨registers, memoryCapacity, tracing⟩

/-- What is wrong, in words. -/
def Problem.message : Problem → String
  | registers n => "invalid number of registers: " ++ Decimal.textNat n
  | memoryCapacity n => "invalid number of addressable memory units: " ++ Decimal.textNat n

/-- How to mend it. -/
def Problem.advice : Problem → String
  | registers _ =>
    "the number of registers must be between 0 and " ++ Decimal.textNat maxRegisters
  | memoryCapacity _ =>
    "the number of addressable memory units must be between 0 and " ++
      Decimal.textNat maxMemoryCapacity

instance : Diagnostic Problem where
  message := Problem.message
  line? _ := none
  help? e := some e.advice

end Config

end AqaAssembly
