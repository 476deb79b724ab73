import AqaAssembly.Decimal
import AqaAssembly.Diagnostic
import AqaAssembly.Text.Quoted
import AqaAssembly.Token

/-!
# Runtime faults

What can go wrong when a statement is executed.  Each fault names the operand at fault by its token.
-/

namespace AqaAssembly

namespace Fault

/-- Why a statement cannot be executed. -/
inductive Cause
  /-- The machine does not have the register. -/
  | registerOutOfRange
  /-- The machine does not have the memory cell. -/
  | addressOutOfRange
  /-- The label is declared nowhere. -/
  | undeclaredLabel
  /-- The amount of a shift is negative. -/
  | negativeShift
  deriving DecidableEq, Repr

/-- The cause in words. -/
def Cause.description : Cause → String
  | registerOutOfRange => "Register index out of range."
  | addressOutOfRange => "Address index out of range"
  | undeclaredLabel => "Invalid label identifier"
  | negativeShift => "Shift amount cannot be negative"

end Fault

/-- The reason why a statement was not executed. -/
structure Fault where
  /-- What is wrong. -/
  cause : Fault.Cause
  /-- The operand at fault. -/
  token : Token
  deriving DecidableEq

namespace Fault

/-- The fault in one line. -/
def message (f : Fault) : String :=
  "[line " ++ Decimal.textNat f.token.line ++ "] " ++ f.cause.description ++ " at " ++
    Text.quote f.token.lexeme

/-- What to do about it. -/
def advice? (f : Fault) : Option String :=
  match f.cause with
  | .registerOutOfRange =>
    some "registers are numbered from r1 up to the configured number of registers"
  | .addressOutOfRange =>
    some ("addresses are numbered from 0 up to (but not including) the configured memory " ++
      "capacity")
  | .undeclaredLabel => some ("declare the label with `" ++ f.token.lexeme ++ ":`")
  | .negativeShift => none

instance : Diagnostic Fault where
  message := message
  line? f := some f.token.line
  help? := advice?

end Fault

end AqaAssembly
