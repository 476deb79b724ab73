/-!
# Diagnostics

Everything that can go wrong, from the first character of a source text to the last statement
executed, is told in one way: a message, the line it concerns where one is known, and advice on how
to mend it where there is some.
-/

namespace AqaAssembly

/-- A problem that can be told to the author of a program. -/
class Diagnostic (ε : Type) where
  /-- What is wrong, and where. -/
  message : ε → String
  /-- The line of the source concerned, counted from 1. -/
  line? : ε → Option Nat
  /-- How to mend it. -/
  help? : ε → Option String

namespace Diagnostic

variable {ε : Type} [Diagnostic ε]

/-- The message, followed by the advice where there is some. -/
def report (e : ε) : String :=
  match help? e with
  | some advice => message e ++ " (help: " ++ advice ++ ")"
  | none => message e

/-- The reports of several problems. -/
def reports (es : List ε) : List String := es.map report

end Diagnostic

end AqaAssembly
