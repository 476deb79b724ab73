import AqaAssembly.Config.Basic
import AqaAssembly.Json.Value

/-!
# Written configurations

A configuration is written as an object with the members `registers`, `memory capacity` and, if
execution is to be recorded, `trace`; or as the array of these two or three fields.  The numbers are
whole numbers of 64 bits, and only when the whole text has been read are they checked.
-/

namespace AqaAssembly

namespace Config

open Json Json.Reader

/-- The fields of a configuration as they are written: the number of registers, the number of memory
cells, and whether execution is recorded. -/
abbrev Fields := Nat × Nat × Bool

/-- The fields written as an array. -/
def readArray : Reader Fields := do
  let some registers ← element? true word | fail .mismatched
  let some memoryCapacity ← element? false word | fail .mismatched
  let tracing? ← element? false bool
  return (registers, memoryCapacity, tracing?.getD false)

/-- The fields written as an object. -/
def readObject : Reader Fields := do
  let (registers?, memoryCapacity?, tracing?) ←
    members (fun (registers?, memoryCapacity?, tracing?) name => do
      match name with
      | "registers" => return (← once registers? word, memoryCapacity?, tracing?)
      | "memory capacity" => return (registers?, ← once memoryCapacity? word, tracing?)
      | "trace" => return (registers?, memoryCapacity?, ← once tracing? bool)
      | _ => do ignored; return (registers?, memoryCapacity?, tracing?)) (none, none, none)
  match registers?, memoryCapacity? with
  | some registers, some memoryCapacity =>
    return (registers, memoryCapacity, tracing?.getD false)
  | _, _ => fail .mismatched

/-- The fields of a configuration. -/
def readFields : Reader Fields := record readArray readObject

/-- Why a written configuration cannot be used. -/
inductive WrittenError
  /-- The text cannot be read. -/
  | unreadable (failure : Failure)
  /-- There is no machine of that size. -/
  | unusable (problem : Problem)
  deriving DecidableEq, Repr

/-- The configuration that a text describes. -/
def read (text : String) : Except WrittenError Config :=
  match readFields.run text with
  | .error failure => .error (.unreadable failure)
  | .ok (registers, memoryCapacity, tracing) =>
    (checked registers memoryCapacity tracing).mapError .unusable

instance : Diagnostic WrittenError where
  message
    | .unreadable _ => "could not read config: " ++ Failure.mention
    | .unusable problem => problem.message
  line?
    | .unreadable failure => some failure.line
    | .unusable problem => Diagnostic.line? problem
  help?
    | .unreadable _ => some "a config looks like \x7b\"registers\": 12, \"memory capacity\": 100\x7d"
    | .unusable problem => some problem.advice

end Config

end AqaAssembly
