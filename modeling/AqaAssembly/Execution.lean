import AqaAssembly.Machine.Run
import AqaAssembly.Program.Parse

/-!
# Executing programs and source texts

A source text is read with a grammar and, if nothing is wrong with it, executed on a machine of the
given configuration.  A text with errors is not executed at all.
-/

namespace AqaAssembly

/-- Executes a program on a new machine until it is done.  If the execution fails, the result is the
faults that the machine has recorded.  There is no result if the machine is not done after the given
number of statements. -/
def Program.execute? (patience : Nat) (config : Config) (p : Program) :
    Option (Except (List Fault) Machine) :=
  (Machine.run? patience (.load p config)).map fun o =>
    match o.fault? with
    | none => .ok o.machine
    | some _ => .error o.machine.fault?.toList

namespace Source

/-- Why the execution of a source text failed. -/
inductive Failure
  /-- The text has errors, so it was not executed. -/
  | static (errors : StaticErrors)
  /-- There were faults during execution. -/
  | runtime (faults : List Fault)
  deriving DecidableEq

namespace Failure

/-- The status with which a process that ran the text would end: 65 for bad data and 70 for a fault
within. -/
def exitCode : Failure → Nat
  | static _ => 65
  | runtime _ => 70

instance : Diagnostic Failure where
  message
    | static errors => Diagnostic.message errors
    | runtime faults => "\n".intercalate (Diagnostic.reports faults)
  line?
    | static errors => Diagnostic.line? errors
    | runtime faults => faults.head?.map fun f => f.token.line
  help?
    | static _ => some "the program was not executed"
    | runtime _ => none

end Failure

/-- Reads and executes a source text.  There is no result if the program is not done after the given
number of statements. -/
def run? (patience : Nat) (g : Grammar) (config : Config) (source : String) :
    Option (Except Failure Machine) :=
  match Program.ofSource g source with
  | .error errors => some (.error (.static errors))
  | .ok p => (p.execute? patience config).map (Except.mapError .runtime)

/-- What is noted down while a source text is read. -/
def readingRecords (g : Grammar) (source : String) : List LogRecord :=
  let tokens := tokens source
  let reading := Reading.ofTokens g tokens
  [.scanned tokens.length (lexicalErrors source).length,
   .parsed reading.program.length reading.errors.length]

/-- What is noted down while a source text is read and executed. -/
def runRecords? (patience : Nat) (g : Grammar) (config : Config) (source : String) :
    Option (List LogRecord) :=
  let reading := readingRecords g source
  match Program.ofSource g source with
  | .error _ => some reading
  | .ok p => (Machine.run? patience (.load p config)).map fun o =>
    reading ++ LabelTable.records p ++ o.records.toList

end Source

end AqaAssembly
