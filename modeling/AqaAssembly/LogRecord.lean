import AqaAssembly.Machine.Fault
import AqaAssembly.Machine.Trace
import AqaAssembly.Statement

/-!
# The log

What is noted down while a program is read and executed.  A record is data; its level and its wording
are functions of it.
-/

namespace AqaAssembly

/-- An event worth noting. -/
inductive LogRecord
  /-- A source text was cut into so many tokens, with so many errors. -/
  | scanned (tokens errors : Nat)
  /-- So many statements were read, with so many errors. -/
  | parsed (statements errors : Nat)
  /-- A label was declared again. -/
  | redeclared (name : String) (line : Nat)
  /-- The program has so many labels. -/
  | resolved (labels : Nat)
  /-- The statement at this place of the program is about to be executed. -/
  | executing (pc : Nat) (statement : Statement)
  /-- A statement was executed, and this is the state after it. -/
  | completed (snapshot : Snapshot)
  /-- Nothing is left to execute after so many statements. -/
  | stopped (count : UInt64) (halted : Bool)
  /-- Execution was interrupted after so many statements. -/
  | paused (count : UInt64)
  /-- Execution ended with a fault. -/
  | faulted (fault : Fault)
  deriving DecidableEq

namespace LogRecord

/-- How important a record is. -/
inductive Level
  | warning | debug | trace
  deriving DecidableEq, Repr

/-- The importance of the record. -/
def level : LogRecord → Level
  | redeclared .. => .warning
  | executing .. | completed .. => .trace
  | scanned .. | parsed .. | resolved .. | stopped .. | paused .. | faulted .. => .debug

/-- The record in words. -/
def message : LogRecord → String
  | scanned tokens errors =>
    "scanned " ++ Decimal.textNat tokens ++ " tokens with " ++ Decimal.textNat errors ++
      " lexical errors"
  | parsed statements errors =>
    "parsed " ++ Decimal.textNat statements ++ " statements with " ++ Decimal.textNat errors ++
      " syntax errors"
  | redeclared name line =>
    "label " ++ name ++ " declared again on line " ++ Decimal.textNat line ++
      ", replacing earlier declaration"
  | resolved labels => "resolved " ++ Decimal.textNat labels ++ " labels"
  | executing pc statement => "executing " ++ Decimal.textNat pc ++ ": " ++ statement.text
  | completed snapshot => snapshot.text
  | stopped count halted =>
    "execution stopped after " ++ Decimal.textNat count.toNat ++ " statements (halted: " ++
      (if halted then "true" else "false") ++ ")"
  | paused count => "execution paused after " ++ Decimal.textNat count.toNat ++ " statements"
  | faulted fault => "execution stopped with runtime error: " ++ fault.message

end LogRecord

end AqaAssembly
