import AqaAssembly.Config.Basic
import AqaAssembly.Machine.Bank
import AqaAssembly.Program.LabelTable

/-!
# Machines

A machine is a program with the state of its execution: the registers, the memory, the flags and the
place of the next statement.  It is done when it was told to halt, when a statement could not be
executed, or when no statement is left.

The labels are resolved once, when the program is loaded; a machine carries the proof that its table
is the table of its program.
-/

namespace AqaAssembly

/-- A program in execution. -/
structure Machine where
  program : Program
  /-- Where the labels of the program are declared. -/
  labels : LabelTable
  config : Config
  registers : Registers
  memory : Memory
  flags : Flags
  /-- The place in the program of the statement to execute next. -/
  pc : Nat
  /-- The number of statements that were executed. -/
  executed : UInt64
  trace : Trace
  /-- Was the machine told to halt? -/
  halted : Bool
  /-- The fault that ended the execution. -/
  fault? : Option Fault
  labels_eq : labels = .ofProgram program

namespace Machine

/-- The machine that is about to execute a program from its beginning. -/
def load (program : Program) (config : Config) : Machine where
  program := program
  labels := .ofProgram program
  config := config
  registers := .zeros config.registers
  memory := .zeros config.memoryCapacity
  flags := {}
  pc := 0
  executed := 0
  trace := .empty Trace.defaultCapacity
  halted := false
  fault? := none
  labels_eq := rfl

/-- The machine as it was loaded.  Only the capacity of the trace is kept. -/
def reset (m : Machine) : Machine :=
  { load m.program m.config with trace := .empty m.trace.capacity }

/-- The statement to execute next, if there is one. -/
def current? (m : Machine) : Option Statement :=
  if m.halted || m.fault?.isSome then none else m.program[m.pc]?

/-- Is there nothing left to execute? -/
def isDone (m : Machine) : Bool := m.current?.isNone

/-- Execution ends by halting, by a fault, or at the end of the program. -/
theorem isDone_iff (m : Machine) :
    m.isDone ↔ m.halted ∨ m.fault?.isSome ∨ m.program.length ≤ m.pc := by
  unfold isDone current?
  split
  · rename_i h
    rw [Bool.or_eq_true] at h
    simp [← or_assoc, h]
  · rename_i h
    simp only [Bool.or_eq_true, not_or, Bool.not_eq_true] at h
    simp [h]

/-- The statement to execute next is the one at the place reached, unless execution has ended. -/
theorem current?_eq_some_iff {m : Machine} {s : Statement} :
    m.current? = some s ↔ m.halted = false ∧ m.fault? = none ∧ m.program[m.pc]? = some s := by
  unfold current?
  split
  · rename_i h
    rw [Bool.or_eq_true] at h
    rcases h with h | h
    · simp [h]
    · simp [Option.isSome_iff_ne_none.1 h]
  · rename_i h
    simp only [Bool.or_eq_true, not_or, Bool.not_eq_true, Option.isSome_eq_false_iff,
      Option.isNone_iff_eq_none] at h
    simp [h]

/-- A machine that is not done has a statement to execute. -/
theorem exists_current?_of_not_isDone {m : Machine} (h : ¬ m.isDone) :
    ∃ s, m.current? = some s := by
  rw [isDone, Option.isNone_iff_eq_none] at h
  exact Option.ne_none_iff_exists'.1 h

end Machine

end AqaAssembly
