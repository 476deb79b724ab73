import AqaAssembly.Machine.Flags

/-!
# Traces

A machine that traces its execution takes a snapshot after every statement and keeps the most recent
ones.  A trace holds no more snapshots than its capacity; what does not fit is dropped from the old
end and counted.
-/

namespace AqaAssembly

/-- The state of a machine right after a statement was executed. -/
structure Snapshot where
  /-- The place of the statement in the program. -/
  pc : Nat
  /-- The place of the statement to execute next. -/
  next : Nat
  /-- The statement as it is written in a program. -/
  statement : String
  /-- The name of the label, if the statement declares one. -/
  label? : Option String
  /-- The values of the registers. -/
  registers : List Int64
  flags : Flags
  /-- The values of the memory cells. -/
  memory : List Int64
  deriving DecidableEq

namespace Snapshot

/-- The values of cells, each behind its name. -/
def cellsText (name : Nat → String) (cells : List Int64) : String :=
  String.join (cells.mapIdx fun i v => " " ++ name i ++ "=" ++ Decimal.text v.toInt)

/-- The lines in which a snapshot is shown. -/
def lines (s : Snapshot) : List String :=
  (s.label?.map fun l => "Entering " ++ l ++ " Label").toList ++
    ["Current Instruction Register: " ++ s.statement,
     "Program Counter: " ++ Decimal.textNat s.next,
     "Registers:" ++ cellsText (fun i => "r" ++ Decimal.textNat (i + 1)) s.registers,
     "Comparison Flags: " ++ s.flags.text,
     "Memory:" ++ cellsText (fun i => "[" ++ Decimal.textNat i ++ "]") s.memory]

/-- The snapshot as it is shown. -/
def text (s : Snapshot) : String := "\n".intercalate s.lines

end Snapshot

/-- The most recent snapshots of an execution, the oldest first. -/
structure Trace where
  /-- The largest number of snapshots that are kept. -/
  capacity : Nat
  snapshots : List Snapshot
  /-- The number of snapshots that were dropped. -/
  dropped : UInt64
  length_le : snapshots.length ≤ capacity
  deriving DecidableEq

namespace Trace

/-- The capacity of a trace unless another is asked for. -/
def defaultCapacity : Nat := 256

/-- The trace without snapshots. -/
def empty (capacity : Nat) : Trace := ⟨capacity, [], 0, Nat.zero_le _⟩

/-- Records a snapshot.  What is more than the trace can hold is dropped, the oldest first. -/
def push (t : Trace) (s : Snapshot) : Trace where
  capacity := t.capacity
  snapshots := (t.snapshots ++ [s]).drop (t.snapshots.length + 1 - t.capacity)
  dropped := t.dropped + .ofNat (t.snapshots.length + 1 - t.capacity)
  length_le := by
    rw [List.length_drop, List.length_append, List.length_singleton]
    omega

/-- Forgets all snapshots, also those that were dropped. -/
def clear (t : Trace) : Trace := empty t.capacity

/-- The most recent snapshot. -/
def last? (t : Trace) : Option Snapshot := t.snapshots.getLast?

@[simp] theorem capacity_push (t : Trace) (s : Snapshot) : (t.push s).capacity = t.capacity := rfl

end Trace

end AqaAssembly
