import AqaAssembly.Machine.Basic

/-!
# Executing one statement

What each instruction does to a machine.  The machine is changed in place, and a statement with a bad
operand is left where it is met, with a fault.  Operands are looked up in a fixed order before
anything is written; that such a statement therefore changes nothing is proved from the code of each
instruction (`Machine.guards_performStatement`).

Values are signed and have 64 bits; what goes beyond is lost.  A shift to the left by 64 bits or more
leaves nothing, and a shift to the right leaves only the sign.
-/

namespace AqaAssembly

open Operand

/-! ## Computing -/

/-- The value that an operation gives. -/
def Operation.apply (left right : Int64) : Operation → Int64
  | add => left + right
  | subtract => left - right
  | and => left &&& right
  | or => left ||| right
  | exclusiveOr => left ^^^ right

/-- A value shifted by an amount that is not negative. -/
def Shift.apply (value amount : Int64) : Shift → Int64
  | left => if amount < 64 then value <<< amount else 0
  | right => if amount < 64 then value >>> amount else if value < 0 then -1 else 0

namespace Machine

/-- The value of a flexible operand. -/
def value (m : Machine) : Flexible → Except Fault Int64
  | .immediate i => .ok i.value
  | .register r => m.registers.get r

/-- The value of a flexible operand as the amount of a shift. -/
def amount (m : Machine) (f : Flexible) : Except Fault Int64 := do
  let n ← m.value f
  if n < 0 then throw ⟨.negativeShift, f.token⟩
  return n

/-- The place that a label stands for. -/
def target (m : Machine) (l : Label) : Except Fault Nat :=
  match m.labels.lookup? l.name with
  | some place => .ok place
  | none => .error ⟨.undeclaredLabel, l.token⟩

/-! ## Executing -/

/-- A part of the execution of a statement.  The machine is changed in place, and a fault leaves it
as it is by then: nothing is undone. -/
abbrev Course (α : Type) : Type := EStateM Fault Machine α

theorem run_bind_of_ok {α β : Type} {x : Course α} {k : α → Course β} {m between : Machine} {a : α}
    (h : x.run m = .ok a between) : (x >>= k).run m = (k a).run between := by
  rw [EStateM.run_bind, h]

/-- Nothing is executed behind a fault. -/
theorem run_bind_of_error {α β : Type} {x : Course α} {k : α → Course β} {m after : Machine}
    {f : Fault} (h : x.run m = .error f after) : (x >>= k).run m = .error f after := by
  rw [EStateM.run_bind, h]

/-- What was changed in front of a fault stays changed. -/
example (m : Machine) (change : Machine → Machine) (f : Fault) :
    (do modify change; throw f : Course Unit).run m = .error f (change m) := rfl

/-- Looks something up in the machine. -/
def look {α : Type} (what : Machine → Except Fault α) : Course α := do
  match what (← get) with
  | .ok a => return a
  | .error fault => throw fault

theorem run_look {α : Type} (what : Machine → Except Fault α) (m : Machine) :
    (look what).run m =
      match what m with
      | .ok a => .ok a m
      | .error fault => .error fault m := by
  simp only [look, EStateM.run_bind, EStateM.run_get]
  cases what m with
  | ok a => rfl
  | error fault => rfl

/-- Looking something up changes nothing. -/
theorem run_look_eq_ok_iff {α : Type} {what : Machine → Except Fault α} {m after : Machine}
    {a : α} : (look what).run m = .ok a after ↔ what m = .ok a ∧ after = m := by
  rw [run_look]
  cases what m with
  | ok b => simp [eq_comm]
  | error fault => simp

/-- Puts a value into a register. -/
def setRegister (r : Register) (v : Int64) : Course Unit := do
  let registers ← look (·.registers.set r v)
  modify fun m => { m with registers }

/-- Puts a value into a memory cell. -/
def setCell (a : Address) (v : Int64) : Course Unit := do
  let memory ← look (·.memory.set a v)
  modify fun m => { m with memory }

/-- Executes an instruction.  The result is the place of the statement to execute next, which is
`next` unless the instruction branches. -/
def perform (next : Nat) : Instruction → Course Nat
  | .load rd a => do
    let v ← look (·.memory.get a)
    setRegister rd v
    return next
  | .store rd a => do
    let v ← look (·.registers.get rd)
    setCell a v
    return next
  | .compute op rd rn f => do
    let left ← look (·.registers.get rn)
    let right ← look (·.value f)
    setRegister rd (op.apply left right)
    return next
  | .shift direction rd rn f => do
    let v ← look (·.registers.get rn)
    let n ← look (·.amount f)
    setRegister rd (direction.apply v n)
    return next
  | .move rd f => do
    let v ← look (·.value f)
    setRegister rd v
    return next
  | .complement rd f => do
    let v ← look (·.value f)
    setRegister rd (~~~v)
    return next
  | .compare rn f => do
    let left ← look (·.registers.get rn)
    let right ← look (·.value f)
    modify fun m => { m with flags := .compare left right }
    return next
  | .branch condition l => do
    if condition.holds (← get).flags then look (·.target l) else return next
  | .halt => do
    modify fun m => { m with halted := true }
    return next

/-- Executes a statement.  A declared label is passed. -/
def performStatement (s : Statement) : Course Unit := do
  let next := (← get).pc + 1
  let place ← (match s with
    | .instruction i => perform next i
    | .label _ => return next)
  modify fun m => { m with pc := place }

/-! ## Recording -/

/-- The snapshot of the machine after it executed the statement at a place. -/
def snapshot (m : Machine) (pc : Nat) (s : Statement) : Snapshot where
  pc := pc
  next := m.pc
  statement := s.text
  label? := s.label?.map Label.name
  registers := m.registers.cells.toList
  flags := m.flags
  memory := m.memory.cells.toList

/-- What a call that executes statements gives. -/
structure Outcome where
  /-- The machine afterwards. -/
  machine : Machine
  /-- The fault that was met during the call. -/
  fault? : Option Fault
  /-- What was noted down during the call. -/
  records : Array LogRecord

/-- Counts the statement that was executed at a place, and records it if the machine traces. -/
def complete (m : Machine) (pc : Nat) (s : Statement) : Outcome :=
  let counted := { m with executed := m.executed + 1 }
  if m.config.tracing then
    let snapshot := m.snapshot pc s
    ⟨{ counted with trace := m.trace.push snapshot }, none,
      #[.executing pc s, .completed snapshot]⟩
  else ⟨counted, none, #[.executing pc s]⟩

/-- Executes the current statement, if there is one. -/
def step (m : Machine) : Outcome :=
  match m.current? with
  | none => ⟨m, none, #[]⟩
  | some s =>
    match (performStatement s).run m with
    | .ok () after => after.complete m.pc s
    | .error fault after =>
      ⟨{ after with fault? := some fault }, some fault, #[.executing m.pc s]⟩

/-- A machine that is done stays as it is. -/
theorem step_of_isDone {m : Machine} (h : m.isDone) : m.step = ⟨m, none, #[]⟩ := by
  rw [isDone, Option.isNone_iff_eq_none] at h
  rw [step, h]

/-- A statement that can be executed is counted. -/
theorem step_of_ok {m after : Machine} {s : Statement} (hs : m.current? = some s)
    (h : (performStatement s).run m = .ok () after) : m.step = after.complete m.pc s := by
  rw [step, hs]
  simp only [h]

/-- A statement that cannot be executed leaves its fault in the machine as it is by then. -/
theorem step_of_error {m after : Machine} {s : Statement} {f : Fault} (hs : m.current? = some s)
    (h : (performStatement s).run m = .error f after) :
    m.step = ⟨{ after with fault? := some f }, some f, #[.executing m.pc s]⟩ := by
  rw [step, hs]
  simp only [h]

end Machine

end AqaAssembly
