import AqaAssembly.Proofs.Machine.History
import AqaAssembly.Proofs.Machine.Likeness

/-!
# Observing a machine

A machine may trace or not, its trace may hold anything, and its counter may stand anywhere.  None
of this has any bearing on what it does: two machines that agree in the rest (`Machine.SameState`)
give the same answers to whatever is done to them, and still agree afterwards.

The main result is `Machine.observation_does_not_disturb`.
-/

namespace AqaAssembly

namespace Machine

/-- The machines are in the same state.  What they record and have counted may differ. -/
structure SameState (m m' : Machine) : Prop where
  program : m'.program = m.program
  registers : m'.registers = m.registers
  memory : m'.memory = m.memory
  flags : m'.flags = m.flags
  pc : m'.pc = m.pc
  halted : m'.halted = m.halted
  fault? : m'.fault? = m.fault?

/-- Something that is written into a machine from outside. -/
inductive Write
  /-- A value for the register at a place, counted from 0. -/
  | register (place : Nat) (value : Int64)
  /-- A value for the memory cell at a place, counted from 0. -/
  | cell (place : Nat) (value : Int64)
  | flags (new : Flags)
  /-- The place of the statement to execute next. -/
  | pc (place : Nat)

/-- The machine with something written into it, if it has a place for it. -/
def Write.into? : Write → Machine → Option Machine
  | register place value, m =>
    (m.registers.write? place value).map fun registers => { m with registers }
  | cell place value, m => (m.memory.write? place value).map fun memory => { m with memory }
  | flags new, m => some { m with flags := new }
  | pc place, m => some { m with pc := place }

/-- Something that is done to a machine. -/
inductive Action
  | call (c : Call)
  | write (w : Write)

/-- What is told when something is done to a machine. -/
inductive Answer
  /-- The call has ended, with a fault or without. -/
  | ended (fault? : Option Fault)
  /-- There was a place for what was to be written, or there was none. -/
  | written (found : Bool)
  deriving DecidableEq

namespace Action

/-- The answer of the machine. -/
def answer : Action → Machine → Answer
  | call c, m => .ended (c.outcome m).fault?
  | write w, m => .written (w.into? m).isSome

/-- The machine afterwards.  If there is no place for what is written, it stays as it is. -/
def next : Action → Machine → Machine
  | call c, m => (c.outcome m).machine
  | write w, m => (w.into? m).getD m

/-- The number of statements that are executed. -/
def length : Action → Machine → Nat
  | call c, m => (history c.limit m).length
  | write _, _ => 0

end Action

/-- The answers of a machine to one action after another. -/
def answers : List Action → Machine → List Answer
  | [], _ => []
  | action :: actions, m => action.answer m :: answers actions (action.next m)

/-- The machine after one action after another. -/
def afterAll (actions : List Action) (m : Machine) : Machine :=
  actions.foldl (fun m action => action.next m) m

/-- The number of statements that are executed by one action after another. -/
def lengthOf : List Action → Machine → Nat
  | [], _ => 0
  | action :: actions, m => action.length m + lengthOf actions (action.next m)

variable {m m' : Machine}

/-! ## Likeness -/

theorem eq_of_rel {f f' : Option Fault} (h : Option.Rel (Fault.Like Eq) f f') : f' = f := by
  cases h with
  | none => rfl
  | @some f f' h =>
    obtain ⟨cause, token⟩ := f
    obtain ⟨rfl, rfl⟩ := h
    rfl

namespace SameState

theorem refl (m : Machine) : m.SameState m := ⟨rfl, rfl, rfl, rfl, rfl, rfl, rfl⟩

/-- Machines in the same state are alike, however far apart their counters are. -/
theorem like (h : m.SameState m') : m.Like Eq (m'.executed - m.executed) m' where
  program := by
    rw [h.program]
    exact List.forall₂_same.2 fun s _ => .refl (fun _ => rfl) s
  registers_eq := h.registers
  memory_eq := h.memory
  flags_eq := h.flags
  pc_eq := h.pc
  executed_eq := by rw [UInt64.add_comm, UInt64.sub_add_cancel]
  halted_eq := h.halted
  fault? := by
    rw [h.fault?]
    cases m.fault? with
    | none => exact .none
    | some f => exact .some ⟨rfl, rfl⟩

theorem of_like {ahead : UInt64} (hprogram : m'.program = m.program) (h : m.Like Eq ahead m') :
    m.SameState m' :=
  ⟨hprogram, h.registers_eq, h.memory_eq, h.flags_eq, h.pc_eq, h.halted_eq, eq_of_rel h.fault?⟩

/-! ## One action -/

/-- Calls do the same to machines in the same state, and end with the same fault, if with any. -/
theorem outcome (h : m.SameState m') (c : Call) :
    (c.outcome m').fault? = (c.outcome m).fault? ∧
      (c.outcome m).machine.SameState (c.outcome m').machine ∧
      (c.outcome m').machine.executed =
        (c.outcome m).machine.executed + (m'.executed - m.executed) := by
  have hlike : (c.outcome m).Like Eq (m'.executed - m.executed) (c.outcome m') := by
    cases c with
    | step => exact h.like.step
    | runFor limit => exact h.like.runFor limit.toNat
  have hprogram : (c.outcome m').machine.program = (c.outcome m).machine.program := by
    rw [machine_outcome, machine_outcome, program_steps, program_steps, h.program]
  exact ⟨eq_of_rel hlike.fault?, of_like hprogram hlike.machine, hlike.machine.executed_eq⟩

/-- Machines in the same state have the same places, and are in the same state when something is
written there. -/
theorem write (h : m.SameState m') (w : Write) :
    Option.Rel SameState (w.into? m) (w.into? m') := by
  cases w with
  | register place value =>
    rw [Write.into?, Write.into?, h.registers]
    cases m.registers.write? place value with
    | none => exact .none
    | some registers => exact .some { h with registers := rfl }
  | cell place value =>
    rw [Write.into?, Write.into?, h.memory]
    cases m.memory.write? place value with
    | none => exact .none
    | some memory => exact .some { h with memory := rfl }
  | flags new => exact .some { h with flags := rfl }
  | pc place => exact .some { h with pc := rfl }

end SameState

/-- What is written is not counted. -/
theorem Write.executed_getD (w : Write) (m : Machine) :
    ((w.into? m).getD m).executed = m.executed := by
  cases w with
  | register place value =>
    rw [into?]
    cases m.registers.write? place value with
    | none => rfl
    | some registers => rfl
  | cell place value =>
    rw [into?]
    cases m.memory.write? place value with
    | none => rfl
    | some memory => rfl
  | flags new => rfl
  | pc place => rfl

/-- Machines in the same state give the same answer, and stay in the same state.  The second counts
the statements that the first executes. -/
theorem SameState.action (h : m.SameState m') (action : Action) :
    action.answer m' = action.answer m ∧ (action.next m).SameState (action.next m') ∧
      (action.next m').executed = m'.executed + .ofNat (action.length m) := by
  cases action with
  | call c =>
    obtain ⟨hfault, hstate, hexecuted⟩ := h.outcome c
    have hcount := (records_history c.limit m).executed
    rw [← machine_outcome] at hcount
    refine ⟨congrArg Answer.ended hfault, hstate, ?_⟩
    rw [Action.next, hexecuted, hcount, UInt64.add_comm, ← UInt64.add_assoc, UInt64.sub_add_cancel]
    rfl
  | write w =>
    refine ⟨?_, ?_, (w.executed_getD m').trans (UInt64.add_zero _).symm⟩
    · exact congrArg Answer.written (isSome_eq_of_rel (h.write w))
    · have hwrite := h.write w
      rw [Action.next, Action.next]
      generalize w.into? m = o at hwrite ⊢
      generalize w.into? m' = o' at hwrite ⊢
      cases hwrite with
      | none => exact h
      | some hstate => exact hstate

/-! ## Any actions -/

/-- Machines in the same state give the same answers, and stay in the same state.  The second counts
the statements that the first executes. -/
theorem SameState.actions (h : m.SameState m') (actions : List Action) :
    answers actions m' = answers actions m ∧
      (m.afterAll actions).SameState (m'.afterAll actions) ∧
      (m'.afterAll actions).executed = m'.executed + .ofNat (lengthOf actions m) := by
  induction actions generalizing m m' with
  | nil => exact ⟨rfl, h, (UInt64.add_zero _).symm⟩
  | cons action actions ih =>
    obtain ⟨hanswer, hstate, hexecuted⟩ := h.action action
    obtain ⟨hanswers, hstates, hcount⟩ := ih hstate
    rw [hexecuted, UInt64.add_assoc, ← UInt64.ofNat_add] at hcount
    refine ⟨?_, hstates, hcount⟩
    rw [answers, answers, hanswer, hanswers]

/-- Two machines in the same state may differ in whether they trace, in what their traces hold and
can hold, and in how many statements they have counted.  Whatever is done to both, calls or writing
from outside, they give the same answers and are in the same state afterwards, and each has counted
as many more statements as are executed.  This is so although a run with a limit may be stopped by
looking at the counter: wherever it stood, the run is the same. -/
theorem observation_does_not_disturb (h : m.SameState m') (actions : List Action) :
    answers actions m' = answers actions m ∧
    (m.afterAll actions).SameState (m'.afterAll actions) ∧
    (m.afterAll actions).executed = m.executed + .ofNat (lengthOf actions m) ∧
    (m'.afterAll actions).executed = m'.executed + .ofNat (lengthOf actions m) ∧
    ∀ limit : UInt64,
      runWhile? (counting m.executed limit) (limit.toNat + 1) () m =
        some ((), (Call.runFor limit).outcome m) ∧
      runWhile? (counting m'.executed limit) (limit.toNat + 1) () m' =
        some ((), (Call.runFor limit).outcome m') := by
  obtain ⟨hanswers, hstates, hcount'⟩ := h.actions actions
  obtain ⟨-, -, hcount⟩ := (SameState.refl m).actions actions
  exact ⟨hanswers, hstates, hcount, hcount',
    fun limit => ⟨runWhile?_counting limit m, runWhile?_counting limit m'⟩⟩

/-- A machine that traces, has dropped a snapshot and has counted 40 statements does the same as one
that was just loaded: it is given a value, doubles it twice, and meets a fault. -/
theorem observation_does_not_disturb_full_trace :
    let m := load doublings ⟨1, 16, false⟩
    let m' : Machine :=
      { m with config := ⟨1, 16, true⟩, trace := ⟨0, [], 1, Nat.le_refl 0⟩, executed := 40 }
    let actions : List Action :=
      [.write (.register 0 21), .write (.register 1 7), .call (.runFor 1), .call (.runFor 9)]
    m.SameState m' ∧ answers actions m' = answers actions m ∧
      (m.afterAll actions).SameState (m'.afterAll actions) ∧
      (m.afterAll actions).registers.cells = #[84] ∧ (m.afterAll actions).fault?.isSome ∧
      (m.afterAll actions).executed = 2 ∧ (m'.afterAll actions).executed = 42 := by
  intro m m' actions
  have h : m.SameState m' := ⟨rfl, rfl, rfl, rfl, rfl, rfl, rfl⟩
  obtain ⟨hanswers, hstates, hcount, hcount', -⟩ := observation_does_not_disturb h actions
  have htwo : lengthOf actions m = 2 := by decide +kernel
  rw [htwo] at hcount hcount'
  exact ⟨h, hanswers, hstates, by decide +kernel, by decide +kernel,
    hcount.trans (by decide +kernel), hcount'.trans (by decide +kernel)⟩

end Machine

end AqaAssembly
