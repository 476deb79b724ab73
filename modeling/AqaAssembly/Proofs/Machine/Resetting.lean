import AqaAssembly.Proofs.Machine.Frame
import AqaAssembly.Proofs.Machine.Observation

/-!
# Resetting

A machine may be called, everything in its state may be written from outside, its trace may be
replaced, and it may be reset, in any order (`Machine.Treatment`).  None of this touches its program
or its configuration, and the capacity of its trace is that of the last trace it was given:

* `keeps_next`, `keeps_treat`: what one treatment keeps, and what any number of them keep.

So a reset has nothing to go back to but what the machine was loaded with, and whatever else it has
been through is forgotten.  The main result is `reset_forgets`.
-/

namespace AqaAssembly

namespace Machine

/-- Something that is done to a machine. -/
inductive Treatment
  /-- Call the machine, or write something into it. -/
  | action (a : Action)
  /-- Set the number of statements that it has counted. -/
  | count (executed : UInt64)
  /-- Give it an empty trace of some capacity. -/
  | retrace (capacity : Nat)
  | reset

namespace Treatment

/-- The machine afterwards. -/
def next : Treatment → Machine → Machine
  | action a, m => a.next m
  | count executed, m => { m with executed }
  | retrace capacity, m => { m with trace := .empty capacity }
  | reset, m => m.reset

/-- The answer of the machine, if it gives one. -/
def answer? : Treatment → Machine → Option Answer
  | action a, m => some (a.answer m)
  | count _, _ | retrace _, _ | reset, _ => none

/-- The capacity of the trace that the machine is given, if it is given one. -/
def capacity? : Treatment → Option Nat
  | retrace capacity => some capacity
  | action _ | count _ | reset => none

end Treatment

/-- The machine after one treatment after another. -/
def treat (treatments : List Treatment) (m : Machine) : Machine :=
  treatments.foldl (fun m t => t.next m) m

/-- The answers of a machine to one treatment after another. -/
def replies : List Treatment → Machine → List (Option Answer)
  | [], _ => []
  | t :: ts, m => t.answer? m :: replies ts (t.next m)

/-- The capacity of a trace that was `before`, after one treatment after another. -/
def capacityAfter (before : Nat) (treatments : List Treatment) : Nat :=
  (treatments.filterMap Treatment.capacity?).getLast?.getD before

/-! ## What is kept -/

/-- The machine is what it was, apart from its state and from a trace that it may have been
given. -/
structure Keeps (m : Machine) (treatments : List Treatment) (after : Machine) : Prop where
  program : after.program = m.program
  config : after.config = m.config
  capacity : after.trace.capacity = capacityAfter m.trace.capacity treatments

namespace Keeps

theorem refl (m : Machine) : m.Keeps [] m := ⟨rfl, rfl, rfl⟩

theorem capacityAfter_append (before : Nat) (ts us : List Treatment) :
    capacityAfter before (ts ++ us) = capacityAfter (capacityAfter before ts) us := by
  unfold capacityAfter
  rw [List.filterMap_append, List.getLast?_append]
  cases (us.filterMap Treatment.capacity?).getLast? with
  | none => rfl
  | some c => rfl

/-- Treatments one after another keep what each of them keeps. -/
theorem append {m k l : Machine} {ts us : List Treatment} (h : m.Keeps ts k) (h' : k.Keeps us l) :
    m.Keeps (ts ++ us) l where
  program := h'.program.trans h.program
  config := h'.config.trans h.config
  capacity := by rw [h'.capacity, h.capacity, capacityAfter_append]

end Keeps

/-- What is written into a machine from outside is part of its state. -/
theorem keeps_write (w : Write) (m : Machine) : m.Keeps [] ((w.into? m).getD m) := by
  cases w with
  | register place value =>
    rw [Write.into?]
    cases m.registers.write? place value with
    | none => exact .refl m
    | some registers => exact ⟨rfl, rfl, rfl⟩
  | cell place value =>
    rw [Write.into?]
    cases m.memory.write? place value with
    | none => exact .refl m
    | some memory => exact ⟨rfl, rfl, rfl⟩
  | flags new => exact ⟨rfl, rfl, rfl⟩
  | pc place => exact ⟨rfl, rfl, rfl⟩

/-- What one treatment keeps. -/
theorem keeps_next (t : Treatment) (m : Machine) : m.Keeps [t] (t.next m) := by
  cases t with
  | action a =>
    cases a with
    | call c =>
      have hframed := framed_steps c.limit m
      rw [Treatment.next, Action.next, machine_outcome]
      exact ⟨hframed.program, hframed.config, hframed.capacity⟩
    | write w =>
      have hwrite := keeps_write w m
      exact ⟨hwrite.program, hwrite.config, hwrite.capacity⟩
  | count executed => exact ⟨rfl, rfl, rfl⟩
  | retrace capacity => exact ⟨rfl, rfl, rfl⟩
  | reset => exact ⟨rfl, rfl, rfl⟩

/-- What any treatments keep. -/
theorem keeps_treat (treatments : List Treatment) (m : Machine) :
    m.Keeps treatments (m.treat treatments) := by
  induction treatments generalizing m with
  | nil => exact .refl m
  | cons t ts ih => exact (keeps_next t m).append (ih (t.next m))

/-- A machine is loaded with a program; then it is called, its registers, its memory, its flags, the
place of its next statement and its counter are written from outside, its trace is replaced by empty
ones, and it is reset, in any order.  Whatever has become of it, if it is reset now it is the
machine that was loaded, with an empty trace that has dropped nothing and has the capacity of the
last one that it was given, or the usual capacity if it was given none.  From then on it gives the
same answers to whatever is done to it as that machine, and goes through the same states. -/
theorem reset_forgets (p : Program) (config : Config) (treatments : List Treatment) :
    let after := (load p config).treat treatments
    let fresh : Machine :=
      { load p config with trace := ⟨after.trace.capacity, [], 0, Nat.zero_le _⟩ }
    after.reset = fresh ∧
    after.trace.capacity =
      ((treatments.filterMap Treatment.capacity?).getLast?).getD Trace.defaultCapacity ∧
    ∀ later, replies later after.reset = replies later fresh ∧
      after.reset.treat later = fresh.treat later := by
  intro after fresh
  have h : (load p config).Keeps treatments after := keeps_treat treatments (load p config)
  have hreset : after.reset = fresh := by
    rw [reset, h.program, h.config]
    rfl
  refine ⟨hreset, h.capacity, fun later => ?_⟩
  rw [hreset]
  exact ⟨rfl, rfl⟩

end Machine

end AqaAssembly
