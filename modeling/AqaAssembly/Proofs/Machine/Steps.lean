import AqaAssembly.Machine.Run
import AqaAssembly.Proofs.Machine.InstructionTable
import Mathlib.Data.Nat.Find
import Mathlib.Order.Bounds.Defs

/-!
# Step after step

What one call of `step` can do (`Machine.Happens`), what it preserves, and the machine after any
number of calls (`Machine.steps`).  A run is nothing but its steps:

* `machine_advanceBy`: a run that is limited to a number of statements ends with the machine after as
  many calls of `step`;
* `recorded_advanceBy`: the fault that a run has met is the one that the machine has recorded;
* `isDone_steps_iff`: a machine that is done stays done;
* `pc_le_length_steps`: the place of the next statement never lies beyond the end of the program.
-/

namespace AqaAssembly

namespace Machine

/-- What a call of `step` can do: nothing, if nothing is left to execute; what the current statement
asks for; or only record that this statement cannot be executed. -/
inductive Happens (m : Machine) : Outcome → Prop
  | nothing (hdone : m.isDone) : Happens m ⟨m, none, #[]⟩
  | executed {s : Statement} {e : Effect} {after : Machine} (hs : m.current? = some s)
    (hperform : (performStatement s).run m = .ok () after) (hasks : m.Asks s e)
    (hafter : m.ShowsOnly e after) : Happens m (after.complete m.pc s)
  | faulted {s : Statement} {f : Fault} (hs : m.current? = some s)
    (hperform : (performStatement s).run m = .error f m) :
    Happens m ⟨{ m with fault? := some f }, some f, #[.executing m.pc s]⟩

theorem happens_step (m : Machine) : m.Happens m.step := by
  by_cases hdone : m.isDone
  · rw [step_of_isDone hdone]
    exact .nothing hdone
  · obtain ⟨s, hs⟩ := exists_current?_of_not_isDone hdone
    cases guards_performStatement (m := m) s with
    | passed hperform _ =>
      obtain ⟨e, hasks, hafter⟩ := exists_asks_of_performStatement hperform
      rw [step_of_ok hs hperform]
      exact .executed hs hperform hasks hafter
    | refused hperform _ =>
      rw [step_of_error hs hperform]
      exact .faulted hs hperform

/-! ## What a step preserves -/

/-- A machine keeps its program. -/
theorem program_step (m : Machine) : m.step.machine.program = m.program := by
  have h := m.happens_step
  generalize m.step = o at h ⊢
  cases h with
  | nothing _ => rfl
  | executed _ _ _ hafter => exact (hafter.1.complete _ _).program
  | faulted _ _ => rfl

/-- Both machines are of one make: they execute the same program, are configured alike, and have
equally many registers and memory cells. -/
structure SameMake (m after : Machine) : Prop where
  program : after.program = m.program
  config : after.config = m.config
  registers_size : after.registers.size = m.registers.size
  memory_size : after.memory.size = m.memory.size

namespace SameMake

theorem refl (m : Machine) : m.SameMake m := ⟨rfl, rfl, rfl, rfl⟩

theorem trans {k l m : Machine} (h : k.SameMake l) (h' : l.SameMake m) : k.SameMake m where
  program := h'.program.trans h.program
  config := h'.config.trans h.config
  registers_size := h'.registers_size.trans h.registers_size
  memory_size := h'.memory_size.trans h.memory_size

end SameMake

/-- A step does not change the make of a machine. -/
theorem sameMake_step (m : Machine) : m.SameMake m.step.machine := by
  have h := m.happens_step
  generalize m.step = o at h ⊢
  cases h with
  | nothing _ => exact .refl m
  | @executed s _ _ _ _ _ hafter =>
    have hshows := hafter.1.complete m.pc s
    exact ⟨hshows.program, hshows.config, hshows.registers_size, hshows.memory_size⟩
  | faulted _ _ => exact ⟨rfl, rfl, rfl, rfl⟩

/-- The fault that was met last is the one that the machine has recorded. -/
def Outcome.Recorded (o : Outcome) : Prop := o.fault? = o.machine.fault?

theorem recorded_step {m : Machine} (h : ¬ m.isDone) : m.step.Recorded := by
  have hstep := m.happens_step
  generalize m.step = o at hstep ⊢
  cases hstep with
  | nothing hdone => exact absurd hdone h
  | executed hs _ _ hafter =>
    rw [Outcome.Recorded, fault?_complete, (hafter.1.complete _ _).fault?, (current?_eq_some_iff.1 hs).2.1]
  | faulted _ _ => rfl

/-- A statement goes on to a place in the program or to its end. -/
theorem Asks.next_le_length {m : Machine} {s : Statement} {e : Effect} (h : m.Asks s e)
    (hpc : m.pc < m.program.length) : e.next m.pc ≤ m.program.length := by
  cases e with
  | goTo place =>
    obtain ⟨condition, l, -, declared⟩ := h.exists_branch
    rw [m.labels_eq] at declared
    exact (LabelTable.lt_length_of_lookup? declared).le
  | _ => exact hpc

theorem pc_le_length_step {m : Machine} (h : m.pc ≤ m.program.length) :
    m.step.machine.pc ≤ m.step.machine.program.length := by
  rw [program_step]
  have hstep := m.happens_step
  generalize m.step = o at hstep ⊢
  cases hstep with
  | nothing _ => exact h
  | executed hs _ hasks hafter =>
    obtain ⟨hpc, -⟩ := List.getElem?_eq_some_iff.1 (current?_eq_some_iff.1 hs).2.2
    rw [(hafter.1.complete _ _).pc]
    exact hasks.next_le_length hpc
  | faulted _ _ => exact h

/-! ## Any number of steps -/

/-- The machine after so many calls of `step`. -/
def steps (n : Nat) (m : Machine) : Machine := (fun m => m.step.machine)^[n] m

theorem steps_succ (n : Nat) (m : Machine) : m.steps (n + 1) = m.step.machine.steps n := rfl

/-- The last of some steps, after the others. -/
theorem steps_succ_last (n : Nat) (m : Machine) : m.steps (n + 1) = (m.steps n).step.machine :=
  Function.iterate_succ_apply' _ n m

theorem steps_add (n k : Nat) (m : Machine) : m.steps (n + k) = (m.steps n).steps k := by
  rw [Nat.add_comm]
  exact Function.iterate_add_apply _ k n m

theorem steps_of_isDone {m : Machine} (h : m.isDone) (n : Nat) : m.steps n = m := by
  induction n with
  | zero => rfl
  | succ n ih => rw [steps_succ, step_of_isDone h, ih]

/-- A machine that is done stays as it is. -/
theorem steps_eq_of_le {m : Machine} {n k : Nat} (h : (m.steps n).isDone) (le : n ≤ k) :
    m.steps k = m.steps n := by
  obtain ⟨d, rfl⟩ := Nat.exists_eq_add_of_le le
  rw [steps_add, steps_of_isDone h]

/-- A machine that is done at some time is first done after some number of steps. -/
theorem exists_isLeast_isDone {m : Machine} (h : ∃ n, (m.steps n).isDone) :
    ∃ n, IsLeast {n | (m.steps n).isDone} n :=
  ⟨Nat.find h, Nat.find_spec h, fun _ hk => Nat.find_min' h hk⟩

/-- If the machine is first done after `n` steps, it is done after `n` steps or more. -/
theorem isDone_steps_iff {m : Machine} {n : Nat} (h : IsLeast {n | (m.steps n).isDone} n)
    (k : Nat) : (m.steps k).isDone ↔ n ≤ k := by
  constructor
  · intro hk
    exact h.2 hk
  · intro hle
    rw [steps_eq_of_le h.1 hle]
    exact h.1

/-- Steps do not change the make of a machine. -/
theorem sameMake_steps (n : Nat) (m : Machine) : m.SameMake (m.steps n) := by
  induction n with
  | zero => exact .refl m
  | succ n ih =>
    rw [steps_succ_last]
    exact ih.trans (sameMake_step _)

/-- A machine that has met no fault has met none before. -/
theorem fault?_steps_of_le {m : Machine} {n k : Nat} (h : (m.steps k).fault? = none)
    (le : n ≤ k) : (m.steps n).fault? = none := by
  cases hfault : (m.steps n).fault? with
  | none => rfl
  | some f =>
    rw [steps_eq_of_le (isDone_of_fault? hfault) le, hfault] at h
    cases h

theorem program_steps (n : Nat) (m : Machine) : (m.steps n).program = m.program := by
  induction n with
  | zero => rfl
  | succ n ih => rw [steps_succ_last, program_step, ih]

/-- The place of the next statement never lies beyond the end of the program. -/
theorem pc_le_length_steps {m : Machine} (h : m.pc ≤ m.program.length) (n : Nat) :
    (m.steps n).pc ≤ m.program.length := by
  have hinside : (m.steps n).pc ≤ (m.steps n).program.length := by
    induction n with
    | zero => exact h
    | succ n ih =>
      rw [steps_succ_last]
      exact pc_le_length_step ih
  rwa [program_steps] at hinside

/-! ## Runs -/

/-- A run is its steps. -/
theorem machine_advanceBy (n : Nat) (o : Outcome) :
    (advanceBy n o).machine = o.machine.steps n := by
  induction n generalizing o with
  | zero => rfl
  | succ n ih =>
    rw [advanceBy]
    split
    · rename_i hdone
      exact (steps_of_isDone hdone _).symm
    · rw [ih]
      rfl

/-- The fault that a run has met is the one that the machine has recorded. -/
theorem recorded_advanceBy (n : Nat) {o : Outcome} (h : o.Recorded) :
    (advanceBy n o).Recorded := by
  induction n generalizing o with
  | zero => exact h
  | succ n ih =>
    rw [advanceBy]
    split
    · exact h
    · rename_i hdone
      exact ih (recorded_step hdone)

end Machine

end AqaAssembly
