import AqaAssembly.Proofs.Machine.Observation

/-!
# What is done to a machine

A machine that was loaded with a program is called, values are put into its cells from outside, and
it is reset, in any order (`Machine.Command`).  Whatever is done to it, it stays consistent
(`Machine.Consistent`): its cells are as many as they were, the place of the next statement is in
the program or at its end, and if the machine was told to halt or has met a fault, the statement
that did this is the one that it last looked at.

No more than one fault is met between two resets, so the fault that is recorded is all there is to
report (`Machine.collected_eq`).  A machine that is done is left as it is by every call, and stays
done until it is reset (`Machine.isDone_obey`).

The main result is `Machine.stays_consistent`.
-/

namespace AqaAssembly

namespace Machine

/-- Something that is done to a machine. -/
inductive Command
  | call (c : Call)
  /-- Put a value into the register or the memory cell at a place, counted from 0. -/
  | put (s : Storage) (place : Nat) (value : Int64)
  | reset
  deriving DecidableEq

namespace Command

/-- What is written into the machine when a value is put into a cell. -/
def putting : Storage → Nat → Int64 → Write
  | .registers => .register
  | .memory => .cell

/-- The machine afterwards.  If there is no cell for a value, it stays as it is. -/
def next : Command → Machine → Machine
  | call c, m => (c.outcome m).machine
  | put s place value, m => ((putting s place value).into? m).getD m
  | reset, m => m.reset

end Command

/-- The machine after one command after another. -/
def obey (commands : List Command) (m : Machine) : Machine :=
  commands.foldl (fun m command => command.next m) m

@[simp] theorem obey_nil (m : Machine) : m.obey [] = m := rfl

@[simp] theorem obey_cons (command : Command) (commands : List Command) (m : Machine) :
    m.obey (command :: commands) = (command.next m).obey commands := rfl

/-- Putting a value into a cell changes that cell at most. -/
theorem exists_next_put (s : Storage) (place : Nat) (value : Int64) (m : Machine) :
    ∃ (registers : Registers) (memory : Memory), registers.size = m.registers.size ∧
      memory.size = m.memory.size ∧
      (Command.put s place value).next m = { m with registers, memory } := by
  cases s with
  | registers =>
    simp only [Command.next, Command.putting, Write.into?]
    cases hwrite : m.registers.write? place value with
    | none => exact ⟨m.registers, m.memory, rfl, rfl, rfl⟩
    | some registers => exact ⟨registers, m.memory, Bank.size_write? hwrite, rfl, rfl⟩
  | memory =>
    simp only [Command.next, Command.putting, Write.into?]
    cases hwrite : m.memory.write? place value with
    | none => exact ⟨m.registers, m.memory, rfl, rfl, rfl⟩
    | some memory => exact ⟨m.registers, memory, rfl, Bank.size_write? hwrite, rfl⟩

/-! ## Consistency -/

/-- What is so of a machine that was loaded with the program, whatever has been done to it. -/
structure Consistent (p : Program) (config : Config) (m : Machine) : Prop where
  make : (load p config).SameMake m
  pc_le : m.pc ≤ p.length
  /-- A machine that was told to halt has met no fault, and has just passed a `HALT`. -/
  halted : m.halted → m.fault? = none ∧ ∃ i, m.pc = i + 1 ∧ p[i]? = some (.instruction .halt)
  /-- A fault is at an operand of the statement that could not be executed. -/
  fault : ∀ f ∈ m.fault?, ∃ s, p[m.pc]? = some s ∧ f.token ∈ s.tokens

/-- Only the effect of a `HALT` tells a machine to halt. -/
theorem Asks.eq_halt_of_halted {m : Machine} {s : Statement} {e : Effect} (h : m.Asks s e)
    (hhalted : e.halted false) : s = .instruction .halt ∧ e = .halt := by
  cases h with
  | halt => exact ⟨rfl, rfl⟩
  | _ => cases hhalted

namespace Consistent

variable {p : Program} {config : Config} {m : Machine}

theorem load (p : Program) (config : Config) : (load p config).Consistent p config where
  make := .refl _
  pc_le := Nat.zero_le _
  halted := nofun
  fault := fun _ h => absurd h (Option.not_mem_none _)

theorem program (h : m.Consistent p config) : m.program = p := h.make.program

/-- A step keeps a machine consistent. -/
theorem step (h : m.Consistent p config) : m.step.machine.Consistent p config := by
  have hmake : (Machine.load p config).SameMake m.step.machine := h.make.trans (sameMake_step m)
  have hpc : m.step.machine.pc ≤ p.length := by
    have hle := pc_le_length_step (m := m) (by rw [h.program]; exact h.pc_le)
    rwa [program_step, h.program] at hle
  have hstep := m.happens_step
  generalize m.step = o at hstep hmake hpc ⊢
  cases hstep with
  | nothing _ => exact h
  | @executed s e after hs _ hasks hafter =>
    obtain ⟨hrunning, hnone, hprogram⟩ := current?_eq_some_iff.1 hs
    have hshows := hafter.1.complete m.pc s
    have hfault := hshows.fault?.trans hnone
    refine ⟨hmake, hpc, fun hhalted => ⟨hfault, m.pc, ?_⟩, fun f hf => ?_⟩
    · rw [hshows.halted, hrunning] at hhalted
      obtain ⟨rfl, rfl⟩ := hasks.eq_halt_of_halted hhalted
      rw [h.program] at hprogram
      exact ⟨hshows.pc, hprogram⟩
    · rw [hfault] at hf
      cases hf
  | @faulted s f hs hperform =>
    obtain ⟨hrunning, -, hprogram⟩ := current?_eq_some_iff.1 hs
    obtain ⟨c, hc, -, rfl⟩ := exists_check_of_performStatement_eq_error hperform
    refine ⟨hmake, hpc, fun hhalted => ?_, fun g hg => ?_⟩
    · rw [show m.halted = false from hrunning] at hhalted
      cases hhalted
    · cases hg
      rw [h.program] at hprogram
      exact ⟨s, hprogram, token_mem_of_mem_checks hc⟩

/-- Steps keep a machine consistent. -/
theorem steps (h : m.Consistent p config) (n : Nat) : (m.steps n).Consistent p config := by
  induction n with
  | zero => exact h
  | succ n ih =>
    rw [steps_succ_last]
    exact ih.step

/-- Every command keeps a machine consistent. -/
theorem next (h : m.Consistent p config) (command : Command) :
    (command.next m).Consistent p config := by
  cases command with
  | call c =>
    rw [Command.next, machine_outcome]
    exact h.steps c.limit
  | put s place value =>
    obtain ⟨registers, memory, hregisters, hmemory, hput⟩ := exists_next_put s place value m
    rw [hput]
    exact {
      make := h.make.trans ⟨rfl, rfl, hregisters, hmemory⟩
      pc_le := h.pc_le
      halted := h.halted
      fault := h.fault }
  | reset =>
    have hload := load p config
    rw [Command.next, reset, h.make.program, h.make.config]
    exact {
      make := hload.make.trans ⟨rfl, rfl, rfl, rfl⟩
      pc_le := hload.pc_le
      halted := hload.halted
      fault := hload.fault }

/-- Whatever is done to a machine, it stays consistent. -/
theorem obey (h : m.Consistent p config) (commands : List Command) :
    (m.obey commands).Consistent p config := by
  induction commands generalizing m with
  | nil => exact h
  | cons command commands ih => exact ih (h.next command)

end Consistent

/-! ## Faults that are met -/

/-- The faults that are met in so many steps, in order. -/
def faultsMet : Nat → Machine → List Fault
  | 0, _ => []
  | n + 1, m => m.step.fault?.toList ++ faultsMet n m.step.machine

/-- A list of faults after a command: faults that are met are added at its end, and it is emptied
when the machine is reset. -/
def Command.collect : Command → Machine → List Fault → List Fault
  | call c, m, faults => faults ++ faultsMet c.limit m
  | put _ _ _, _, faults => faults
  | reset, _, _ => []

/-- A list of faults after one command after another. -/
def collected : List Command → Machine → List Fault → List Fault
  | [], _, faults => faults
  | command :: commands, m, faults =>
    collected commands (command.next m) (command.collect m faults)

theorem toList_fault?_step (m : Machine) :
    m.step.machine.fault?.toList = m.fault?.toList ++ m.step.fault?.toList := by
  have hstep := m.happens_step
  generalize m.step = o at hstep ⊢
  cases hstep with
  | nothing _ => exact (List.append_nil _).symm
  | @executed s _ after _ _ _ hafter =>
    rw [fault?_complete, (hafter.1.complete m.pc s).fault?]
    exact (List.append_nil _).symm
  | faulted hs _ =>
    rw [(current?_eq_some_iff.1 hs).2.1]
    rfl

/-- The fault that is recorded is every fault that was met. -/
theorem toList_fault?_steps (n : Nat) (m : Machine) :
    (m.steps n).fault?.toList = m.fault?.toList ++ faultsMet n m := by
  induction n generalizing m with
  | zero => exact (List.append_nil _).symm
  | succ n ih => rw [steps_succ, ih, toList_fault?_step, faultsMet, List.append_assoc]

theorem Command.collect_eq (command : Command) (m : Machine) :
    command.collect m m.fault?.toList = (command.next m).fault?.toList := by
  cases command with
  | call c => rw [collect, next, machine_outcome, toList_fault?_steps]
  | put s place value =>
    obtain ⟨registers, memory, -, -, hput⟩ := exists_next_put s place value m
    rw [hput, collect]
  | reset => rfl

/-- Of all the faults that were met since the machine was reset, every one is recorded. -/
theorem collected_eq (commands : List Command) (m : Machine) :
    collected commands m m.fault?.toList = (m.obey commands).fault?.toList := by
  induction commands generalizing m with
  | nil => rfl
  | cons command commands ih => rw [collected, command.collect_eq, ih, obey_cons]

/-! ## Machines that are done -/

/-- Only a reset sets a machine going again. -/
theorem isDone_next {m : Machine} (h : m.isDone) {command : Command} (hreset : command ≠ .reset) :
    (command.next m).isDone := by
  cases command with
  | call c =>
    rw [Command.next, machine_outcome, steps_of_isDone h]
    exact h
  | put s place value =>
    obtain ⟨registers, memory, -, -, hput⟩ := exists_next_put s place value m
    rw [hput]
    exact h
  | reset => exact absurd rfl hreset

/-- A machine that is done stays done until it is reset. -/
theorem isDone_obey {m : Machine} (h : m.isDone) {commands : List Command}
    (hreset : .reset ∉ commands) : (m.obey commands).isDone := by
  induction commands generalizing m with
  | nil => exact h
  | cons command commands ih =>
    obtain ⟨hne, hrest⟩ := List.ne_and_not_mem_of_not_mem_cons hreset
    exact ih (isDone_next h hne.symm) hrest

/-- A machine is loaded with a program; then it is called, values are put into its cells, and it is
reset, in any order.  It keeps its program, the label table of that program, its configuration and
the number of its cells, and its next statement is in the program or behind its last.  Of all the
faults that were met since the last reset there is at most one, and it is recorded.  A machine that
was told to halt has met none, and has just passed a `HALT`; a machine that has met one stands at
the statement concerned, and the fault is at an operand of that statement.  Once the machine is
done, every call leaves it as it is until it is reset. -/
theorem stays_consistent (p : Program) (config : Config) (commands : List Command) :
    let after := (load p config).obey commands
    after.program = p ∧ after.labels = .ofProgram p ∧ after.config = config ∧
    after.registers.size = config.registers ∧ after.memory.size = config.memoryCapacity ∧
    after.pc ≤ p.length ∧
    collected commands (load p config) [] = after.fault?.toList ∧
    (collected commands (load p config) []).length ≤ 1 ∧
    ¬ (after.halted ∧ after.fault?.isSome) ∧
    (after.halted → 1 ≤ after.pc ∧ p[after.pc - 1]? = some (.instruction .halt)) ∧
    (∀ f ∈ after.fault?, after.pc < p.length ∧ ∃ s, p[after.pc]? = some s ∧ f.token ∈ s.tokens) ∧
    (after.isDone → ∀ later : List Command, .reset ∉ later →
      let m := after.obey later
      m.isDone ∧ m.step = ⟨m, none, #[]⟩ ∧
        ∀ n, (m.runFor n).machine = m ∧ (m.runFor n).fault? = none ∧
          (m.run? n).map Outcome.machine = some m) := by
  intro after
  have h : after.Consistent p config := (Consistent.load p config).obey commands
  have hcollected : collected commands (load p config) [] = after.fault?.toList :=
    collected_eq commands (load p config)
  refine ⟨h.program, by rw [after.labels_eq, h.program], h.make.config,
    h.make.registers_size.trans (Bank.size_zeros _), h.make.memory_size.trans (Bank.size_zeros _),
    h.pc_le, hcollected, ?_, ?_, fun hhalted => ?_, fun f hf => ?_, fun hdone later hlater => ?_⟩
  · rw [hcollected]
    exact Option.length_toList_le
  · rintro ⟨hhalted, hfault⟩
    rw [(h.halted hhalted).1] at hfault
    cases hfault
  · obtain ⟨-, i, hpc, hhalt⟩ := h.halted hhalted
    rw [hpc]
    exact ⟨Nat.le_add_left 1 i, hhalt⟩
  · obtain ⟨s, hs, htoken⟩ := h.fault f hf
    exact ⟨(List.getElem?_eq_some_iff.1 hs).1, s, hs, htoken⟩
  · intro m
    have hm : m.isDone := isDone_obey hdone hlater
    refine ⟨hm, step_of_isDone hm, fun n => ?_⟩
    rw [runFor_of_isDone hm, run?_of_isDone hm]
    exact ⟨rfl, rfl, rfl⟩

/-- Doubling 21 twice and then reading a cell that is not there, the machine stands at that read
with its fault, and a value that is put into its memory later does not set it going.  Another
machine stops behind a `HALT`, without a fault. -/
theorem stays_consistent_doublings :
    let after := (load doublings ⟨1, 16, false⟩).obey [.put .registers 0 21, .call (.runFor 9)]
    let later := after.obey [.put .memory 0 7]
    let stopped := (load [.instruction .halt] ⟨1, 16, false⟩).obey [.call .step]
    after.registers.cells = #[84] ∧ after.fault?.isSome ∧ after.pc = 2 ∧
    (∀ f ∈ after.fault?, ∃ s, doublings[2]? = some s ∧ f.token ∈ s.tokens) ∧
    later.memory.cells[0]? = some 7 ∧ later.isDone ∧ later.step.machine = later ∧
    stopped.halted ∧ 1 ≤ stopped.pc ∧ stopped.fault? = none := by
  dsimp only
  have hfault := stays_consistent doublings ⟨1, 16, false⟩ [.put .registers 0 21, .call (.runFor 9)]
  have hhalt := stays_consistent [.instruction .halt] ⟨1, 16, false⟩ [.call .step]
  dsimp only at hfault hhalt
  obtain ⟨-, -, -, -, -, -, -, -, -, -, hoperand, hdone⟩ := hfault
  obtain ⟨-, -, -, -, -, -, -, -, hone, hjust, -⟩ := hhalt
  obtain ⟨hlater, hstep, -⟩ := hdone (by decide +kernel) [.put .memory 0 7] (by decide)
  have hpc : ((load doublings ⟨1, 16, false⟩).obey
      [.put .registers 0 21, .call (.runFor 9)]).pc = 2 := by decide +kernel
  have hhalted : ((load [.instruction .halt] ⟨1, 16, false⟩).obey [.call .step]).halted := by
    decide +kernel
  rw [hpc] at hoperand
  refine ⟨by decide +kernel, by decide +kernel, hpc, fun f hf => (hoperand f hf).2,
    by decide +kernel, hlater, ?_, hhalted, (hjust hhalted).1, ?_⟩
  · rw [hstep]
  · rw [hhalted] at hone
    exact Option.not_isSome_iff_eq_none.1 fun hsome => hone ⟨rfl, hsome⟩

end Machine

end AqaAssembly
