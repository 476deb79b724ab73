import AqaAssembly.Proofs.Machine.Steps

/-!
# Larger machines

A machine with more registers and more memory cells does what a smaller one does, as long as the
smaller one meets no fault.  The size of a machine is only felt where a cell is asked for that is
not there; the cells that both have are numbered alike, and those that only the larger one has are
never touched.

The cells of the larger machine extend those of the smaller (`Bank.Extends`), and the rest of the
two machines is the same (`Machine.Extends`).  The instruction table asks both for the same
(`Machine.Extends.asks`), so a statement that the smaller can execute keeps them so
(`Machine.Extends.step`).

The main result is `Machine.larger_does_the_same`.
-/

namespace AqaAssembly

open Operand

/-! ## Banks with more cells -/

namespace Bank

variable {s : Storage} {b c : Bank s}

/-- The second bank has every cell of the first with its value, and further cells hold 0. -/
structure Extends (b c : Bank s) : Prop where
  kept {number : Int} {value : Int64} : b.at? number = some value → c.at? number = some value
  blank {number : Int} {value : Int64} :
    b.at? number = none → c.at? number = some value → value = 0

theorem extends_zeros {size larger : Nat} (h : size ≤ larger) :
    (zeros size : Bank s).Extends (zeros larger) where
  kept {number value} hvalue := by
    obtain rfl := eq_zero_of_at?_zeros hvalue
    have hsmall : ((zeros size : Bank s).at? number).isSome := by rw [hvalue]; rfl
    rw [at?_isSome_iff, size_zeros] at hsmall
    have hlarge : ((zeros larger : Bank s).at? number).isSome := by
      rw [at?_isSome_iff, size_zeros]
      omega
    obtain ⟨v, hv⟩ := Option.isSome_iff_exists.1 hlarge
    rw [hv, eq_zero_of_at?_zeros hv]
  blank _ hvalue := eq_zero_of_at?_zeros hvalue

/-- A bank that extends another one is its cells and, behind them, zeros. -/
theorem Extends.cells_eq (h : b.Extends c) {extra : Nat} (hsize : c.size = b.size + extra) :
    c.cells = b.cells ++ Array.replicate extra 0 := by
  refine Array.ext_getElem? fun i => ?_
  rw [Array.getElem?_append, Array.getElem?_replicate]
  unfold size at hsize
  by_cases hi : i < b.cells.size
  · have hkept : b.at? (s.origin + i) = some b.cells[i] := by
      rw [at?_origin_add, Array.getElem?_eq_getElem hi]
    rw [if_pos hi, ← at?_origin_add c, h.kept hkept, Array.getElem?_eq_getElem hi]
  · have hnone : b.at? (s.origin + i) = none := by
      rw [at?_origin_add, Array.getElem?_eq_none (by omega)]
    rw [if_neg hi]
    by_cases hextra : i < c.cells.size
    · have hvalue : c.at? (s.origin + i) = some c.cells[i] := by
        rw [at?_origin_add, Array.getElem?_eq_getElem hextra]
      rw [if_pos (by omega), Array.getElem?_eq_getElem hextra, h.blank hnone hvalue]
    · rw [if_neg (by omega), Array.getElem?_eq_none (by omega)]

/-- A bank still extends another one when the same is done to one cell of both, or to none. -/
theorem Extends.update (h : b.Extends c) {b' c' : Bank s}
    {update : Int → Option Int64 → Option Int64}
    (hupdate : ∀ n, (∀ old, update n old = old) ∨ ∃ v, ∀ old, update n old = some v)
    (hb : ∀ n, b'.at? n = update n (b.at? n)) (hc : ∀ n, c'.at? n = update n (c.at? n)) :
    b'.Extends c' where
  kept {number value} hvalue := by
    rw [hb] at hvalue
    rw [hc]
    rcases hupdate number with hsame | ⟨v, hnew⟩
    · rw [hsame] at hvalue ⊢
      exact h.kept hvalue
    · rw [hnew] at hvalue ⊢
      exact hvalue
  blank {number value} hnone hvalue := by
    rw [hb] at hnone
    rw [hc] at hvalue
    rcases hupdate number with hsame | ⟨v, hnew⟩
    · rw [hsame] at hnone hvalue
      exact h.blank hnone hvalue
    · rw [hnew] at hnone
      cases hnone

end Bank

/-! ## Effects on cells -/

namespace Effect

theorem register_cases (e : Effect) (number : Int) :
    (∀ old, e.register number old = old) ∨ ∃ v, ∀ old, e.register number old = some v := by
  cases e with
  | setRegister n v =>
    by_cases hn : number = n
    · exact .inr ⟨v, fun _ => if_pos hn⟩
    · exact .inl fun _ => if_neg hn
  | _ => exact .inl fun _ => rfl

theorem cell_cases (e : Effect) (address : Int) :
    (∀ old, e.cell address old = old) ∨ ∃ v, ∀ old, e.cell address old = some v := by
  cases e with
  | setCell a v =>
    by_cases ha : address = a
    · exact .inr ⟨v, fun _ => if_pos ha⟩
    · exact .inl fun _ => if_neg ha
  | _ => exact .inl fun _ => rfl

end Effect

namespace Machine

/-- The second machine has more cells, all of which hold 0, and is otherwise in the state of the
first. -/
structure Extends (m m' : Machine) : Prop where
  program : m'.program = m.program
  registers : m.registers.Extends m'.registers
  memory : m.memory.Extends m'.memory
  flags : m'.flags = m.flags
  pc : m'.pc = m.pc
  executed : m'.executed = m.executed
  halted : m'.halted = m.halted
  fault? : m'.fault? = m.fault?

variable {m m' : Machine}

/-! ## What is checked -/

namespace Extends

theorem labels_eq (h : m.Extends m') : m'.labels = m.labels := by
  rw [m'.labels_eq, m.labels_eq, h.program]

theorem current?_eq (h : m.Extends m') : m'.current? = m.current? := by
  rw [current?, current?, h.halted, h.fault?, h.program, h.pc]

theorem operand? (h : m.Extends m') {f : Flexible} {v : Int64} (hv : m.operand? f = some v) :
    m'.operand? f = some v := by
  cases f with
  | immediate i => exact hv
  | register r => exact h.registers.kept hv

theorem checks_eq (h : m.Extends m') (s : Statement) : m'.checks s = m.checks s := by
  cases s with
  | label l => rfl
  | instruction i =>
    cases i with
    | branch condition l => rw [checks_branch, checks_branch, h.flags]
    | _ => rfl

/-- What a statement finds on the smaller machine it finds on the larger one. -/
theorem met (h : m.Extends m') {s : Statement} (hmet : ∀ c ∈ m.checks s, c.Met m) :
    ∀ c ∈ m'.checks s, c.Met m' := by
  rw [h.checks_eq s]
  intro c hc
  have hold := hmet c hc
  cases c with
  | register r =>
    obtain ⟨v, hv⟩ := Option.isSome_iff_exists.1 (register_met_iff.1 hold)
    rw [register_met_iff, h.registers.kept hv]
    rfl
  | cell a =>
    obtain ⟨v, hv⟩ := Option.isSome_iff_exists.1 (cell_met_iff.1 hold)
    rw [cell_met_iff, h.memory.kept hv]
    rfl
  | notNegative f =>
    -- without its register the amount would not be negative on the smaller machine alone
    obtain ⟨v, hv⟩ := exists_operand?_eq fun d hd => hmet d (mem_checks_of_notNegative hc hd)
    intro n hn
    rw [h.operand? hv] at hn
    exact hold n (hv.trans hn)
  | declared l =>
    show l.name ∈ m'.program.declaredNames
    rw [h.program]
    exact hold

/-! ## What is asked for -/

/-- The table asks the larger machine for what it asks the smaller one. -/
theorem asks (h : m.Extends m') {s : Statement} {e : Effect} (hasks : m.Asks s e) :
    m'.Asks s e := by
  have hold := hasks
  cases hasks with
  | load read => exact .load (h.memory.kept read)
  | store read => exact .store (h.registers.kept read)
  | compute readLeft readRight gives =>
    exact .compute (h.registers.kept readLeft) (h.operand? readRight) gives
  | shift readValue readAmount notNegative gives =>
    exact .shift (h.registers.kept readValue) (h.operand? readAmount) notNegative gives
  | move read => exact .move (h.operand? read)
  | complement read gives => exact .complement (h.operand? read) gives
  | compare readLeft readRight compares =>
    exact .compare (h.registers.kept readLeft) (h.operand? readRight) compares
  | halt => exact .halt
  | label => exact .label
  | _ =>
    rw [asks_branch_iff, h.flags, h.labels_eq]
    exact asks_branch_iff.1 hold

/-- Machines that show the same effect are still one larger than the other. -/
theorem shows (h : m.Extends m') {e : Effect} {after after' : Machine} (hafter : m.Shows e after)
    (hafter' : m'.Shows e after') (hexecuted : after'.executed = after.executed) :
    after.Extends after' where
  program := by rw [hafter'.program, hafter.program, h.program]
  registers := h.registers.update e.register_cases hafter.register hafter'.register
  memory := h.memory.update e.cell_cases hafter.cell hafter'.cell
  flags := by rw [hafter'.flags, hafter.flags, h.flags]
  pc := by rw [hafter'.pc, hafter.pc, h.pc]
  executed := hexecuted
  halted := by rw [hafter'.halted, hafter.halted, h.halted]
  fault? := by rw [hafter'.fault?, hafter.fault?, h.fault?]

/-! ## Steps -/

/-- A statement that the smaller machine executes is executed by the larger one, to the same
effect. -/
theorem exists_step_eq_complete (h : m.Extends m') {s : Statement} {e : Effect} {after : Machine}
    (hs : m.current? = some s) (hperform : (performStatement s).run m = .ok () after)
    (hasks : m.Asks s e) :
    ∃ after', m'.ShowsOnly e after' ∧ m'.step = after'.complete m'.pc s := by
  have hnone := exists_performStatement_eq_ok_iff.1 ⟨after, hperform⟩
  have hmet : ∀ c ∈ m'.checks s, c.Met m' := h.met (firstFailure_eq_none_iff.1 hnone)
  rw [← h.current?_eq] at hs
  obtain ⟨e', after', hasks', hafter', hstep⟩ := Machine.exists_step_eq_complete hs hmet
  obtain rfl := (h.asks hasks).unique hasks'
  exact ⟨after', hafter', hstep⟩

/-- As long as the smaller machine meets no fault, the larger one does the same. -/
theorem step (h : m.Extends m') (hfault : m.step.machine.fault? = none) :
    m.step.machine.Extends m'.step.machine := by
  have hstep := m.happens_step
  generalize m.step = o at hstep hfault ⊢
  cases hstep with
  | nothing hdone =>
    rw [isDone, ← h.current?_eq] at hdone
    rw [step_of_isDone hdone]
    exact h
  | @executed s e after hs hperform hasks hafter =>
    obtain ⟨after', hafter', hstep⟩ := h.exists_step_eq_complete hs hperform hasks
    rw [hstep]
    refine h.shows (hafter.1.complete _ _) (hafter'.1.complete _ _) ?_
    rw [machine_complete, machine_complete]
    show after'.executed + 1 = after.executed + 1
    rw [hafter'.2.1, hafter.2.1, h.executed]
  | faulted _ _ => cases hfault

/-- As long as the smaller machine meets no fault, the larger one does the same, step after step. -/
theorem steps (h : m.Extends m') {n : Nat} (hfault : (m.steps n).fault? = none) :
    (m.steps n).Extends (m'.steps n) := by
  induction n with
  | zero => exact h
  | succ n ih =>
    have hbefore := ih (fault?_steps_of_le hfault n.le_succ)
    rw [steps_succ_last] at hfault ⊢
    rw [steps_succ_last]
    exact hbefore.step hfault

end Extends

/-- A larger machine is loaded with the program of a smaller one. -/
theorem extends_load (p : Program) {config larger : Config}
    (hregisters : config.registers ≤ larger.registers)
    (hmemory : config.memoryCapacity ≤ larger.memoryCapacity) :
    (load p config).Extends (load p larger) where
  program := rfl
  registers := Bank.extends_zeros hregisters
  memory := Bank.extends_zeros hmemory
  flags := rfl
  pc := rfl
  executed := rfl
  halted := rfl
  fault? := rfl

/-- A program is loaded into two machines, of which the second has at least as many registers and
memory cells.  If the smaller meets no fault in some number of steps, neither does the larger, and
after them it is in the same state: the registers and the memory cells that both have hold the same
values, and all others still hold 0. -/
theorem larger_does_the_same (p : Program) (config larger : Config)
    (hregisters : config.registers ≤ larger.registers)
    (hmemory : config.memoryCapacity ≤ larger.memoryCapacity) (n : Nat)
    (hfault : ((load p config).steps n).fault? = none) :
    let after := (load p config).steps n
    let after' := (load p larger).steps n
    after'.fault? = none ∧ after'.pc = after.pc ∧ after'.flags = after.flags ∧
      after'.executed = after.executed ∧ after'.halted = after.halted ∧
      after.registers.size = config.registers ∧ after.memory.size = config.memoryCapacity ∧
      after'.registers.cells =
        after.registers.cells ++ Array.replicate (larger.registers - config.registers) 0 ∧
      after'.memory.cells =
        after.memory.cells ++ Array.replicate (larger.memoryCapacity - config.memoryCapacity) 0 := by
  intro after after'
  have h : after.Extends after' := (extends_load p hregisters hmemory).steps hfault
  have hmake : (load p config).SameMake after := sameMake_steps n _
  have hmake' : (load p larger).SameMake after' := sameMake_steps n _
  have hr : after.registers.size = config.registers := hmake.registers_size.trans (Bank.size_zeros _)
  have hm : after.memory.size = config.memoryCapacity := hmake.memory_size.trans (Bank.size_zeros _)
  have hr' : after'.registers.size = larger.registers :=
    hmake'.registers_size.trans (Bank.size_zeros _)
  have hm' : after'.memory.size = larger.memoryCapacity :=
    hmake'.memory_size.trans (Bank.size_zeros _)
  exact ⟨h.fault?.trans hfault, h.pc, h.flags, h.executed, h.halted, hr, hm,
    h.registers.cells_eq (by omega), h.memory.cells_eq (by omega)⟩

/-- Puts 5 into `r1` and from there into the memory cell `0`, and compares `r1` with 3. -/
def storing : Program :=
  let r1 : Register := .ofValue .register 1
  [.instruction (.move r1 (.immediate (.ofValue .immediate 5))),
    .instruction (.store r1 (.ofValue .address 0)),
    .instruction (.compare r1 (.immediate (.ofValue .immediate 3)))]

/-- One register and one memory cell are enough, and two more of each stay 0. -/
theorem larger_does_the_same_storing :
    let after := (load storing ⟨1, 1, false⟩).steps 3
    let after' := (load storing ⟨3, 3, true⟩).steps 3
    after.fault? = none ∧ after.registers.cells = #[5] ∧ after.memory.cells = #[5] ∧
      after'.fault? = none ∧ after'.flags = ⟨false, true, true, false⟩ ∧
      after'.registers.cells = #[5, 0, 0] ∧ after'.memory.cells = #[5, 0, 0] := by
  intro after after'
  have hfault : after.fault? = none := by decide +kernel
  have hregisters : after.registers.cells = #[5] := by decide +kernel
  have hmemory : after.memory.cells = #[5] := by decide +kernel
  have hflags : after.flags = ⟨false, true, true, false⟩ := by decide +kernel
  obtain ⟨hfault', -, hflags', -, -, -, -, hregisters', hmemory'⟩ :=
    larger_does_the_same storing ⟨1, 1, false⟩ ⟨3, 3, true⟩ (by decide) (by decide) 3 hfault
  exact ⟨hfault, hregisters, hmemory, hfault', hflags'.trans hflags,
    hregisters'.trans (congrArg (· ++ _) hregisters), hmemory'.trans (congrArg (· ++ _) hmemory)⟩

end Machine

end AqaAssembly
