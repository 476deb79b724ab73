import AqaAssembly.Proofs.Machine.Calls
import AqaAssembly.Proofs.Machine.Traces
import Mathlib.Data.List.Chain
import Mathlib.Data.List.DropRight

/-!
# The history of a machine

Every statement that is executed gives a snapshot, whether the machine traces or not.  These
snapshots, one after another, are the history of the machine (`Machine.history`).  A history leads
from one machine to another (`Machine.Records`): each snapshot begins where the one before it has
ended, and the last shows the machine that is reached.

The main result is `Machine.records_faithfully`: whatever calls are made, the trace holds the end of
the history, and has counted the rest of it.
-/

namespace AqaAssembly

/-- What is seen of a machine between two statements. -/
structure View where
  registers : List Int64
  memory : List Int64
  flags : Flags
  pc : Nat

namespace Snapshot

/-- What the snapshot shows of the machine behind its statement. -/
def view (x : Snapshot) : View := ⟨x.registers, x.memory, x.flags, x.next⟩

/-- The snapshot names the statement at its place in the program, and the label if it is one. -/
def Names (p : Program) (x : Snapshot) : Prop :=
  ∃ s, p[x.pc]? = some s ∧ x.statement = s.text ∧ x.label? = s.label?.map Operand.Label.name

end Snapshot

namespace Machine

/-- The machine that is about to execute a program, with an empty trace of the given capacity. -/
def loadTraced (program : Program) (config : Config) (capacity : Nat) : Machine :=
  { load program config with trace := .empty capacity }

/-- What is seen of the machine. -/
def view (m : Machine) : View :=
  ⟨m.registers.cells.toList, m.memory.cells.toList, m.flags, m.pc⟩

/-- The snapshot after the next statement, if there is one and it can be executed. -/
def shown? (m : Machine) : Option Snapshot :=
  m.current?.bind fun s =>
    if m.step.fault?.isSome then none else some (m.step.machine.snapshot m.pc s)

/-- The snapshots after the statements that are executed in so many steps, in order. -/
def history : Nat → Machine → List Snapshot
  | 0, _ => []
  | n + 1, m => m.shown?.toList ++ history n m.step.machine

/-- The snapshots after the statements that are executed by calls, in order. -/
def historyOf : List Call → Machine → List Snapshot
  | [], _ => []
  | call :: calls, m => history call.limit m ++ historyOf calls (call.outcome m).machine

/-- The snapshots lead from a machine to another one. -/
structure Records (m : Machine) (xs : List Snapshot) (after : Machine) : Prop where
  program : after.program = m.program
  config : after.config = m.config
  executed : after.executed = m.executed + .ofNat xs.length
  trace : after.trace = if m.config.tracing then xs.foldl Trace.push m.trace else m.trace
  /-- The first statement is where the machine was. -/
  first : (xs.head?.map Snapshot.pc).getD after.pc = m.pc
  /-- Each statement is where the one before it has led. -/
  chain : xs.IsChain fun x y => x.next = y.pc
  /-- The last snapshot shows the machine as it is. -/
  last : (xs.getLast?.map Snapshot.view).getD m.view = after.view
  names : ∀ x ∈ xs, x.Names m.program

/-! ## One step -/

theorem shown?_of_isDone {m : Machine} (h : m.isDone) : m.shown? = none := by
  rw [isDone, Option.isNone_iff_eq_none] at h
  rw [shown?, h, Option.bind_none]

theorem shown?_of_ok {m after : Machine} {s : Statement} (hs : m.current? = some s)
    (h : (performStatement s).run m = .ok () after) : m.shown? = some (after.snapshot m.pc s) := by
  rw [shown?, hs, Option.bind_some, step_of_ok hs h, fault?_complete, snapshot_complete]
  rfl

theorem shown?_of_error {m after : Machine} {s : Statement} {f : Fault} (hs : m.current? = some s)
    (h : (performStatement s).run m = .error f after) : m.shown? = none := by
  rw [shown?, hs, Option.bind_some, step_of_error hs h]
  rfl

namespace Records

/-- A machine that goes on without a statement records nothing. -/
theorem refl (m : Machine) (fault? : Option Fault) : m.Records [] { m with fault? } where
  program := rfl
  config := rfl
  executed := (UInt64.add_zero _).symm
  trace := (ite_self _).symm
  first := rfl
  chain := .nil
  last := rfl
  names := nofun

/-- A statement that is executed leads on to the next. -/
theorem complete {m after : Machine} {s : Statement} {e : Effect} (hs : m.current? = some s)
    (h : m.ShowsOnly e after) :
    m.Records [after.snapshot m.pc s] (after.complete m.pc s).machine := by
  obtain ⟨hshows, hexecuted, htrace⟩ := h
  rw [machine_complete, htrace, hexecuted, hshows.config]
  exact {
    program := hshows.program
    config := rfl
    executed := rfl
    trace := rfl
    first := rfl
    chain := .singleton _
    last := rfl
    names := List.forall_mem_singleton.2 ⟨s, (current?_eq_some_iff.1 hs).2.2, rfl, rfl⟩ }

/-- What a call of `step` records. -/
theorem step (m : Machine) : m.Records m.shown?.toList m.step.machine := by
  have hstep := m.happens_step
  generalize m.step = o at hstep ⊢
  cases hstep with
  | nothing hdone =>
    rw [shown?_of_isDone hdone]
    exact refl m m.fault?
  | executed hs hperform _ hafter =>
    rw [shown?_of_ok hs hperform]
    exact complete hs hafter
  | faulted hs hperform =>
    rw [shown?_of_error hs hperform]
    exact refl m _

variable {m k l : Machine} {xs ys : List Snapshot}

/-- Histories can be put together. -/
theorem append (h : m.Records xs k) (h' : k.Records ys l) : m.Records (xs ++ ys) l where
  program := h'.program.trans h.program
  config := h'.config.trans h.config
  executed := by
    rw [h'.executed, h.executed, List.length_append, UInt64.ofNat_add, UInt64.add_assoc]
  trace := by
    rw [h'.trace, h.trace, h.config, List.foldl_append]
    split
    · rfl
    · rfl
  first := by
    have hfirst := h.first
    cases xs with
    | nil => exact h'.first.trans hfirst
    | cons x xs => exact hfirst
  chain := by
    refine List.isChain_append.2 ⟨h.chain, h'.chain, fun x hx y hy => ?_⟩
    have hlast := h.last
    have hfirst := h'.first
    rw [Option.mem_def.1 hx] at hlast
    rw [Option.mem_def.1 hy] at hfirst
    exact (congrArg View.pc hlast).trans hfirst.symm
  last := by
    rw [List.getLast?_append, ← h'.last, ← h.last]
    cases ys.getLast? with
    | none => rfl
    | some y => rfl
  names := by
    have hnames := h'.names
    rw [h.program] at hnames
    exact List.forall_mem_append.2 ⟨h.names, hnames⟩

end Records

/-! ## Any number of steps -/

/-- What any number of steps record. -/
theorem records_history (n : Nat) (m : Machine) : m.Records (history n m) (m.steps n) := by
  induction n generalizing m with
  | zero => exact .refl m m.fault?
  | succ n ih => exact (Records.step m).append (ih m.step.machine)

/-- What calls record. -/
theorem records_historyOf (calls : List Call) (m : Machine) :
    m.Records (historyOf calls m) (m.after calls) := by
  induction calls generalizing m with
  | nil => exact .refl m m.fault?
  | cons call calls ih =>
    refine Records.append ?_ (ih (call.outcome m).machine)
    rw [machine_outcome]
    exact records_history call.limit m

theorem historyOf_append (calls later : List Call) (m : Machine) :
    historyOf (calls ++ later) m = historyOf calls m ++ historyOf later (m.after calls) := by
  induction calls generalizing m with
  | nil => rfl
  | cons call calls ih =>
    rw [List.cons_append, historyOf, ih, historyOf, List.append_assoc, after_cons]

/-- A statement that cannot be executed records nothing. -/
theorem records_nil_of_fault {m : Machine} (h : m.step.fault?.isSome) :
    m.shown? = none ∧ m.Records [] m.step.machine := by
  have hshown : m.shown? = none := by
    rw [shown?]
    cases m.current? with
    | none => rfl
    | some s => rw [Option.bind_some, if_pos h]
  have hstep := Records.step m
  rw [hshown] at hstep
  exact ⟨hshown, hstep⟩

/-! ## Faithfulness -/

/-- A machine that traces holds the end of its history, and has counted the rest. -/
theorem Records.trace_of_empty {m after : Machine} {xs : List Snapshot} {c : Nat}
    (h : m.Records xs after) (hstart : m.trace = .empty c) (htracing : m.config.tracing) :
    after.trace.snapshots = xs.rtake (min xs.length c) ∧
      after.trace.dropped = .ofNat (xs.length - min xs.length c) ∧ after.trace.capacity = c := by
  rw [h.trace, if_pos htracing, hstart, Trace.snapshots_foldl_push_empty,
    Trace.dropped_foldl_push_empty, Trace.capacity_foldl_push]
  exact ⟨rfl, rfl, rfl⟩

/-- A machine is loaded with a program and an empty trace of any capacity, and called in any way.  If
fewer than `2 ^ 64` statements are executed, the machine has counted as many; and if it traces, it
holds the snapshots of the last of them, as many as fit, and has counted the others.  The first
statement is at the beginning of the program, and each of the others where the one before it has led.
A snapshot names the statement at its place, and the label if the statement is one.  The last
snapshot shows the machine as it is.  A statement that cannot be executed adds nothing.  A machine
that does not trace has an empty trace. -/
theorem records_faithfully (p : Program) (config : Config) (c : Nat) (calls : List Call) :
    let m := loadTraced p config c
    let after := m.after calls
    let xs := historyOf calls m
    (xs.length < 2 ^ 64 →
      xs.length = after.executed.toNat ∧
      (config.tracing → after.trace.snapshots = xs.rtake (min xs.length c) ∧
        after.trace.dropped.toNat = xs.length - min xs.length c ∧ after.trace.capacity = c)) ∧
    (∀ x ∈ xs.head?, x.pc = 0) ∧
    xs.IsChain (fun x y => x.next = y.pc) ∧
    (∀ x ∈ xs, ∃ s, p[x.pc]? = some s ∧ x.statement = s.text ∧
      x.label? = s.label?.map Operand.Label.name) ∧
    (∀ x ∈ xs.getLast?, x.registers = after.registers.cells.toList ∧
      x.memory = after.memory.cells.toList ∧ x.flags = after.flags ∧ x.next = after.pc) ∧
    (after.step.fault?.isSome → historyOf (calls ++ [.step]) m = xs ∧
      after.step.machine.trace = after.trace ∧ after.step.machine.executed = after.executed) ∧
    (config.tracing = false → after.trace = .empty c) := by
  intro m after xs
  have h : m.Records xs after := records_historyOf calls m
  refine ⟨fun hlt => ⟨?_, fun htracing => ?_⟩, fun x hx => ?_, h.chain, h.names, fun x hx => ?_,
    fun hfault => ?_, fun hquiet => ?_⟩
  · have hexecuted : after.executed = 0 + .ofNat xs.length := h.executed
    rw [hexecuted, UInt64.zero_add, UInt64.toNat_ofNat_of_lt' hlt]
  · obtain ⟨hsnapshots, hdropped, hcapacity⟩ := h.trace_of_empty (c := c) rfl htracing
    have hfits : xs.length - min xs.length c < 2 ^ 64 := (Nat.sub_le _ _).trans_lt hlt
    exact ⟨hsnapshots, by rw [hdropped, UInt64.toNat_ofNat_of_lt' hfits], hcapacity⟩
  · have hfirst := h.first
    rw [Option.mem_def.1 hx] at hfirst
    exact hfirst
  · have hlast := h.last
    rw [Option.mem_def.1 hx] at hlast
    exact ⟨congrArg View.registers hlast, congrArg View.memory hlast, congrArg View.flags hlast,
      congrArg View.pc hlast⟩
  · obtain ⟨hshown, hstep⟩ := records_nil_of_fault hfault
    refine ⟨?_, hstep.trace.trans (ite_self _), hstep.executed.trans (UInt64.add_zero _)⟩
    have hnothing : historyOf [.step] after = [] := by
      rw [historyOf, Call.limit, history, hshown]
      rfl
    rw [historyOf_append, hnothing, List.append_nil]
  · exact h.trace.trans (if_neg (Bool.eq_false_iff.1 hquiet))

/-- Doubles `r1` twice, and then reads the memory cell `500`. -/
def doublings : Program :=
  let r1 : Operand.Register := .ofValue .register 1
  let double : Statement := .instruction (.compute .add r1 r1 (.register r1))
  [double, double, .instruction (.load r1 (.ofValue .address 500))]

/-- A trace for one snapshot: of two doublings it has dropped the first, and reading a cell that is
not there adds nothing. -/
theorem records_faithfully_capacity_one :
    let m := loadTraced doublings ⟨1, 16, true⟩ 1
    let calls : List Call := [.step, .runFor 1]
    let after := m.after calls
    (historyOf calls m).length = 2 ∧ after.executed.toNat = 2 ∧
      after.trace.snapshots = (historyOf calls m).rtake 1 ∧ after.trace.dropped.toNat = 1 ∧
      after.step.fault?.isSome ∧ historyOf (calls ++ [.step]) m = historyOf calls m ∧
      after.step.machine.trace = after.trace := by
  dsimp only
  have hlength :
      (historyOf [.step, .runFor 1] (loadTraced doublings ⟨1, 16, true⟩ 1)).length = 2 := by
    decide +kernel
  have hfault :
      ((loadTraced doublings ⟨1, 16, true⟩ 1).after [.step, .runFor 1]).step.fault?.isSome := by
    decide +kernel
  obtain ⟨hcount, -, -, -, -, hnothing, -⟩ :=
    records_faithfully doublings ⟨1, 16, true⟩ 1 [.step, .runFor 1]
  rw [hlength] at hcount
  obtain ⟨hexecuted, htrace⟩ := hcount (by decide)
  obtain ⟨hsnapshots, hdropped, -⟩ := htrace rfl
  obtain ⟨hsame, hkept, -⟩ := hnothing hfault
  exact ⟨hlength, hexecuted.symm, hsnapshots, hdropped, hfault, hsame, hkept⟩

end Machine

end AqaAssembly
