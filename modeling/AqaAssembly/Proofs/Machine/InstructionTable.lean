import AqaAssembly.Proofs.Machine.Arithmetic
import AqaAssembly.Proofs.Machine.Checks

/-!
# The instruction table

What each statement is for, told without saying how it is executed.  `Machine.Asks` is the table: for
every statement it names the one thing that is to happen to the machine, as an `Effect`, in terms of
the values that the operands have before anything is written.  `Machine.Shows` says that one thing
and nothing else has happened.  A branch has a row for each condition and each value of its flag;
`asks_branch_iff` tells the nine of them in one.

The main result is `step_follows_table`: a statement that passes its checks is executed, and the
machine afterwards shows the effect that the table asks for.
-/

namespace AqaAssembly

open Operand

/-- What a statement does to a machine, apart from being counted and recorded. -/
inductive Effect
  /-- The register has a new value. -/
  | setRegister (number : Int) (value : Int64)
  /-- The memory cell has a new value. -/
  | setCell (address : Int) (value : Int64)
  /-- The flags are new. -/
  | setFlags (flags : Flags)
  /-- The statement at this place is the next. -/
  | goTo (place : Nat)
  /-- The machine is told to halt. -/
  | halt
  /-- Only the next statement is reached. -/
  | pass

namespace Effect

/-- The value of the register with the given number, which was `old`. -/
def register (number : Int) (old : Option Int64) : Effect → Option Int64
  | setRegister n value => if number = n then some value else old
  | _ => old

/-- The value of the memory cell with the given address, which was `old`. -/
def cell (address : Int) (old : Option Int64) : Effect → Option Int64
  | setCell a value => if address = a then some value else old
  | _ => old

/-- The flags, which were `old`. -/
def flags (old : Flags) : Effect → Flags
  | setFlags new => new
  | _ => old

/-- The place of the next statement, if the statement at the place `old` is executed. -/
def next (old : Nat) : Effect → Nat
  | goTo place => place
  | _ => old + 1

/-- Whether the machine is told to halt, given whether it was before. -/
def halted (old : Bool) : Effect → Bool
  | halt => true
  | _ => old

end Effect

/-- The flags say how one integer compares with another. -/
def Flags.Compare (left right : Int) (flags : Flags) : Prop :=
  (flags.equal ↔ left = right) ∧ (flags.notEqual ↔ left ≠ right) ∧
    (flags.greaterThan ↔ right < left) ∧ (flags.lessThan ↔ left < right)

namespace Machine

/-- The instruction table. -/
inductive Asks (m : Machine) : Statement → Effect → Prop
  | load {rd : Register} {a : Address} {v : Int64} (read : m.memory.at? a.value.toInt = some v) :
    Asks m (.instruction (.load rd a)) (.setRegister rd.value.toInt v)
  | store {rd : Register} {a : Address} {v : Int64}
    (read : m.registers.at? rd.value.toInt = some v) :
    Asks m (.instruction (.store rd a)) (.setCell a.value.toInt v)
  | compute {op : Operation} {rd rn : Register} {f : Flexible} {left right v : Int64}
    (readLeft : m.registers.at? rn.value.toInt = some left)
    (readRight : m.operand? f = some right) (gives : op.Gives left right v) :
    Asks m (.instruction (.compute op rd rn f)) (.setRegister rd.value.toInt v)
  | shift {direction : Shift} {rd rn : Register} {f : Flexible} {value amount v : Int64}
    (readValue : m.registers.at? rn.value.toInt = some value)
    (readAmount : m.operand? f = some amount) (notNegative : 0 ≤ amount.toInt)
    (gives : direction.Gives value amount v) :
    Asks m (.instruction (.shift direction rd rn f)) (.setRegister rd.value.toInt v)
  | move {rd : Register} {f : Flexible} {v : Int64} (read : m.operand? f = some v) :
    Asks m (.instruction (.move rd f)) (.setRegister rd.value.toInt v)
  | complement {rd : Register} {f : Flexible} {value v : Int64}
    (read : m.operand? f = some value) (gives : Complements value v) :
    Asks m (.instruction (.complement rd f)) (.setRegister rd.value.toInt v)
  | compare {rn : Register} {f : Flexible} {left right : Int64} {flags : Flags}
    (readLeft : m.registers.at? rn.value.toInt = some left)
    (readRight : m.operand? f = some right)
    (compares : flags.Compare left.toInt right.toInt) :
    Asks m (.instruction (.compare rn f)) (.setFlags flags)
  | branch {l : Label} {place : Nat} (declared : m.labels.lookup? l.name = some place) :
    Asks m (.instruction (.branch .always l)) (.goTo place)
  | branchEqual {l : Label} {place : Nat} (set : m.flags.equal = true)
    (declared : m.labels.lookup? l.name = some place) :
    Asks m (.instruction (.branch .equal l)) (.goTo place)
  | passEqual {l : Label} (unset : m.flags.equal = false) :
    Asks m (.instruction (.branch .equal l)) .pass
  | branchNotEqual {l : Label} {place : Nat} (set : m.flags.notEqual = true)
    (declared : m.labels.lookup? l.name = some place) :
    Asks m (.instruction (.branch .notEqual l)) (.goTo place)
  | passNotEqual {l : Label} (unset : m.flags.notEqual = false) :
    Asks m (.instruction (.branch .notEqual l)) .pass
  | branchGreaterThan {l : Label} {place : Nat} (set : m.flags.greaterThan = true)
    (declared : m.labels.lookup? l.name = some place) :
    Asks m (.instruction (.branch .greaterThan l)) (.goTo place)
  | passGreaterThan {l : Label} (unset : m.flags.greaterThan = false) :
    Asks m (.instruction (.branch .greaterThan l)) .pass
  | branchLessThan {l : Label} {place : Nat} (set : m.flags.lessThan = true)
    (declared : m.labels.lookup? l.name = some place) :
    Asks m (.instruction (.branch .lessThan l)) (.goTo place)
  | passLessThan {l : Label} (unset : m.flags.lessThan = false) :
    Asks m (.instruction (.branch .lessThan l)) .pass
  | halt : Asks m (.instruction .halt) .halt
  | label {l : Label} : Asks m (.label l) .pass

/-- Exactly this has happened to the machine, which was `m` before and is `after` now. -/
structure Shows (m : Machine) (e : Effect) (after : Machine) : Prop where
  register number : after.registers.at? number = e.register number (m.registers.at? number)
  registers_size : after.registers.size = m.registers.size
  cell address : after.memory.at? address = e.cell address (m.memory.at? address)
  memory_size : after.memory.size = m.memory.size
  flags : after.flags = e.flags m.flags
  pc : after.pc = e.next m.pc
  halted : after.halted = e.halted m.halted
  program : after.program = m.program
  labels : after.labels = m.labels
  config : after.config = m.config
  fault? : after.fault? = m.fault?

/-! ## The table is unambiguous -/

theorem flags_eq_of_compare {left right : Int} {f g : Flags} (hf : f.Compare left right)
    (hg : g.Compare left right) : f = g := by
  obtain ⟨he, hn, hgt, hlt⟩ := hf
  obtain ⟨he', hn', hgt', hlt'⟩ := hg
  have h1 : f.equal = g.equal := Bool.eq_iff_iff.2 (he.trans he'.symm)
  have h2 : f.notEqual = g.notEqual := Bool.eq_iff_iff.2 (hn.trans hn'.symm)
  have h3 : f.greaterThan = g.greaterThan := Bool.eq_iff_iff.2 (hgt.trans hgt'.symm)
  have h4 : f.lessThan = g.lessThan := Bool.eq_iff_iff.2 (hlt.trans hlt'.symm)
  cases f
  cases g
  simp_all

theorem compare_compare (left right : Int64) :
    (Flags.compare left right).Compare left.toInt right.toInt := by
  refine ⟨?_, ?_, ?_, ?_⟩
  · rw [Int64.toInt_inj]
    exact decide_eq_true_iff
  · rw [Ne, Int64.toInt_inj]
    exact decide_eq_true_iff
  · rw [← Int64.lt_iff_toInt_lt]
    exact decide_eq_true_iff
  · rw [← Int64.lt_iff_toInt_lt]
    exact decide_eq_true_iff

/-- The rows of the five branches, told in one. -/
theorem asks_branch_iff {m : Machine} {condition : Condition} {l : Label} {e : Effect} :
    m.Asks (.instruction (.branch condition l)) e ↔
      (condition.holds m.flags = true ∧
        ∃ place, m.labels.lookup? l.name = some place ∧ e = .goTo place) ∨
      (condition.holds m.flags = false ∧ e = .pass) := by
  constructor
  · intro h
    cases h with
    | branch declared => exact .inl ⟨rfl, _, declared, rfl⟩
    | branchEqual set declared => exact .inl ⟨set, _, declared, rfl⟩
    | branchNotEqual set declared => exact .inl ⟨set, _, declared, rfl⟩
    | branchGreaterThan set declared => exact .inl ⟨set, _, declared, rfl⟩
    | branchLessThan set declared => exact .inl ⟨set, _, declared, rfl⟩
    | passEqual unset => exact .inr ⟨unset, rfl⟩
    | passNotEqual unset => exact .inr ⟨unset, rfl⟩
    | passGreaterThan unset => exact .inr ⟨unset, rfl⟩
    | passLessThan unset => exact .inr ⟨unset, rfl⟩
  · rintro (⟨holds, place, declared, rfl⟩ | ⟨fails, rfl⟩)
    · cases condition with
      | always => exact .branch declared
      | equal => exact .branchEqual holds declared
      | notEqual => exact .branchNotEqual holds declared
      | greaterThan => exact .branchGreaterThan holds declared
      | lessThan => exact .branchLessThan holds declared
    · cases condition with
      | always => cases fails
      | equal => exact .passEqual fails
      | notEqual => exact .passNotEqual fails
      | greaterThan => exact .passGreaterThan fails
      | lessThan => exact .passLessThan fails

/-- Only a branch goes anywhere but to the following statement, and it goes where its label is
declared. -/
theorem Asks.exists_branch {m : Machine} {s : Statement} {place : Nat}
    (h : m.Asks s (.goTo place)) :
    ∃ condition l, s = .instruction (.branch condition l) ∧
      m.labels.lookup? l.name = some place := by
  cases h with
  | branch declared => exact ⟨_, _, rfl, declared⟩
  | branchEqual _ declared => exact ⟨_, _, rfl, declared⟩
  | branchNotEqual _ declared => exact ⟨_, _, rfl, declared⟩
  | branchGreaterThan _ declared => exact ⟨_, _, rfl, declared⟩
  | branchLessThan _ declared => exact ⟨_, _, rfl, declared⟩

/-- A branch goes to one place or is passed. -/
theorem asks_branch_unique {m : Machine} {condition : Condition} {l : Label} {e e' : Effect}
    (h : m.Asks (.instruction (.branch condition l)) e)
    (h' : m.Asks (.instruction (.branch condition l)) e') : e = e' := by
  rw [asks_branch_iff] at h h'
  obtain ⟨holds, place, declared, rfl⟩ | ⟨fails, rfl⟩ := h
  · obtain ⟨-, place', declared', rfl⟩ | ⟨fails', -⟩ := h'
    · rw [Option.some.inj (declared.symm.trans declared')]
    · rw [holds] at fails'
      cases fails'
  · obtain ⟨holds', -⟩ | ⟨-, rfl⟩ := h'
    · rw [fails] at holds'
      cases holds'
    · rfl

/-- The table asks for at most one thing. -/
theorem Asks.unique {m : Machine} {s : Statement} {e e' : Effect} (h : m.Asks s e)
    (h' : m.Asks s e') : e = e' := by
  have hasks := h
  cases h with
  | load read =>
    cases h' with
    | load read' =>
      obtain rfl := Option.some.inj (read.symm.trans read')
      rfl
  | store read =>
    cases h' with
    | store read' =>
      obtain rfl := Option.some.inj (read.symm.trans read')
      rfl
  | compute readLeft readRight gives =>
    cases h' with
    | compute readLeft' readRight' gives' =>
      obtain rfl := Option.some.inj (readLeft.symm.trans readLeft')
      obtain rfl := Option.some.inj (readRight.symm.trans readRight')
      rw [(Operation.gives_iff _).1 gives, (Operation.gives_iff _).1 gives']
  | shift readValue readAmount notNegative gives =>
    cases h' with
    | shift readValue' readAmount' _ gives' =>
      obtain rfl := Option.some.inj (readValue.symm.trans readValue')
      obtain rfl := Option.some.inj (readAmount.symm.trans readAmount')
      rw [(Shift.gives_iff notNegative _).1 gives, (Shift.gives_iff notNegative _).1 gives']
  | move read =>
    cases h' with
    | move read' =>
      obtain rfl := Option.some.inj (read.symm.trans read')
      rfl
  | complement read gives =>
    cases h' with
    | complement read' gives' =>
      obtain rfl := Option.some.inj (read.symm.trans read')
      rw [complements_iff.1 gives, complements_iff.1 gives']
  | compare readLeft readRight compares =>
    cases h' with
    | compare readLeft' readRight' compares' =>
      obtain rfl := Option.some.inj (readLeft.symm.trans readLeft')
      obtain rfl := Option.some.inj (readRight.symm.trans readRight')
      rw [flags_eq_of_compare compares compares']
  | halt =>
    cases h'
    rfl
  | label =>
    cases h'
    rfl
  | _ => exact asks_branch_unique hasks h'

/-! ## Executing a statement -/

/-- A course that ends without a fault has done so in each of its parts. -/
theorem exists_of_run_bind_eq_ok {α β : Type} {x : Course α} {k : α → Course β}
    {m after : Machine} {b : β} (h : (x >>= k).run m = .ok b after) :
    ∃ a between, x.run m = .ok a between ∧ (k a).run between = .ok b after := by
  cases hx : x.run m with
  | ok a between => exact ⟨a, between, rfl, (run_bind_of_ok hx).symm.trans h⟩
  | error f between =>
    rw [run_bind_of_error hx] at h
    cases h

/-- What was looked up was found, and the rest is done on the same machine. -/
theorem exists_of_run_look_bind_eq_ok {α β : Type} {what : Machine → Except Fault α}
    {k : α → Course β} {m after : Machine} {b : β}
    (h : (look what >>= k).run m = .ok b after) :
    ∃ a, what m = .ok a ∧ (k a).run m = .ok b after := by
  obtain ⟨a, between, hlook, hrest⟩ := exists_of_run_bind_eq_ok h
  obtain ⟨hwhat, rfl⟩ := run_look_eq_ok_iff.1 hlook
  exact ⟨a, hwhat, hrest⟩

theorem amount_eq_ok {m : Machine} {f : Flexible} {n : Int64} (h : m.amount f = .ok n) :
    m.operand? f = some n ∧ 0 ≤ n.toInt := by
  rw [amount_eq_bind] at h
  cases hvalue : m.value f with
  | error g =>
    rw [hvalue] at h
    cases h
  | ok k =>
    simp only [hvalue, bind, Except.bind] at h
    split at h
    · cases h
    · rename_i hneg
      cases h
      refine ⟨value_eq_ok_iff.1 hvalue, ?_⟩
      rw [Int64.lt_iff_toInt_lt] at hneg
      exact Int.not_lt.1 hneg

theorem target_eq_ok {m : Machine} {l : Label} {i : Nat} (h : m.target l = .ok i) :
    m.labels.lookup? l.name = some i := by
  unfold target at h
  split at h
  · rename_i j hj
    cases h
    exact hj
  · cases h

/-- Only the effect has happened, and nothing has been counted or recorded yet. -/
def ShowsOnly (m : Machine) (e : Effect) (after : Machine) : Prop :=
  m.Shows e after ∧ after.executed = m.executed ∧ after.trace = m.trace

/-- An effect that is neither on registers nor on memory. -/
theorem showsOnly_of_rest {m : Machine} {e : Effect} (hr : ∀ n old, e.register n old = old)
    (hc : ∀ a old, e.cell a old = old) :
    m.ShowsOnly e
      { m with flags := e.flags m.flags, pc := e.next m.pc, halted := e.halted m.halted } :=
  ⟨⟨fun n => (hr n _).symm, rfl, fun a => (hc a _).symm, rfl, rfl, rfl, rfl, rfl, rfl, rfl, rfl⟩,
    rfl, rfl⟩

/-- Putting a value into a register does nothing else. -/
theorem showsOnly_setRegister {m after : Machine} {r : Register} {v : Int64} {place : Nat}
    (h : (do setRegister r v; return m.pc + 1 : Course Nat).run m = .ok place after) :
    m.ShowsOnly (.setRegister r.value.toInt v) { after with pc := place } := by
  obtain ⟨⟨⟩, between, hset, hrest⟩ := exists_of_run_bind_eq_ok h
  cases hrest
  obtain ⟨registers, hregisters, hset⟩ := exists_of_run_look_bind_eq_ok hset
  cases hset
  refine ⟨⟨?_, ?_, fun _ => rfl, rfl, rfl, rfl, rfl, rfl, rfl, rfl, rfl⟩, rfl, rfl⟩
  · exact Bank.at?_of_set hregisters
  · exact Bank.size_of_set hregisters

/-- Putting a value into a memory cell does nothing else. -/
theorem showsOnly_setCell {m after : Machine} {a : Address} {v : Int64} {place : Nat}
    (h : (do setCell a v; return m.pc + 1 : Course Nat).run m = .ok place after) :
    m.ShowsOnly (.setCell a.value.toInt v) { after with pc := place } := by
  obtain ⟨⟨⟩, between, hset, hrest⟩ := exists_of_run_bind_eq_ok h
  cases hrest
  obtain ⟨memory, hmemory, hset⟩ := exists_of_run_look_bind_eq_ok hset
  cases hset
  refine ⟨⟨fun _ => rfl, rfl, ?_, ?_, rfl, rfl, rfl, rfl, rfl, rfl, rfl⟩, rfl, rfl⟩
  · exact Bank.at?_of_set hmemory
  · exact Bank.size_of_set hmemory

/-- An instruction that is executed does what the table asks for. -/
theorem exists_asks_of_perform {m after : Machine} {i : Instruction} {place : Nat}
    (h : (perform (m.pc + 1) i).run m = .ok place after) :
    ∃ e, m.Asks (.instruction i) e ∧ m.ShowsOnly e { after with pc := place } := by
  have rest (e : Effect) := showsOnly_of_rest (m := m) (e := e)
  cases i with
  | load rd a =>
    obtain ⟨v, hv, h⟩ := exists_of_run_look_bind_eq_ok h
    exact ⟨_, .load (Bank.get_eq_ok_iff.1 hv), showsOnly_setRegister h⟩
  | store rd a =>
    obtain ⟨v, hv, h⟩ := exists_of_run_look_bind_eq_ok h
    exact ⟨_, .store (Bank.get_eq_ok_iff.1 hv), showsOnly_setCell h⟩
  | compute op rd rn f =>
    obtain ⟨left, hl, h⟩ := exists_of_run_look_bind_eq_ok h
    obtain ⟨right, hr, h⟩ := exists_of_run_look_bind_eq_ok h
    have gives : op.Gives left right (op.apply left right) := (Operation.gives_iff op).2 rfl
    exact ⟨_, .compute (Bank.get_eq_ok_iff.1 hl) (value_eq_ok_iff.1 hr) gives,
      showsOnly_setRegister h⟩
  | shift direction rd rn f =>
    obtain ⟨v, hv, h⟩ := exists_of_run_look_bind_eq_ok h
    obtain ⟨n, hn, h⟩ := exists_of_run_look_bind_eq_ok h
    obtain ⟨hread, hn0⟩ := amount_eq_ok hn
    have gives : direction.Gives v n (direction.apply v n) :=
      (Shift.gives_iff hn0 direction).2 rfl
    exact ⟨_, .shift (Bank.get_eq_ok_iff.1 hv) hread hn0 gives, showsOnly_setRegister h⟩
  | move rd f =>
    obtain ⟨v, hv, h⟩ := exists_of_run_look_bind_eq_ok h
    exact ⟨_, .move (value_eq_ok_iff.1 hv), showsOnly_setRegister h⟩
  | complement rd f =>
    obtain ⟨v, hv, h⟩ := exists_of_run_look_bind_eq_ok h
    have gives : Complements v (~~~v) := complements_iff.2 rfl
    exact ⟨_, .complement (value_eq_ok_iff.1 hv) gives, showsOnly_setRegister h⟩
  | compare rn f =>
    obtain ⟨left, hl, h⟩ := exists_of_run_look_bind_eq_ok h
    obtain ⟨right, hr, h⟩ := exists_of_run_look_bind_eq_ok h
    cases h
    have compares := compare_compare left right
    exact ⟨_, .compare (Bank.get_eq_ok_iff.1 hl) (value_eq_ok_iff.1 hr) compares,
      rest (.setFlags (.compare left right)) (fun _ _ => rfl) fun _ _ => rfl⟩
  | branch condition l =>
    rw [perform, run_bind_of_ok (EStateM.run_get m)] at h
    split at h
    · rename_i holds
      obtain ⟨htarget, rfl⟩ := run_look_eq_ok_iff.1 h
      exact ⟨_, asks_branch_iff.2 (.inl ⟨holds, place, target_eq_ok htarget, rfl⟩),
        rest (.goTo place) (fun _ _ => rfl) fun _ _ => rfl⟩
    · rename_i fails
      cases h
      exact ⟨_, asks_branch_iff.2 (.inr ⟨Bool.eq_false_iff.2 fails, rfl⟩),
        rest .pass (fun _ _ => rfl) fun _ _ => rfl⟩
  | halt =>
    cases h
    exact ⟨_, .halt, rest .halt (fun _ _ => rfl) fun _ _ => rfl⟩

/-- A statement that is executed does what the table asks for. -/
theorem exists_asks_of_performStatement {m after : Machine} {s : Statement}
    (h : (performStatement s).run m = .ok () after) :
    ∃ e, m.Asks s e ∧ m.ShowsOnly e after := by
  rw [performStatement, run_bind_of_ok (EStateM.run_get m)] at h
  obtain ⟨place, between, hplace, hafter⟩ := exists_of_run_bind_eq_ok h
  cases hafter
  cases s with
  | label l =>
    cases hplace
    exact ⟨.pass, .label, showsOnly_of_rest (e := .pass) (fun _ _ => rfl) fun _ _ => rfl⟩
  | instruction i => exact exists_asks_of_perform hplace

/-! ## Counting and recording a statement -/

/-- A statement that was executed is counted, and recorded if the machine traces. -/
theorem machine_complete (m : Machine) (pc : Nat) (s : Statement) :
    (m.complete pc s).machine =
      { m with
        executed := m.executed + 1
        trace := if m.config.tracing then m.trace.push (m.snapshot pc s) else m.trace } := by
  rw [complete]
  split
  · rfl
  · rfl

theorem fault?_complete (m : Machine) (pc : Nat) (s : Statement) :
    (m.complete pc s).fault? = none := by
  rw [complete]
  split
  · rfl
  · rfl

/-- Counting and recording a statement does nothing else to the machine. -/
theorem Shows.complete {m after : Machine} {e : Effect} (h : m.Shows e after) (pc : Nat)
    (s : Statement) : m.Shows e (after.complete pc s).machine := by
  rw [machine_complete]
  exact ⟨h.register, h.registers_size, h.cell, h.memory_size, h.flags, h.pc, h.halted,
    h.program, h.labels, h.config, h.fault?⟩

/-- The snapshot is of the machine as it is now, counted or not. -/
theorem snapshot_complete (m : Machine) (pc : Nat) (s : Statement) :
    (m.complete pc s).machine.snapshot pc s = m.snapshot pc s := by
  rw [machine_complete]
  rfl

/-- A statement all of whose checks are met is executed as the table asks for, and then counted and
recorded. -/
theorem exists_step_eq_complete {m : Machine} {s : Statement} (hs : m.current? = some s)
    (hmet : ∀ c ∈ m.checks s, c.Met m) :
    ∃ e after, m.Asks s e ∧ m.ShowsOnly e after ∧ m.step = after.complete m.pc s := by
  obtain ⟨after, hafter⟩ := exists_performStatement_eq_ok_iff.2 (firstFailure_eq_none_iff.2 hmet)
  obtain ⟨e, hasks, hshows⟩ := exists_asks_of_performStatement hafter
  exact ⟨e, after, hasks, hshows, step_of_ok hs hafter⟩

/-- A statement all of whose checks are met is executed, with the effect that the table asks for. -/
theorem step_of_met {m : Machine} {s : Statement} (hs : m.current? = some s)
    (hmet : ∀ c ∈ m.checks s, c.Met m) :
    m.step.fault? = none ∧ ∃ e, m.Asks s e ∧ m.Shows e m.step.machine := by
  obtain ⟨e, after, hasks, ⟨hshows, -⟩, hstep⟩ := exists_step_eq_complete hs hmet
  rw [hstep]
  exact ⟨fault?_complete .., e, hasks, hshows.complete ..⟩

/-- A statement that passes its checks is executed: the call ends without a fault, the table asks for
exactly one effect, and the machine afterwards shows this effect and nothing else, apart from one
more statement counted and, if the machine traces, its snapshot recorded. -/
theorem step_follows_table {m : Machine} {s : Statement} (h : ¬ m.isDone)
    (hs : m.program[m.pc]? = some s) (hpass : ∀ c ∈ m.checks s, c.Met m) :
    m.step.fault? = none ∧
      (∃ e, (∀ e', m.Asks s e' ↔ e' = e) ∧ m.Shows e m.step.machine) ∧
      (m.executed.toNat < 2 ^ 64 - 1 →
        m.step.machine.executed.toNat = m.executed.toNat + 1) ∧
      m.step.machine.trace =
        if m.config.tracing then m.trace.push (m.step.machine.snapshot m.pc s) else m.trace := by
  have hcurrent : m.current? = some s := by
    obtain ⟨t, ht⟩ := exists_current?_of_not_isDone h
    have hprogram := (current?_eq_some_iff.1 ht).2.2
    rw [ht, ← hprogram, hs]
  obtain ⟨e, after, hasks, ⟨hshows, hexecuted, htrace⟩, hstep⟩ :=
    exists_step_eq_complete hcurrent hpass
  rw [hstep]
  refine ⟨fault?_complete .., ⟨e, fun e' => ⟨fun h' => h'.unique hasks, ?_⟩, hshows.complete ..⟩,
    fun hlt => ?_, ?_⟩
  · rintro rfl
    exact hasks
  · rw [machine_complete, hexecuted]
    have hone : (1 : UInt64).toNat = 1 := rfl
    show (m.executed + 1).toNat = m.executed.toNat + 1
    rw [UInt64.toNat_add, hone]
    exact Nat.mod_eq_of_lt (by omega)
  · rw [snapshot_complete, machine_complete, htrace, hshows.config]

/-- `ADD r1, r1, r1`, about to be executed where `r1` holds the largest value. -/
def doubling : Machine :=
  let r1 : Register := .ofValue .register 1
  { load [.instruction (.compute .add r1 r1 (.register r1))] ⟨2, 0, true⟩ with
    registers := ⟨#[Int64.maxValue, 5]⟩ }

/-- The largest value doubled is -2, and only the one register changes. -/
theorem step_doubling : ∃ s, doubling.program[doubling.pc]? = some s ∧
    (∀ c ∈ doubling.checks s, c.Met doubling) ∧ doubling.step.fault? = none ∧
    doubling.Shows (.setRegister 1 (-2)) doubling.step.machine := by
  let r1 : Register := .ofValue .register 1
  refine ⟨.instruction (.compute .add r1 r1 (.register r1)), rfl, by decide, ?_⟩
  obtain ⟨hfault, ⟨e, hasks, hshows⟩, -⟩ :=
    step_follows_table (m := doubling) (by decide) rfl (by decide)
  have hread : doubling.registers.at? r1.value.toInt = some Int64.maxValue := by decide
  have hsum : Operation.add.Gives Int64.maxValue Int64.maxValue (-2) :=
    (Operation.gives_iff .add).2 (by decide)
  obtain rfl := (hasks (.setRegister 1 (-2))).1 (.compute hread hread hsum)
  exact ⟨hfault, hshows⟩

end Machine

end AqaAssembly
