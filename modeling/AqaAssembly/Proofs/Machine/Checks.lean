import AqaAssembly.Machine.Run
import AqaAssembly.Proofs.Machine.Cells
import AqaAssembly.Proofs.Program.Labels

/-!
# What is checked before a statement is executed

Every statement asks something of its operands: that a register or a memory cell exists, that the
amount of a shift is not negative, that a label is declared.  `Machine.checks` lists what a statement
asks, in order, and `Machine.firstFailure` is the fault of the first thing that is not so.

The machine is changed in place, and nothing is undone when a fault is met.  What is looked up changes
nothing (`Guards.look_bind`), and behind the last check the machine is changed without any further
look (`Guards.bind_sure`).  Every instruction is put together in these two ways.

* `guards_performStatement`: a statement ends with a fault exactly if one of its checks fails, the
  fault is that of the first check that does, and nothing has been changed by then;
* `step_faults_atomically`: a fault changes nothing else, and nothing happens after it.
-/

namespace AqaAssembly

open Operand

/-- The names of the labels that a program declares. -/
def Program.declaredNames (p : Program) : List String :=
  p.filterMap fun s => s.label?.map Label.name

/-- Something that has to be so before a statement is executed. -/
inductive Check
  /-- The machine has the register. -/
  | register (r : Register)
  /-- The machine has the memory cell. -/
  | cell (a : Address)
  /-- The value of the operand is not negative. -/
  | notNegative (f : Flexible)
  /-- The program declares the label. -/
  | declared (l : Label)

/-- The registers that a flexible operand reads. -/
def Operand.Flexible.checks : Flexible → List Check
  | immediate _ => []
  | register r => [.register r]

namespace Machine

/-- The value of a flexible operand, if the machine has the register that it may be. -/
def operand? (m : Machine) : Flexible → Option Int64
  | .immediate i => some i.value
  | .register r => m.registers.at? r.value.toInt

end Machine

namespace Check

/-- Is it so? -/
def Met (m : Machine) : Check → Prop
  | register r => 1 ≤ r.value.toInt ∧ r.value.toInt ≤ m.registers.size
  | cell a => 0 ≤ a.value.toInt ∧ a.value.toInt < m.memory.size
  | notNegative f => ∀ n ∈ m.operand? f, 0 ≤ n.toInt
  | declared l => l.name ∈ m.program.declaredNames

instance (m : Machine) : DecidablePred (Met m)
  | register _ | cell _ => instDecidableAnd
  | notNegative f => Option.decidableForallMem (m.operand? f)
  | declared l => inferInstanceAs (Decidable (l.name ∈ m.program.declaredNames))

/-- What is wrong when it is not so. -/
def cause : Check → Fault.Cause
  | register _ => .registerOutOfRange
  | cell _ => .addressOutOfRange
  | notNegative _ => .negativeShift
  | declared _ => .undeclaredLabel

/-- The token of the operand concerned. -/
def token : Check → Token
  | register r => r.token
  | cell a => a.token
  | notNegative f => f.token
  | declared l => l.token

/-- The fault that is raised when it is not so. -/
def fault (c : Check) : Fault := ⟨c.cause, c.token⟩

end Check

namespace Machine

/-- What a statement asks for, in the order in which it is looked at.  A branch asks for its label,
and a conditional branch only if its flag is set. -/
def checks (m : Machine) : Statement → List Check
  | .instruction (.load rd a) => [.cell a, .register rd]
  | .instruction (.store rd a) => [.register rd, .cell a]
  | .instruction (.compute _ rd rn f) => .register rn :: (f.checks ++ [.register rd])
  | .instruction (.shift _ rd rn f) =>
    .register rn :: (f.checks ++ [.notNegative f, .register rd])
  | .instruction (.move rd f) => f.checks ++ [.register rd]
  | .instruction (.complement rd f) => f.checks ++ [.register rd]
  | .instruction (.compare rn f) => .register rn :: f.checks
  | .instruction (.branch .always l) => [.declared l]
  | .instruction (.branch .equal l) => if m.flags.equal then [.declared l] else []
  | .instruction (.branch .notEqual l) => if m.flags.notEqual then [.declared l] else []
  | .instruction (.branch .greaterThan l) => if m.flags.greaterThan then [.declared l] else []
  | .instruction (.branch .lessThan l) => if m.flags.lessThan then [.declared l] else []
  | .instruction .halt => []
  | .label _ => []

/-- The fault of the first check that fails. -/
def firstFailure (m : Machine) (cs : List Check) : Option Fault :=
  (cs.find? fun c => ¬ c.Met m).map Check.fault

/-! ## Checks one after another -/

theorem firstFailure_append (m : Machine) (cs ds : List Check) :
    m.firstFailure (cs ++ ds) = (m.firstFailure cs).or (m.firstFailure ds) := by
  rw [firstFailure, List.find?_append, Option.map_or]
  rfl

theorem firstFailure_singleton (m : Machine) (c : Check) :
    m.firstFailure [c] = if c.Met m then none else some c.fault := by
  rw [firstFailure, List.find?_singleton]
  by_cases h : c.Met m
  · simp [h]
  · simp [h]

theorem firstFailure_eq_none_iff {m : Machine} {cs : List Check} :
    m.firstFailure cs = none ↔ ∀ c ∈ cs, c.Met m := by
  rw [firstFailure, Option.map_eq_none_iff, List.find?_eq_none]
  exact forall₂_congr fun c _ => by simp

/-! ## Courses and checks -/

/-- The checks foresee how the course ends on the machine. -/
inductive Guards {α : Type} (m : Machine) (cs : List Check) (x : Course α) : Prop
  /-- Every check is met, and the course ends without a fault. -/
  | passed {a : α} {after : Machine} (hrun : x.run m = .ok a after)
    (hnone : m.firstFailure cs = none)
  /-- The course ends with the fault of the first check that is not met, and nothing has been changed
  by then. -/
  | refused {f : Fault} (hrun : x.run m = .error f m) (hsome : m.firstFailure cs = some f)

/-- The course ends without a fault, whatever the machine. -/
def Sure {α : Type} (x : Course α) : Prop := ∀ m, ∃ a after, x.run m = .ok a after

variable {m : Machine} {α β : Type}

theorem sure_pure (a : α) : Sure (pure a) := fun m => ⟨a, m, rfl⟩

theorem sure_modify (change : Machine → Machine) : Sure (modify change) :=
  fun m => ⟨(), change m, rfl⟩

theorem Sure.bind {x : Course α} {k : α → Course β} (hx : Sure x) (hk : ∀ a, Sure (k a)) :
    Sure (x >>= k) := by
  intro m
  obtain ⟨a, between, ha⟩ := hx m
  obtain ⟨b, after, hb⟩ := hk a between
  exact ⟨b, after, (run_bind_of_ok ha).trans hb⟩

/-- A course that cannot end with a fault asks for nothing. -/
theorem Sure.guards {x : Course α} (h : Sure x) : m.Guards [] x := by
  obtain ⟨a, after, hrun⟩ := h m
  exact .passed hrun rfl

/-- The machine itself is there without any check. -/
theorem guards_get_bind {cs : List Check} {k : Machine → Course α} (h : m.Guards cs (k m)) :
    m.Guards cs (get >>= k) := by
  cases h with
  | passed hrun hnone => exact .passed hrun hnone
  | refused hrun hsome => exact .refused hrun hsome

/-- Something that is looked up first is checked first, and changes nothing for what follows. -/
theorem Guards.look_bind {cs ds : List Check} {what : Machine → Except Fault α}
    {k : α → Course β} (hx : m.Guards cs (look what))
    (hk : ∀ a, what m = .ok a → m.Guards ds (k a)) : m.Guards (cs ++ ds) (look what >>= k) := by
  cases hx with
  | @passed a after hrun hnone =>
    obtain ⟨hm, rfl⟩ := run_look_eq_ok_iff.1 hrun
    have hlist : after.firstFailure (cs ++ ds) = after.firstFailure ds := by
      rw [firstFailure_append, hnone, Option.none_or]
    cases hk a hm with
    | passed hrest hds => exact .passed ((run_bind_of_ok hrun).trans hrest) (hlist.trans hds)
    | refused hrest hds => exact .refused ((run_bind_of_ok hrun).trans hrest) (hlist.trans hds)
  | refused hrun hsome =>
    refine .refused (run_bind_of_error hrun) ?_
    rw [firstFailure_append, hsome, Option.some_or]

/-- Behind the last check the machine may be changed: no fault is possible any more. -/
theorem Guards.bind_sure {cs : List Check} {x : Course α} {k : α → Course β}
    (hx : m.Guards cs x) (hk : ∀ a, Sure (k a)) : m.Guards cs (x >>= k) := by
  cases hx with
  | @passed a between hrun hnone =>
    obtain ⟨b, after, hb⟩ := hk a between
    exact .passed ((run_bind_of_ok hrun).trans hb) hnone
  | refused hrun hsome => exact .refused (run_bind_of_error hrun) hsome

/-! ## What the parts of a statement ask for -/

/-- Something that is looked up and found exactly if one check is met. -/
theorem guards_look {c : Check} {what : Machine → Except Fault α}
    (h : ∀ f, what m = .error f ↔ ¬ c.Met m ∧ f = c.fault) : m.Guards [c] (look what) := by
  cases hm : what m with
  | ok a =>
    have hmet : c.Met m := Decidable.of_not_not fun hfails => by
      rw [(h c.fault).2 ⟨hfails, rfl⟩] at hm
      cases hm
    exact .passed (by rw [run_look, hm]) (by rw [firstFailure_singleton, if_pos hmet])
  | error f =>
    obtain ⟨hfails, rfl⟩ := (h f).1 hm
    exact .refused (by rw [run_look, hm]) (by rw [firstFailure_singleton, if_neg hfails])

/-- Something that is looked up and always found. -/
theorem guards_look_of_ok {what : Machine → Except Fault α} {a : α} (h : what m = .ok a) :
    m.Guards [] (look what) :=
  .passed (by rw [run_look, h]) rfl

theorem register_met_iff {r : Register} :
    (Check.register r).Met m ↔ (m.registers.at? r.value.toInt).isSome := by
  rw [Bank.at?_isSome_iff]
  simp only [Check.Met, Storage.origin]
  omega

theorem cell_met_iff {a : Address} :
    (Check.cell a).Met m ↔ (m.memory.at? a.value.toInt).isSome := by
  rw [Bank.at?_isSome_iff]
  simp only [Check.Met, Storage.origin]
  omega

theorem guards_register_get (r : Register) : m.Guards [.register r] (look (·.registers.get r)) := by
  refine guards_look fun f => ?_
  rw [Bank.get_eq_error_iff, register_met_iff, Option.not_isSome_iff_eq_none]
  exact Iff.rfl

theorem guards_setRegister (r : Register) (v : Int64) :
    m.Guards [.register r] (setRegister r v) := by
  refine (guards_look fun f => ?_).bind_sure fun _ => sure_modify _
  rw [Bank.set_eq_error_iff, register_met_iff, Option.not_isSome_iff_eq_none]
  exact Iff.rfl

theorem guards_memory_get (a : Address) : m.Guards [.cell a] (look (·.memory.get a)) := by
  refine guards_look fun f => ?_
  rw [Bank.get_eq_error_iff, cell_met_iff, Option.not_isSome_iff_eq_none]
  exact Iff.rfl

theorem guards_setCell (a : Address) (v : Int64) : m.Guards [.cell a] (setCell a v) := by
  refine (guards_look fun f => ?_).bind_sure fun _ => sure_modify _
  rw [Bank.set_eq_error_iff, cell_met_iff, Option.not_isSome_iff_eq_none]
  exact Iff.rfl

theorem guards_value (f : Flexible) : m.Guards f.checks (look (·.value f)) := by
  cases f with
  | immediate i => exact guards_look_of_ok rfl
  | register r => exact guards_register_get r

/-- The value that is read is the value that the operand has. -/
theorem value_eq_ok_iff {f : Flexible} {v : Int64} :
    m.value f = .ok v ↔ m.operand? f = some v := by
  cases f with
  | immediate i => simp [value, operand?]
  | register r => exact Bank.get_eq_ok_iff

theorem amount_eq_bind (f : Flexible) :
    m.amount f = m.value f >>= fun n =>
      if n < 0 then .error ⟨.negativeShift, f.token⟩ else .ok n := by
  unfold amount
  refine congrArg (m.value f >>= ·) (funext fun n => ?_)
  by_cases hn : n < 0
  · rw [if_pos hn, if_pos hn]
    rfl
  · rw [if_neg hn, if_neg hn]
    rfl

/-- Looking up one thing and then another is looking up both. -/
theorem look_bind_look (what : Machine → Except Fault α) (more : α → Except Fault β) :
    (look fun m => what m >>= more) = look what >>= fun a => look fun _ => more a := by
  funext m
  show (look _).run m = (look what >>= _).run m
  cases hm : what m with
  | ok a =>
    rw [run_bind_of_ok (run_look_eq_ok_iff.2 ⟨hm, rfl⟩), run_look, run_look, hm]
    rfl
  | error f =>
    have herror : (look what).run m = .error f m := by rw [run_look, hm]
    rw [run_bind_of_error herror, run_look, hm]
    rfl

theorem guards_amount (f : Flexible) :
    m.Guards (f.checks ++ [.notNegative f]) (look (·.amount f)) := by
  simp only [amount_eq_bind]
  rw [look_bind_look]
  refine (guards_value f).look_bind fun n hn => guards_look fun g => ?_
  have hmet : (Check.notNegative f).Met m ↔ ¬ n < 0 := by
    rw [Check.Met, value_eq_ok_iff.1 hn, Int64.lt_iff_toInt_lt]
    simp
  rw [hmet, Decidable.not_not]
  by_cases h : n < 0
  · rw [if_pos h]
    simp [h, Check.fault, Check.cause, Check.token, eq_comm]
  · rw [if_neg h]
    simp [h]

theorem declared_met_iff {l : Label} :
    (Check.declared l).Met m ↔ (m.labels.lookup? l.name).isSome := by
  rw [m.labels_eq, ← Decidable.not_iff_not, Option.not_isSome_iff_eq_none,
    LabelTable.lookup?_ofProgram_eq_none_iff]
  simp only [Check.Met, Program.declaredNames, List.mem_filterMap, not_exists, not_and]
  constructor
  · intro h k hk hname
    exact h (.label k) hk (congrArg some hname)
  · intro h s hs hname
    cases s with
    | instruction i => cases hname
    | label k => exact h k hs (Option.some.inj hname)

theorem guards_target (l : Label) : m.Guards [.declared l] (look (·.target l)) := by
  refine guards_look fun f => ?_
  rw [declared_met_iff]
  unfold target
  split
  · rename_i i hi
    simp [hi]
  · rename_i hn
    simp [hn, Check.fault, Check.cause, Check.token, eq_comm]

/-! ## What a statement asks for -/

/-- The conditions of the five branches, told in one. -/
theorem checks_branch (m : Machine) (condition : Condition) (l : Label) :
    m.checks (.instruction (.branch condition l)) =
      if condition.holds m.flags then [.declared l] else [] := by
  cases condition with
  | always => rfl
  | equal => rfl
  | notEqual => rfl
  | greaterThan => rfl
  | lessThan => rfl

/-- No instruction writes anything before the last of its checks. -/
theorem guards_perform (next : Nat) (i : Instruction) :
    m.Guards (m.checks (.instruction i)) (perform next i) := by
  have assigning (r : Register) (v : Int64) :
      m.Guards [.register r] (setRegister r v >>= fun _ => pure next) :=
    (guards_setRegister r v).bind_sure fun _ => sure_pure next
  cases i with
  | load rd a => exact (guards_memory_get a).look_bind fun v _ => assigning rd v
  | store rd a =>
    refine (guards_register_get rd).look_bind fun v _ => ?_
    exact (guards_setCell a v).bind_sure fun _ => sure_pure next
  | compute op rd rn f =>
    refine (guards_register_get rn).look_bind fun left _ => ?_
    exact (guards_value f).look_bind fun right _ => assigning rd (op.apply left right)
  | shift direction rd rn f =>
    have hlist : m.checks (.instruction (.shift direction rd rn f)) =
        [.register rn] ++ ((f.checks ++ [.notNegative f]) ++ [.register rd]) := by
      simp [checks]
    rw [hlist]
    refine (guards_register_get rn).look_bind fun v _ => ?_
    exact (guards_amount f).look_bind fun n _ => assigning rd (direction.apply v n)
  | move rd f => exact (guards_value f).look_bind fun v _ => assigning rd v
  | complement rd f => exact (guards_value f).look_bind fun v _ => assigning rd (~~~v)
  | compare rn f =>
    refine (guards_register_get rn).look_bind fun left _ => ?_
    refine (guards_value f).bind_sure fun right => ?_
    exact (sure_modify _).bind fun _ => sure_pure next
  | branch condition l =>
    rw [checks_branch]
    -- the flags are read from the machine as it is at the beginning
    show m.Guards _ (get >>= fun now : Machine =>
      if condition.holds now.flags then look (·.target l) else pure next)
    refine guards_get_bind ?_
    split
    · exact guards_target l
    · exact (sure_pure next).guards
  | halt => exact ((sure_modify _).bind fun _ => sure_pure next).guards

/-- No statement writes anything before the last of its checks. -/
theorem guards_performStatement (s : Statement) :
    m.Guards (m.checks s) (performStatement s) := by
  refine guards_get_bind ?_
  cases s with
  | label l => exact ((sure_pure _).bind fun _ => sure_modify _).guards
  | instruction i => exact (guards_perform _ i).bind_sure fun _ => sure_modify _

/-- A statement that fails a check ends with the fault of the first that it fails, and has changed
nothing by then. -/
theorem performStatement_eq_error_iff {s : Statement} {f : Fault} {after : Machine} :
    (performStatement s).run m = .error f after ↔
      m.firstFailure (m.checks s) = some f ∧ after = m := by
  cases guards_performStatement (m := m) s with
  | passed hrun hnone => simp [hrun, hnone]
  | refused hrun hsome => simp [hrun, hsome, eq_comm]

/-- A statement is executed exactly if it passes its checks. -/
theorem exists_performStatement_eq_ok_iff {s : Statement} :
    (∃ after, (performStatement s).run m = .ok () after) ↔ m.firstFailure (m.checks s) = none := by
  cases guards_performStatement (m := m) s with
  | passed hrun hnone => simp [hrun, hnone]
  | refused hrun hsome => simp [hrun, hsome]

/-- A shift looks at its amount only after it has looked for the register that may hold it. -/
theorem mem_checks_of_notNegative {s : Statement} {f : Flexible}
    (h : .notNegative f ∈ m.checks s) {c : Check} (hc : c ∈ f.checks) : c ∈ m.checks s := by
  have hother : ∀ {g : Flexible}, Check.notNegative f ∉ g.checks := by
    intro g hg
    cases g with
    | immediate i => cases hg
    | register r => cases List.mem_singleton.1 hg
  cases s with
  | label l => cases h
  | instruction i =>
    cases i with
    | shift direction rd rn g =>
      obtain rfl : f = g := by simpa [checks, hother] using h
      simp [checks, hc]
    | branch condition l =>
      rw [checks_branch] at h
      split at h
      · cases List.mem_singleton.1 h
      · cases h
    | _ => simp [checks, hother] at h

/-- An operand whose register is there has a value. -/
theorem exists_operand?_eq {f : Flexible} (h : ∀ c ∈ f.checks, c.Met m) :
    ∃ v, m.operand? f = some v := by
  cases f with
  | immediate i => exact ⟨i.value, rfl⟩
  | register r =>
    have hmet := h (.register r) (List.mem_singleton.2 rfl)
    exact Option.isSome_iff_exists.1 (register_met_iff.1 hmet)

/-- What is checked is checked of an operand of the statement. -/
theorem token_mem_of_mem_checks {s : Statement} {c : Check} (h : c ∈ m.checks s) :
    c.token ∈ s.tokens := by
  have hflexible : ∀ {f : Flexible}, c ∈ f.checks → c.token = f.token := by
    intro f hc
    cases f with
    | immediate i => cases hc
    | register r => rw [List.mem_singleton.1 hc]; rfl
  cases s with
  | label l => cases h
  | instruction i =>
    cases i with
    | branch condition l =>
      rw [checks_branch] at h
      split at h
      · rw [List.mem_singleton.1 h]
        exact List.mem_singleton.2 rfl
      · cases h
    | halt => cases h
    | _ =>
      simp only [checks, List.mem_cons, List.mem_append, List.not_mem_nil, or_false] at h
      simp only [Statement.tokens, Statement.operands, Instruction.operands, List.map_cons,
        List.map_nil, token_number, token_toOperand, List.mem_cons, List.not_mem_nil, or_false]
      grind [Check.token]

/-- A fault says that something was checked and is not so. -/
theorem exists_check_of_performStatement_eq_error {s : Statement} {f : Fault} {after : Machine}
    (h : (performStatement s).run m = .error f after) :
    ∃ c ∈ m.checks s, ¬ c.Met m ∧ f = c.fault := by
  obtain ⟨c, hc, rfl⟩ := Option.map_eq_some_iff.1 (performStatement_eq_error_iff.1 h).1
  exact ⟨c, List.mem_of_find?_eq_some hc, by simpa using List.find?_some hc, rfl⟩

/-! ## Faults -/

/-- A call ends with a fault exactly if the statement fails a check. -/
theorem fault?_step {s : Statement} (hs : m.current? = some s) :
    m.step.fault? = m.firstFailure (m.checks s) := by
  cases guards_performStatement (m := m) s with
  | passed hrun hnone =>
    rw [step_of_ok hs hrun, complete, hnone]
    split
    · rfl
    · rfl
  | refused hrun hsome => rw [step_of_error hs hrun, hsome]

/-- A machine that has met a fault is done. -/
theorem isDone_of_fault? {f : Fault} (h : m.fault? = some f) : m.isDone :=
  (isDone_iff m).2 (.inr (.inl (by rw [h]; rfl)))

/-- A statement is refused exactly if it fails a check, with the fault of the first check in order
that it fails; refusing it changes nothing but the fault recorded, and from then on the machine is
done and no call changes it or meets a fault again. -/
theorem step_faults_atomically (m : Machine) (h : ¬ m.isDone) :
    ∃ s, m.program[m.pc]? = some s ∧
      (∀ f, m.step.fault? = some f ↔
        ∃ passed c rest, m.checks s = passed ++ c :: rest ∧
          (∀ b ∈ passed, b.Met m) ∧ ¬ c.Met m ∧ f = c.fault) ∧
      ∀ f, m.step.fault? = some f →
        m.step.machine = { m with fault? := some f } ∧
        m.step.machine.isDone ∧
        m.step.machine.step = ⟨m.step.machine, none, #[]⟩ ∧
        ∀ n, (m.step.machine.runFor n).machine = m.step.machine ∧
          (m.step.machine.runFor n).fault? = none ∧
          (m.step.machine.run? n).map Outcome.machine = some m.step.machine := by
  obtain ⟨s, hs⟩ := exists_current?_of_not_isDone h
  refine ⟨s, (current?_eq_some_iff.1 hs).2.2, fun f => ?_, fun f hf => ?_⟩
  · rw [fault?_step hs, firstFailure, Option.map_eq_some_iff]
    constructor
    · rintro ⟨c, hc, rfl⟩
      obtain ⟨hfail, passed, rest, hlist, hpassed⟩ := List.find?_eq_some_iff_append.1 hc
      refine ⟨passed, c, rest, hlist, fun b hb => ?_, by simpa using hfail, rfl⟩
      simpa using hpassed b hb
    · rintro ⟨passed, c, rest, hlist, hpassed, hfail, rfl⟩
      refine ⟨c, List.find?_eq_some_iff_append.2 ⟨by simpa using hfail, passed, rest, hlist, ?_⟩,
        rfl⟩
      intro b hb
      simpa using hpassed b hb
  · have hp : (performStatement s).run m = .error f m :=
      performStatement_eq_error_iff.2 ⟨by rw [← fault?_step hs, hf], rfl⟩
    have hafter : m.step.machine = { m with fault? := some f } := by
      rw [step_of_error hs hp]
    have hdone : m.step.machine.isDone := isDone_of_fault? (f := f) (by rw [hafter])
    refine ⟨hafter, hdone, step_of_isDone hdone, fun n => ⟨?_, ?_, ?_⟩⟩
    · rw [runFor_of_isDone hdone]
      rfl
    · rw [runFor_of_isDone hdone]
      rfl
    · rw [run?_of_isDone hdone]
      rfl

/-- `ADD r9, r0, r1`, about to be executed on two registers: there is no `r9` and no `r0`. -/
def overreaching : Machine :=
  let register (n : Int64) : Register := .ofValue .register n
  load [.instruction (.compute .add (register 9) (register 0) (.register (register 1)))] ⟨2, 0, true⟩

/-- The first of two missing registers to be looked at is the one reported. -/
theorem step_overreaching : ¬ overreaching.isDone ∧
    overreaching.step.machine =
      { overreaching with
        fault? := some ⟨.registerOutOfRange, (Number.ofValue .register 0).token⟩ } ∧
    overreaching.step.machine.isDone := by
  obtain ⟨s, hs, hfault, hfinal⟩ := step_faults_atomically overreaching (by decide)
  obtain rfl := Option.some.inj hs
  have hfirst : overreaching.step.fault? =
      some ⟨.registerOutOfRange, (Number.ofValue .register 0).token⟩ :=
    (hfault _).2 ⟨[], .register (.ofValue .register 0), _, rfl, by simp, by decide, rfl⟩
  exact ⟨by decide, (hfinal _ hfirst).1, (hfinal _ hfirst).2.1⟩

end Machine

end AqaAssembly
