import AqaAssembly.Proofs.Machine.Checks
import AqaAssembly.Proofs.Program.Likeness

/-!
# Machines that do the same

Two machines with programs that are alike, the same values in their registers and their memory, the
same flags and the same place in the program do the same from then on (`Machine.Like.step`,
`Machine.Like.runFor`): whatever they record, they go through like states, and if one meets a fault
then so does the other, of the same cause and at a related token.
-/

namespace AqaAssembly

open Operand

section

variable (R : Token → Token → Prop)

/-- The faults have one cause, and their tokens are related. -/
structure Fault.Like (f f' : Fault) : Prop where
  cause_eq : f.cause = f'.cause
  token : R f.token f'.token

/-- The machines execute programs that are alike and are in the same state.  What they record may
differ, and the second may have counted more statements than the first. -/
structure Machine.Like (ahead : UInt64) (m m' : Machine) : Prop where
  program : List.Forall₂ (Statement.Like R) m.program m'.program
  registers_eq : m'.registers = m.registers
  memory_eq : m'.memory = m.memory
  flags_eq : m'.flags = m.flags
  pc_eq : m'.pc = m.pc
  executed_eq : m'.executed = m.executed + ahead
  halted_eq : m'.halted = m.halted
  fault? : Option.Rel (Fault.Like R) m.fault? m'.fault?

/-- The courses ended with one value or with faults that are alike, and left machines that are alike
in either case. -/
inductive Machine.EndsAlike (ahead : UInt64) {α : Type} :
    EStateM.Result Fault Machine α → EStateM.Result Fault Machine α → Prop
  | ok {a : α} {after after' : Machine} (hafter : after.Like R ahead after') :
    EndsAlike ahead (.ok a after) (.ok a after')
  | error {f f' : Fault} {after after' : Machine} (hf : f.Like R f')
    (hafter : after.Like R ahead after') : EndsAlike ahead (.error f after) (.error f' after')

/-- On machines that are alike, the courses end alike. -/
def Machine.Course.Like (ahead : UInt64) {α : Type} (x y : Course α) : Prop :=
  ∀ ⦃m m' : Machine⦄, m.Like R ahead m' → EndsAlike R ahead (x.run m) (y.run m')

/-- The calls left machines that are alike, and met faults that are alike or none. -/
structure Machine.Outcome.Like (ahead : UInt64) (o o' : Outcome) : Prop where
  machine : o.machine.Like R ahead o'.machine
  fault? : Option.Rel (Fault.Like R) o.fault? o'.fault?

end

variable {R : Token → Token → Prop} {ahead : UInt64}

theorem forall₂_getElem? {α β : Type} {S : α → β → Prop} {as : List α} {bs : List β}
    (h : List.Forall₂ S as bs) (i : Nat) : Option.Rel S as[i]? bs[i]? := by
  induction h generalizing i with
  | nil => exact .none
  | cons hab _ ih =>
    cases i with
    | zero => exact .some hab
    | succ i => exact ih i

theorem isSome_eq_of_rel {α β : Type} {S : α → β → Prop} {a : Option α} {b : Option β}
    (h : Option.Rel S a b) : b.isSome = a.isSome := by
  cases h with
  | none => rfl
  | some _ => rfl

theorem Fault.map_cause_eq_of_rel {f f' : Option Fault} (h : Option.Rel (Fault.Like R) f f') :
    f'.map cause = f.map cause := by
  cases h with
  | none => rfl
  | some h => exact congrArg some h.cause_eq.symm

/-! ## Operands -/

namespace Bank

variable {s : Storage} {x y : Number s.form}

theorem like_get (b : Bank s) (h : x.Like R y) :
    LiftRel (Fault.Like R) Eq (b.get x) (b.get y) := by
  unfold get
  rw [h.value_eq]
  split
  · exact .ok rfl
  · exact .error ⟨rfl, h.token⟩

theorem like_set (b : Bank s) (h : x.Like R y) (v : Int64) :
    LiftRel (Fault.Like R) Eq (b.set x v) (b.set y v) := by
  unfold set
  rw [h.value_eq]
  split
  · exact .ok rfl
  · exact .error ⟨rfl, h.token⟩

end Bank

namespace Machine

variable {m m' : Machine}

namespace Like

theorem labels_eq (h : m.Like R ahead m') : m'.labels = m.labels := by
  rw [m'.labels_eq, m.labels_eq, LabelTable.ofProgram_congr h.program]

theorem value (h : m.Like R ahead m') {f f' : Flexible} (hf : f.Like R f') :
    LiftRel (Fault.Like R) Eq (m.value f) (m'.value f') := by
  cases hf with
  | immediate hi =>
    rw [Machine.value, Machine.value, hi.value_eq]
    exact .ok rfl
  | register hr =>
    rw [Machine.value, Machine.value, h.registers_eq]
    exact Bank.like_get _ hr

theorem amount (h : m.Like R ahead m') {f f' : Flexible} (hf : f.Like R f') :
    LiftRel (Fault.Like R) Eq (m.amount f) (m'.amount f') := by
  rw [amount_eq_bind, amount_eq_bind]
  refine (h.value hf).bind ?_
  rintro n _ rfl
  split
  · exact .error ⟨rfl, hf.token⟩
  · exact .ok rfl

theorem target (h : m.Like R ahead m') {l l' : Label} (hl : l.Like R l') :
    LiftRel (Fault.Like R) Eq (m.target l) (m'.target l') := by
  unfold Machine.target
  rw [h.labels_eq, ← hl.name_eq]
  split
  · exact .ok rfl
  · exact .error ⟨rfl, hl.token⟩

end Like

/-! ## Courses -/

namespace Course

variable {α β : Type}

theorem like_pure (a : α) : Course.Like R ahead (pure a) (pure a) := fun _ _ h => .ok h

theorem like_modify {change change' : Machine → Machine}
    (h : ∀ {m m' : Machine}, m.Like R ahead m' → (change m).Like R ahead (change' m')) :
    Course.Like R ahead (modify change) (modify change') :=
  fun _ _ hm => .ok (h hm)

theorem like_look {what what' : Machine → Except Fault α}
    (h : ∀ {m m' : Machine}, m.Like R ahead m' → LiftRel (Fault.Like R) Eq (what m) (what' m')) :
    Course.Like R ahead (look what) (look what') := by
  intro m m' hm
  have hfound := h hm
  rw [run_look, run_look]
  generalize what m = r at hfound ⊢
  generalize what' m' = r' at hfound ⊢
  cases hfound with
  | ok heq =>
    cases heq
    exact .ok hm
  | error hf => exact .error hf hm

theorem like_get_bind {k k' : Machine → Course α}
    (h : ∀ {m m' : Machine}, m.Like R ahead m' → Course.Like R ahead (k m) (k' m')) :
    Course.Like R ahead (get >>= k) (get >>= k') :=
  fun _ _ hm => h hm hm

theorem Like.bind {x y : Course α} {k l : α → Course β} (h : Course.Like R ahead x y)
    (hk : ∀ a, Course.Like R ahead (k a) (l a)) : Course.Like R ahead (x >>= k) (y >>= l) := by
  intro m m' hm
  have hends := h hm
  rw [EStateM.run_bind, EStateM.run_bind]
  generalize x.run m = r at hends ⊢
  generalize y.run m' = r' at hends ⊢
  cases hends with
  | ok hafter => exact hk _ hafter
  | error hf hafter => exact .error hf hafter

end Course

/-! ## Statements -/

theorem like_look_register {r r' : Register} (hr : r.Like R r') :
    Course.Like R ahead (look (·.registers.get r)) (look (·.registers.get r')) := by
  refine Course.like_look fun {m m'} hm => ?_
  rw [hm.registers_eq]
  exact Bank.like_get m.registers hr

theorem like_look_cell {a a' : Address} (ha : a.Like R a') :
    Course.Like R ahead (look (·.memory.get a)) (look (·.memory.get a')) := by
  refine Course.like_look fun {m m'} hm => ?_
  rw [hm.memory_eq]
  exact Bank.like_get m.memory ha

theorem like_look_value {f f' : Flexible} (hf : f.Like R f') :
    Course.Like R ahead (look (·.value f)) (look (·.value f')) :=
  Course.like_look fun hm => hm.value hf

theorem like_setRegister {r r' : Register} (hr : r.Like R r') (v : Int64) :
    Course.Like R ahead (setRegister r v) (setRegister r' v) := by
  refine (Course.like_look fun {m m'} hm => ?_).bind fun registers => ?_
  · rw [hm.registers_eq]
    exact Bank.like_set m.registers hr v
  · exact Course.like_modify fun hm => { hm with registers_eq := rfl }

theorem like_setCell {a a' : Address} (ha : a.Like R a') (v : Int64) :
    Course.Like R ahead (setCell a v) (setCell a' v) := by
  refine (Course.like_look fun {m m'} hm => ?_).bind fun memory => ?_
  · rw [hm.memory_eq]
    exact Bank.like_set m.memory ha v
  · exact Course.like_modify fun hm => { hm with memory_eq := rfl }

/-- Instructions that are alike do the same. -/
theorem like_perform (next : Nat) {i i' : Instruction} (hi : i.Like R i') :
    Course.Like R ahead (perform next i) (perform next i') := by
  have thenNext {x y : Course Unit} (h : Course.Like R ahead x y) :
      Course.Like R ahead (x >>= fun _ => pure next) (y >>= fun _ => pure next) :=
    h.bind fun _ => Course.like_pure next
  cases hi with
  | load hd ha => exact (like_look_cell ha).bind fun v => thenNext (like_setRegister hd v)
  | store hd ha => exact (like_look_register hd).bind fun v => thenNext (like_setCell ha v)
  | compute op hd hl hr =>
    refine (like_look_register hl).bind fun left => ?_
    exact (like_look_value hr).bind fun right => thenNext (like_setRegister hd _)
  | shift direction hd hv hn =>
    refine (like_look_register hv).bind fun v => ?_
    refine (Course.like_look fun hm => hm.amount hn).bind fun n => ?_
    exact thenNext (like_setRegister hd _)
  | move hd hs => exact (like_look_value hs).bind fun v => thenNext (like_setRegister hd v)
  | complement hd hs => exact (like_look_value hs).bind fun v => thenNext (like_setRegister hd _)
  | compare hl hr =>
    refine (like_look_register hl).bind fun left => ?_
    refine (like_look_value hr).bind fun right => ?_
    exact thenNext (Course.like_modify fun hm => { hm with flags_eq := rfl })
  | branch condition hl =>
    refine Course.like_get_bind fun {m m'} hm => ?_
    rw [hm.flags_eq]
    split
    · exact Course.like_look fun hm => hm.target hl
    · exact Course.like_pure next
  | halt => exact thenNext (Course.like_modify fun hm => { hm with halted_eq := rfl })

/-- Statements that are alike do the same. -/
theorem like_performStatement {s s' : Statement} (hs : s.Like R s') :
    Course.Like R ahead (performStatement s) (performStatement s') := by
  refine Course.like_get_bind fun {m m'} hm => ?_
  have goTo (place : Nat) : Course.Like R ahead (modify fun m => { m with pc := place })
      (modify fun m => { m with pc := place }) :=
    Course.like_modify fun hm => { hm with pc_eq := rfl }
  dsimp only
  rw [hm.pc_eq]
  cases hs with
  | instruction hi => exact (like_perform _ hi).bind goTo
  | label hl => exact (Course.like_pure _).bind goTo

namespace Like

/-! ## Calls -/

theorem complete (h : m.Like R ahead m') (pc pc' : Nat) (s s' : Statement) :
    (m.complete pc s).Like R ahead (m'.complete pc' s') := by
  have hcounted : m'.executed + 1 = m.executed + 1 + ahead := by
    rw [h.executed_eq, UInt64.add_assoc, UInt64.add_comm ahead, UInt64.add_assoc]
  have hmachine : ∀ trace trace', ({ m with executed := m.executed + 1, trace } : Machine).Like R
      ahead { m' with executed := m'.executed + 1, trace := trace' } :=
    fun _ _ => { h with executed_eq := hcounted }
  unfold Machine.complete
  dsimp only
  split
  · split
    · exact ⟨hmachine _ _, .none⟩
    · exact ⟨hmachine _ _, .none⟩
  · split
    · exact ⟨hmachine _ _, .none⟩
    · exact ⟨hmachine _ _, .none⟩

/-- Machines that are alike are about to execute statements that are alike. -/
theorem current? (h : m.Like R ahead m') :
    Option.Rel (Statement.Like R) m.current? m'.current? := by
  unfold Machine.current?
  rw [h.halted_eq, isSome_eq_of_rel h.fault?, h.pc_eq]
  split
  · exact .none
  · exact forall₂_getElem? h.program m.pc

theorem isDone_eq (h : m.Like R ahead m') : m'.isDone = m.isDone := by
  rw [Machine.isDone, Machine.isDone, ← Option.not_isSome, ← Option.not_isSome,
    isSome_eq_of_rel h.current?]

/-- Machines that are alike stay alike when a statement is executed. -/
theorem step (h : m.Like R ahead m') : m.step.Like R ahead m'.step := by
  have hcurrent := h.current?
  unfold Machine.step
  generalize m.current? = c at hcurrent ⊢
  generalize m'.current? = c' at hcurrent ⊢
  cases hcurrent with
  | none => exact ⟨h, .none⟩
  | some hs =>
    have hends := like_performStatement hs h
    dsimp only
    generalize (performStatement _).run m = r at hends ⊢
    generalize (performStatement _).run m' = r' at hends ⊢
    cases hends with
    | ok hafter => exact hafter.complete _ _ _ _
    | error hf hafter => exact ⟨{ hafter with fault? := .some hf }, .some hf⟩

/-! ## Runs -/

theorem advanceBy (n : Nat) {o o' : Outcome} (h : o.Like R ahead o') :
    (advanceBy n o).Like R ahead (advanceBy n o') := by
  induction n generalizing o o' with
  | zero => exact h
  | succ n ih =>
    rw [Machine.advanceBy, Machine.advanceBy, h.machine.isDone_eq]
    split
    · exact h
    · obtain ⟨hmachine, hfault⟩ := h.machine.step
      exact ih ⟨hmachine, hfault⟩

/-- Machines that are alike stay alike when they run for the same number of statements. -/
theorem runFor (h : m.Like R ahead m') (n : Nat) : (m.runFor n).Like R ahead (m'.runFor n) := by
  have hstart : (Outcome.start m).Like R ahead (.start m') := ⟨h, .none⟩
  obtain ⟨hmachine, hfault⟩ := advanceBy n hstart
  exact ⟨hmachine, hfault⟩

end Like

/-- Programs that are alike are loaded into machines that are alike. -/
theorem like_load {p q : Program} (h : List.Forall₂ (Statement.Like R) p q) (config : Config) :
    (load p config).Like R 0 (load q config) where
  program := h
  registers_eq := rfl
  memory_eq := rfl
  flags_eq := rfl
  pc_eq := rfl
  executed_eq := rfl
  halted_eq := rfl
  fault? := .none

end Machine

end AqaAssembly
