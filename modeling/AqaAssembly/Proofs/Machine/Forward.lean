import AqaAssembly.Proofs.Machine.Limits
import Mathlib.Data.List.Perm.Subperm

/-!
# Programs without jumps back

If every branch of a program leads to a later statement (`Program.Forward`), the program is a
straight line with shortcuts, and it soon comes to its end.  A label stands for its last
declaration, so this is a condition on the label table: a name may well be declared in front of a
branch to it, if it is declared again behind it.

* `Asks.lt_next`: every statement, be it a label, a branch that is taken or passed, or any other,
  goes on to a later place;
* `isDone_or_le_pc_steps`: so many steps get the machine as many places on, unless it is done;
* `pairwise_pc_history`: the statements that are executed stand one behind the other, and none is
  executed twice.

The main result is `forward_programs_stop`.
-/

namespace AqaAssembly

open Operand

/-- Every branch leads to a later statement, if its label is declared at all. -/
def Program.Forward (p : Program) : Prop :=
  ∀ i condition l, p[i]? = some (.instruction (.branch condition l)) →
    ∀ place, (LabelTable.ofProgram p).lookup? l.name = some place → i < place

namespace Machine

variable {m : Machine}

/-! ## One step -/

/-- A statement of such a program goes on to a later place. -/
theorem Asks.lt_next (hforward : m.program.Forward) {s : Statement} {e : Effect}
    (hs : m.current? = some s) (h : m.Asks s e) : m.pc < e.next m.pc := by
  cases e with
  | goTo place =>
    obtain ⟨condition, l, rfl, declared⟩ := h.exists_branch
    rw [m.labels_eq] at declared
    exact hforward m.pc _ _ (current?_eq_some_iff.1 hs).2.2 _ declared
  | _ => exact Nat.lt_succ_self m.pc

/-- A step gets the machine on, or it is the last one. -/
theorem isDone_or_pc_lt_step (hforward : m.program.Forward) :
    m.step.machine.isDone ∨ m.pc < m.step.machine.pc := by
  have hstep := m.happens_step
  generalize m.step = o at hstep ⊢
  cases hstep with
  | nothing hdone => exact .inl hdone
  | executed hs _ hasks hafter =>
    rw [(hafter.1.complete _ _).pc]
    exact .inr (hasks.lt_next hforward hs)
  | faulted _ _ => exact .inl ((isDone_iff _).2 (.inr (.inl rfl)))

/-- The snapshot after a statement shows that the machine goes on to a later place. -/
theorem pc_lt_next_of_shown? (hforward : m.program.Forward) {x : Snapshot}
    (h : m.shown? = some x) : x.pc < x.next := by
  by_cases hdone : m.isDone
  · rw [shown?_of_isDone hdone] at h
    cases h
  · obtain ⟨s, hs⟩ := exists_current?_of_not_isDone hdone
    cases guards_performStatement (m := m) s with
    | passed hperform _ =>
      obtain ⟨e, hasks, hshows, -⟩ := exists_asks_of_performStatement hperform
      rw [shown?_of_ok hs hperform] at h
      cases h
      exact (hasks.lt_next hforward hs).trans_eq hshows.pc.symm
    | refused hperform _ =>
      rw [shown?_of_error hs hperform] at h
      cases h

/-! ## Any number of steps -/

/-- So many steps get the machine as many places on, unless it is done. -/
theorem isDone_or_le_pc_steps (hforward : m.program.Forward) (n : Nat) :
    (m.steps n).isDone ∨ m.pc + n ≤ (m.steps n).pc := by
  induction n with
  | zero => exact .inr le_rfl
  | succ n ih =>
    rw [steps_succ_last]
    rcases ih with hdone | hle
    · rw [step_of_isDone hdone]
      exact .inl hdone
    · have hforward' : (m.steps n).program.Forward := by
        rw [program_steps]
        exact hforward
      exact (isDone_or_pc_lt_step hforward').imp_right fun hlt => hle.trans_lt hlt

/-- A machine that can go on for as many places as the program has left is done by then. -/
theorem isDone_steps_of_length_le (hforward : m.program.Forward) {n : Nat}
    (h : m.program.length ≤ m.pc + n) : (m.steps n).isDone := by
  rcases isDone_or_le_pc_steps hforward n with hdone | hle
  · exact hdone
  · refine (isDone_iff _).2 (.inr (.inr ?_))
    rw [program_steps]
    exact h.trans hle

theorem pc_lt_next_of_mem_history (hforward : m.program.Forward) (n : Nat) {x : Snapshot}
    (h : x ∈ history n m) : x.pc < x.next := by
  induction n generalizing m with
  | zero => cases h
  | succ n ih =>
    rcases List.mem_append.1 h with hfirst | hlater
    · exact pc_lt_next_of_shown? hforward (Option.mem_toList.1 hfirst)
    · refine ih ?_ hlater
      rw [program_step]
      exact hforward

/-- The statements that are executed stand one behind the other. -/
theorem pairwise_pc_history (hforward : m.program.Forward) (n : Nat) :
    ((history n m).map Snapshot.pc).Pairwise (· < ·) := by
  refine List.IsChain.pairwise ((List.isChain_map _).2 ?_)
  refine (records_history n m).chain.imp_of_mem_imp fun x y hx _ hnext => ?_
  exact (pc_lt_next_of_mem_history hforward n hx).trans_eq hnext

/-- No more statements are executed than the program has. -/
theorem length_history_le (hforward : m.program.Forward) (n : Nat) :
    (history n m).length ≤ m.program.length := by
  have hnodup : ((history n m).map Snapshot.pc).Nodup :=
    (pairwise_pc_history hforward n).imp ne_of_lt
  have hinside : (history n m).map Snapshot.pc ⊆ List.range m.program.length := by
    intro i hi
    obtain ⟨x, hx, rfl⟩ := List.mem_map.1 hi
    obtain ⟨s, hs, -⟩ := (records_history n m).names x hx
    exact List.mem_range.2 (List.getElem?_eq_some_iff.1 hs).1
  have hle := (List.subperm_of_subset hnodup hinside).length_le
  rwa [List.length_map, List.length_range] at hle

/-- A program in which every branch leads to a later statement, or to a label that is declared
nowhere, is executed on a machine of any configuration, with any values in its registers and its
memory.  The machine is done after as many steps as the program has statements, so a run without a
limit has an outcome as soon as there is patience for as many.  In any number of steps the
statements that are executed stand one behind the other, so none is executed twice; no more are
executed than the program has, and no more are counted. -/
theorem forward_programs_stop {p : Program} (hforward : p.Forward) (config : Config)
    (registers : Registers) (memory : Memory) :
    let m : Machine := { load p config with registers, memory }
    (m.steps p.length).isDone ∧
    (∃ o, (∀ patience, p.length ≤ patience → m.run? patience = some o) ∧
      o.machine = m.steps p.length ∧ o.machine.executed.toNat ≤ p.length) ∧
    ∀ n, ((history n m).map Snapshot.pc).Pairwise (· < ·) ∧
      (history n m).length ≤ p.length ∧
      (m.steps n).executed.toNat ≤ (history n m).length := by
  intro m
  have hdone : (m.steps p.length).isDone :=
    isDone_steps_of_length_le hforward (Nat.le_add_left _ _)
  have hcount : ∀ n, (m.steps n).executed.toNat ≤ (history n m).length := by
    intro n
    have hexecuted : (m.steps n).executed = 0 + .ofNat (history n m).length :=
      (records_history n m).executed
    rw [hexecuted, UInt64.zero_add, UInt64.toNat_ofNat']
    exact Nat.mod_le _ _
  have hlength : ∀ n, (history n m).length ≤ p.length := length_history_le hforward
  refine ⟨hdone, ⟨m.runFor p.length, fun patience hle => ?_, machine_runFor _ _, ?_⟩,
    fun n => ⟨pairwise_pc_history hforward n, hlength n, hcount n⟩⟩
  · refine run?_eq_of_le ?_ hle
    rw [run?_eq, if_pos hdone]
  · rw [machine_runFor]
    exact (hcount _).trans (hlength _)

/-- Branches ahead to `done`, which is declared at the beginning and again further on, and then to a
label that is declared nowhere. -/
def skippingAhead : Program :=
  let label (name : String) : Label := ⟨⟨.identifier, name, some (.name name), 1, ⟨0, 4⟩⟩, rfl⟩
  [.label (label "done"),
    .instruction (.compare (.ofValue .register 1) (.immediate (.ofValue .immediate 3))),
    .instruction (.branch .notEqual (label "done")), .instruction .halt, .label (label "done"),
    .instruction (.branch .always (label "gone"))]

/-- Each of the two branches leads ahead or nowhere. -/
theorem forward_programs_stop_skippingAhead :
    skippingAhead.Forward ∧
    let m : Machine := { load skippingAhead ⟨2, 0, false⟩ with registers := ⟨#[5, 7]⟩ }
    (m.steps 6).isDone ∧ ((history 6 m).map Snapshot.pc) = [0, 1, 2, 4] ∧
    ((history 6 m).map Snapshot.pc).Pairwise (· < ·) ∧
    (m.steps 6).executed = 4 := by
  have hforward : skippingAhead.Forward := by
    intro i condition l hs place hplace
    rcases i with _ | _ | _ | _ | _ | _ | i
    case succ.succ.zero =>
      cases hs
      cases hplace
      decide
    case succ.succ.succ.succ.succ.zero =>
      cases hs
      cases hplace
    all_goals cases hs
  refine ⟨hforward, ?_⟩
  dsimp only
  obtain ⟨hdone, -, hall⟩ := forward_programs_stop hforward ⟨2, 0, false⟩ ⟨#[5, 7]⟩ ⟨#[]⟩
  exact ⟨hdone, by decide +kernel, (hall 6).1, by decide +kernel⟩

end Machine

end AqaAssembly
