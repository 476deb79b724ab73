import AqaAssembly.Proofs.Machine.Steps

/-!
# Calls

A machine is driven by calls: to execute one statement, or to run for at most so many.  However it
is called, it goes on step after step (`machine_outcome`, `after_eq_steps`).

A limit can be kept by looking at how many statements the machine has counted since the run began,
wherever its counter stood then (`runWhile?_counting`).
-/

namespace AqaAssembly

namespace Machine

/-- A call that executes statements. -/
inductive Call
  /-- Execute one statement. -/
  | step
  /-- Run for at most so many statements. -/
  | runFor (limit : UInt64)
  deriving DecidableEq

namespace Call

/-- The largest number of statements that the call executes. -/
def limit : Call → Nat
  | step => 1
  | runFor limit => limit.toNat

/-- What the call gives on a machine. -/
def outcome : Call → Machine → Outcome
  | step, m => m.step
  | runFor limit, m => m.runFor limit.toNat

end Call

/-- The machine after one call after another. -/
def after (calls : List Call) (m : Machine) : Machine :=
  calls.foldl (fun m call => (call.outcome m).machine) m

@[simp] theorem after_nil (m : Machine) : m.after [] = m := rfl

@[simp] theorem after_cons (call : Call) (calls : List Call) (m : Machine) :
    m.after (call :: calls) = (call.outcome m).machine.after calls := rfl

/-- A call goes on step after step, up to its limit. -/
theorem machine_outcome (call : Call) (m : Machine) :
    (call.outcome m).machine = m.steps call.limit := by
  cases call with
  | step => rfl
  | runFor limit => exact machine_advanceBy limit.toNat (.start m)

/-- Calls go on step after step. -/
theorem after_eq_steps (calls : List Call) (m : Machine) :
    m.after calls = m.steps (calls.map Call.limit).sum := by
  induction calls generalizing m with
  | nil => rfl
  | cons call calls ih =>
    rw [after_cons, ih, machine_outcome, List.map_cons, List.sum_cons, steps_add]

/-! ## Limits -/

/-- Lets a machine go on until it has counted so many statements since its counter stood at
`start`. -/
def counting (start limit : UInt64) (_ : Unit) (m : Machine) : Verdict Unit :=
  ⟨m.executed - start < limit, (), m⟩

/-- A step counts a statement, or it is the last one. -/
theorem isDone_or_executed_step {m : Machine} (h : ¬ m.isDone) :
    m.step.machine.isDone ∨ m.step.machine.executed = m.executed + 1 := by
  have hstep := m.happens_step
  generalize m.step = o at hstep ⊢
  cases hstep with
  | nothing hdone => exact absurd hdone h
  | executed _ _ _ hafter =>
    obtain ⟨-, hexecuted, -⟩ := hafter
    rw [machine_complete, hexecuted]
    exact .inr rfl
  | faulted _ _ => exact .inl ((isDone_iff _).2 (.inr (.inl rfl)))

theorem goOn_counting {start limit : UInt64} {k : Nat} (hk : k ≤ limit.toNat) {m : Machine}
    (h : m.executed = start + .ofNat k) :
    (counting start limit () m).goOn = decide (k < limit.toNat) := by
  have hsize : k < UInt64.size := hk.trans_lt limit.toNat_lt
  have hcounted : m.executed - start = .ofNat k := by
    rw [h, UInt64.add_comm, UInt64.add_sub_cancel]
  rw [counting, hcounted, decide_eq_decide, UInt64.lt_iff_toNat_lt, UInt64.toNat_ofNat_of_lt' hsize]

/-- After `k` statements a run that counts goes on for the `n` that the limit leaves. -/
theorem watch_counting {start limit : UInt64} {k n : Nat} (hlimit : k + n = limit.toNat)
    {o : Outcome} (h : o.machine.isDone ∨ o.machine.executed = start + .ofNat k) :
    watch (counting start limit) (n + 1) () o = some ((), advanceBy n o) := by
  induction n generalizing k o with
  | zero =>
    rw [watch, advanceBy]
    split
    · rfl
    · rename_i hrunning
      have hstop : (counting start limit () o.machine).goOn = false := by
        rw [goOn_counting (by omega) (h.resolve_left hrunning)]
        exact decide_eq_false (by omega)
      simp only [hstop, Bool.false_eq_true, if_false]
      rfl
  | succ n ih =>
    rw [watch, advanceBy]
    split
    · rfl
    · rename_i hrunning
      have hcount := h.resolve_left hrunning
      have hless : k < limit.toNat := by omega
      have hnext : o.next.machine.isDone ∨ o.next.machine.executed = start + .ofNat (k + 1) := by
        refine (isDone_or_executed_step hrunning).imp_right fun hone => ?_
        show o.machine.step.machine.executed = _
        rw [hone, hcount, UInt64.ofNat_add, UInt64.add_assoc]
        rfl
      have hgo : (counting start limit () o.machine).goOn = true := by
        rw [goOn_counting hless.le hcount]
        exact decide_eq_true hless
      simp only [hgo, if_true]
      exact ih (by omega) hnext

/-- A run with a limit stops when the machine has counted so many statements, wherever its counter
stood. -/
theorem runWhile?_counting (limit : UInt64) (m : Machine) :
    runWhile? (counting m.executed limit) (limit.toNat + 1) () m =
      some ((), m.runFor limit.toNat) := by
  have hstart : m.executed = m.executed + .ofNat 0 := (UInt64.add_zero _).symm
  rw [runWhile?, watch_counting (Nat.zero_add _) (.inr hstart)]
  rfl

end Machine

end AqaAssembly
