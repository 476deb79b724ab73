import AqaAssembly.Machine.Step

/-!
# Running a machine

A machine is run for a number of statements, until it is done, or as long as a watcher lets it.  A
run ends with the statement that could not be executed, and it never executes anything on a machine
that is done.  How it ended is noted down last.

Not every program ends.  A run without a limit of its own is given a number of statements after
which it is given up, without an outcome; as long as there is an outcome, that number does not
matter (`run?_eq_of_le`).
-/

namespace AqaAssembly.Machine

/-- The outcome before anything has been executed. -/
def Outcome.start (m : Machine) : Outcome := ⟨m, none, #[]⟩

/-- Executes one more statement. -/
def Outcome.next (o : Outcome) : Outcome :=
  let s := o.machine.step
  ⟨s.machine, s.fault?, o.records ++ s.records⟩

/-- How the call ended. -/
def Outcome.ending (o : Outcome) : LogRecord :=
  match o.fault? with
  | some fault => .faulted fault
  | none =>
    if o.machine.isDone then .stopped o.machine.executed o.machine.halted
    else .paused o.machine.executed

/-- Notes down how the call ended. -/
def Outcome.finish (o : Outcome) : Outcome := { o with records := o.records.push o.ending }

/-- Executes statements until so many have been executed or the machine is done. -/
def advanceBy : Nat → Outcome → Outcome
  | 0, o => o
  | n + 1, o => if o.machine.isDone then o else advanceBy n o.next

/-- Runs the machine for at most the given number of statements. -/
def runFor (limit : Nat) (m : Machine) : Outcome := (advanceBy limit (.start m)).finish

/-- Runs the machine until it is done.  There is no outcome if it is not done after the given number
of statements. -/
def run? (patience : Nat) (m : Machine) : Option Outcome :=
  let o := advanceBy patience (.start m)
  if o.machine.isDone then some o.finish else none

/-! ## Patience does not matter -/

theorem advanceBy_of_isDone {o : Outcome} (h : o.machine.isDone) (n : Nat) :
    advanceBy n o = o := by
  cases n with
  | zero => rfl
  | succ n => rw [advanceBy, if_pos h]

/-- Executing more statements goes on from where executing fewer has stopped. -/
theorem advanceBy_add (n k : Nat) (o : Outcome) :
    advanceBy (n + k) o = advanceBy k (advanceBy n o) := by
  induction n generalizing o with
  | zero => rw [Nat.zero_add, advanceBy]
  | succ n ih =>
    by_cases h : o.machine.isDone
    · simp only [advanceBy_of_isDone h]
    · rw [Nat.succ_add, advanceBy, if_neg h, ih, advanceBy, if_neg h]

/-- Running a machine that is done does nothing. -/
theorem runFor_of_isDone {m : Machine} (h : m.isDone) (n : Nat) :
    m.runFor n = (Outcome.start m).finish := by
  rw [runFor, advanceBy_of_isDone h]

theorem run?_of_isDone {m : Machine} (h : m.isDone) (n : Nat) :
    m.run? n = some (Outcome.start m).finish := by
  simp only [run?, advanceBy_of_isDone (o := .start m) h]
  exact if_pos h

/-- With more patience a run has the same outcome. -/
theorem run?_eq_of_le {n k : Nat} {m : Machine} {o : Outcome} (h : m.run? n = some o)
    (le : n ≤ k) : m.run? k = some o := by
  obtain ⟨d, rfl⟩ := Nat.exists_eq_add_of_le le
  simp only [run?] at h ⊢
  split at h
  · rename_i done
    rw [advanceBy_add, advanceBy_of_isDone done, if_pos done, ← h]
  · cases h

/-! ## Watched runs -/

/-- What a watcher decides before each statement. -/
structure Verdict (σ : Type) where
  /-- Is the statement to be executed? -/
  goOn : Bool
  /-- What the watcher remembers. -/
  state : σ
  /-- The machine, which the watcher may have changed. -/
  machine : Machine

/-- Executes statements as long as the machine is not done and the watcher agrees. -/
def watch {σ : Type} (watcher : σ → Machine → Verdict σ) :
    Nat → σ → Outcome → Option (σ × Outcome)
  | 0, _, _ => none
  | n + 1, s, o =>
    if o.machine.isDone then some (s, o)
    else
      let verdict := watcher s o.machine
      let o := { o with machine := verdict.machine }
      if verdict.goOn then watch watcher n verdict.state o.next else some (verdict.state, o)

/-- Runs the machine as long as the watcher agrees.  There is no outcome if it still agrees after
the given number of statements. -/
def runWhile? {σ : Type} (watcher : σ → Machine → Verdict σ) (patience : Nat) (s : σ)
    (m : Machine) : Option (σ × Outcome) :=
  (watch watcher patience s (.start m)).map fun (s, o) => (s, o.finish)

end AqaAssembly.Machine
