import AqaAssembly.Proofs.Machine.History
import Mathlib.Data.ENat.Lattice
import Mathlib.Data.Set.Card

/-!
# Limited runs

A run with a limit is stopped by looking at the counter of the machine before each statement, and a
run without one is never stopped from outside.  Both are their steps:

* `machine_runFor`, `run?_eq`: the two runs as so many steps;
* `runWhile?_counting_of_lt`, `runWhile?_goingOn`: the two runs as they are watched;
* `fault?_runFor_eq_some_iff`: a run ends with the fault of one of its steps;
* `executed_steps`: so many steps count as many statements as are executed in them without a fault,
  which are the first ones (`mem_successes_iff`).

The main result is `limited_runs_are_steps`.
-/

namespace AqaAssembly

namespace Machine

variable {σ : Type} {m : Machine}

/-! ## Runs and their steps -/

theorem machine_runFor (n : Nat) (m : Machine) : (m.runFor n).machine = m.steps n :=
  machine_advanceBy n (.start m)

/-- A run without a limit is a run with a limit that is long enough. -/
theorem run?_eq (n : Nat) (m : Machine) :
    m.run? n = if (m.steps n).isDone then some (m.runFor n) else none := by
  rw [run?, machine_advanceBy]
  rfl

/-! ## Watched runs -/

/-- Lets a machine go on until it is done. -/
def goingOn (_ : Unit) (m : Machine) : Verdict Unit := ⟨true, (), m⟩

/-- With more patience a watched run has the same outcome. -/
theorem watch_eq_of_le {watcher : σ → Machine → Verdict σ} {n k : Nat} {s : σ} {o : Outcome}
    {r : σ × Outcome} (h : watch watcher n s o = some r) (le : n ≤ k) :
    watch watcher k s o = some r := by
  induction n generalizing k s o with
  | zero => cases h
  | succ n ih =>
    obtain ⟨k, rfl⟩ := Nat.exists_eq_succ_of_ne_zero (Nat.ne_zero_of_lt le)
    rw [watch] at h ⊢
    by_cases hdone : o.machine.isDone
    · rw [if_pos hdone] at h ⊢
      exact h
    · rw [if_neg hdone] at h ⊢
      by_cases hgo : (watcher s o.machine).goOn
      · simp only [hgo, if_true] at h ⊢
        exact ih h (Nat.le_of_succ_le_succ le)
      · simp only [hgo] at h ⊢
        exact h

/-- A run that counts has its outcome as soon as there is patience for one look more than the
limit. -/
theorem runWhile?_counting_of_lt (limit : UInt64) {patience : Nat} (lt : limit.toNat < patience)
    (m : Machine) :
    runWhile? (counting m.executed limit) patience () m = some ((), m.runFor limit.toNat) := by
  have h := runWhile?_counting limit m
  rw [runWhile?, Option.map_eq_some_iff] at h ⊢
  obtain ⟨r, hr, hfinish⟩ := h
  exact ⟨r, watch_eq_of_le hr lt, hfinish⟩

theorem watch_goingOn (n : Nat) (o : Outcome) :
    watch goingOn (n + 1) () o =
      if (advanceBy n o).machine.isDone then some ((), advanceBy n o) else none := by
  induction n generalizing o with
  | zero =>
    rw [watch, advanceBy]
    rfl
  | succ n ih =>
    rw [watch]
    by_cases hdone : o.machine.isDone
    · rw [if_pos hdone, advanceBy_of_isDone hdone, if_pos hdone]
    · rw [if_neg hdone, advanceBy, if_neg hdone, ← ih]
      rfl

/-- A run without a limit is a watched run whose watcher always agrees. -/
theorem runWhile?_goingOn (n : Nat) (m : Machine) :
    runWhile? goingOn (n + 1) () m = (m.run? n).map fun o => ((), o) := by
  rw [runWhile?, watch_goingOn, run?]
  split
  · rfl
  · rfl

/-! ## Faults -/

/-- A machine that has just met a fault is done. -/
theorem isDone_step_of_fault? {f : Fault} (h : m.step.fault? = some f) :
    m.step.machine.isDone := by
  have hrunning : ¬ m.isDone := fun hdone => by
    rw [step_of_isDone hdone] at h
    cases h
  exact isDone_of_fault? ((recorded_step hrunning).symm.trans h)

/-- No step is left after a fault. -/
theorem isDone_steps_of_fault? {n k : Nat} {f : Fault} (h : (m.steps n).step.fault? = some f)
    (lt : n < k) : (m.steps k).isDone := by
  have hdone : (m.steps (n + 1)).isDone := by
    rw [steps_succ_last]
    exact isDone_step_of_fault? h
  rw [steps_eq_of_le hdone lt]
  exact hdone

theorem fault?_step_of_isDone (h : m.isDone) : m.step.fault? = none := by
  rw [step_of_isDone h]

theorem fault?_step_steps_of_isDone (h : m.isDone) (n : Nat) : (m.steps n).step.fault? = none := by
  rw [steps_of_isDone h, fault?_step_of_isDone h]

/-- What was met on the way is the fault of one of the steps. -/
theorem fault?_advanceBy_eq_some_iff {n : Nat} {o : Outcome} (h : o.fault? = none) {f : Fault} :
    (advanceBy n o).fault? = some f ↔ ∃ k < n, (o.machine.steps k).step.fault? = some f := by
  induction n generalizing o with
  | zero => simp [advanceBy, h]
  | succ n ih =>
    by_cases hdone : o.machine.isDone
    · simp [advanceBy_of_isDone hdone, h, fault?_step_steps_of_isDone hdone]
    · rw [advanceBy, if_neg hdone, Nat.exists_lt_succ_left]
      show _ ↔ o.machine.step.fault? = some f ∨
        ∃ k < n, (o.next.machine.steps k).step.fault? = some f
      cases hfault : o.machine.step.fault? with
      | none =>
        have hrest := ih (o := o.next) hfault
        rw [hrest]
        simp
      | some g =>
        -- the machine is done, so the fault stays what it is
        have hend : o.next.machine.isDone := isDone_step_of_fault? hfault
        rw [advanceBy_of_isDone hend]
        simp only [fault?_step_steps_of_isDone hend]
        show o.machine.step.fault? = some f ↔ _
        simp [hfault]

/-- A run ends with the fault of one of its steps, or without a fault. -/
theorem fault?_runFor_eq_some_iff {n : Nat} {f : Fault} :
    (m.runFor n).fault? = some f ↔ ∃ k < n, (m.steps k).step.fault? = some f :=
  fault?_advanceBy_eq_some_iff rfl

/-! ## Statements that are executed -/

/-- The next step executes a statement without a fault. -/
def Succeeds (m : Machine) : Prop := ¬ m.isDone ∧ m.step.fault? = none

/-- The steps that execute a statement without a fault, counted from 0. -/
def successes (m : Machine) : Set Nat := {k | (m.steps k).Succeeds}

/-- In front of a step that executes a statement there are only such steps. -/
theorem mem_successes_of_le {n k : Nat} (h : k ∈ m.successes) (le : n ≤ k) : n ∈ m.successes := by
  obtain ⟨hrunning, hfault⟩ := h
  refine ⟨fun hdone => hrunning ?_, ?_⟩
  · rw [steps_eq_of_le hdone le]
    exact hdone
  · rcases le.eq_or_lt with rfl | lt
    · exact hfault
    · cases hn : (m.steps n).step.fault? with
      | none => rfl
      | some f => exact absurd (isDone_steps_of_fault? hn lt) hrunning

/-- The steps that execute a statement are the first ones, as many as there are. -/
theorem mem_successes_iff {n : Nat} : n ∈ m.successes ↔ (n : ℕ∞) < m.successes.encard := by
  constructor
  · intro h
    have hfirst : {k | k < n + 1} ⊆ m.successes := fun k hk =>
      mem_successes_of_le h (Nat.le_of_lt_succ hk)
    have hle := Set.encard_le_encard hfirst
    rw [Set.Nat.encard_range] at hle
    exact (Nat.cast_lt.2 n.lt_succ_self).trans_le hle
  · intro h
    by_contra hn
    have hlast : m.successes ⊆ {k | k < n} := fun k hk =>
      not_le.1 fun le => hn (mem_successes_of_le hk le)
    have hle := Set.encard_le_encard hlast
    rw [Set.Nat.encard_range] at hle
    exact absurd h hle.not_gt

/-- A step that executes a statement counts it. -/
theorem executed_step_of_succeeds (h : m.Succeeds) :
    m.step.machine.executed = m.executed + 1 := by
  obtain ⟨hrunning, hfault⟩ := h
  have hstep := m.happens_step
  generalize m.step = o at hstep hfault ⊢
  cases hstep with
  | nothing hdone => exact absurd hdone hrunning
  | executed _ _ _ hafter =>
    obtain ⟨-, hexecuted, -⟩ := hafter
    rw [machine_complete, hexecuted]
  | faulted _ _ => cases hfault

/-- Any other step counts nothing. -/
theorem executed_step_of_not_succeeds (h : ¬ m.Succeeds) :
    m.step.machine.executed = m.executed := by
  have hor : m.isDone ∨ m.step.fault? ≠ none := by
    rw [Succeeds, not_and_or, not_not] at h
    exact h
  have hstep := m.happens_step
  generalize m.step = o at hstep hor ⊢
  cases hstep with
  | nothing _ => rfl
  | executed hs _ _ _ =>
    rcases hor with hdone | hfault
    · rw [isDone, hs] at hdone
      cases hdone
    · exact absurd (fault?_complete _ _ _) hfault
  | faulted _ _ => rfl

/-- So many steps count as many statements, or all that are executed if these are fewer. -/
theorem executed_steps (n : Nat) (m : Machine) :
    ∃ count : Nat, (count : ℕ∞) = min (n : ℕ∞) m.successes.encard ∧
      (m.steps n).executed = m.executed + .ofNat count := by
  induction n with
  | zero => exact ⟨0, by simp, (UInt64.add_zero _).symm⟩
  | succ n ih =>
    obtain ⟨count, hcount, hexecuted⟩ := ih
    rw [steps_succ_last]
    -- the statements that are executed are the first ones: all so far are, or no more will be
    by_cases hn : n ∈ m.successes
    · have hlt := mem_successes_iff.1 hn
      rw [min_eq_left hlt.le, Nat.cast_inj] at hcount
      refine ⟨n + 1, ?_, ?_⟩
      · rw [Nat.cast_add, Nat.cast_one, min_eq_left (Order.add_one_le_of_lt hlt)]
      · rw [executed_step_of_succeeds hn, hexecuted, hcount, UInt64.ofNat_add, ← UInt64.add_assoc]
        rfl
    · have hle := not_lt.1 fun hlt => hn (mem_successes_iff.2 hlt)
      have hle' : m.successes.encard ≤ ((n + 1 : Nat) : ℕ∞) :=
        hle.trans (Nat.cast_le.2 n.le_succ)
      refine ⟨count, ?_, ?_⟩
      · rw [hcount, min_eq_right hle, min_eq_right hle']
      · rw [executed_step_of_not_succeeds hn, hexecuted]

/-! ## Limits -/

/-- A run in two parts meets the fault of the whole run in one of them, and none in the other. -/
theorem fault?_runFor_add_eq_some_iff {a b : Nat} {f : Fault} :
    (m.runFor (a + b)).fault? = some f ↔
      ((m.runFor a).fault? = some f ∧ ((m.runFor a).machine.runFor b).fault? = none) ∨
      ((m.runFor a).fault? = none ∧ ((m.runFor a).machine.runFor b).fault? = some f) := by
  rw [machine_runFor]
  constructor
  · intro h
    obtain ⟨k, hk, hfault⟩ := fault?_runFor_eq_some_iff.1 h
    -- the step that meets the fault belongs to one of the two parts
    rcases Nat.lt_or_ge k a with hlt | hge
    · refine .inl ⟨fault?_runFor_eq_some_iff.2 ⟨k, hlt, hfault⟩, ?_⟩
      rw [runFor_of_isDone (isDone_steps_of_fault? hfault hlt)]
      rfl
    · obtain ⟨j, rfl⟩ := Nat.exists_eq_add_of_le hge
      refine .inr ⟨Option.eq_none_iff_forall_ne_some.2 fun g hg => ?_, ?_⟩
      · obtain ⟨i, hi, hfirst⟩ := fault?_runFor_eq_some_iff.1 hg
        rw [fault?_step_of_isDone (isDone_steps_of_fault? hfirst (hi.trans_le hge))] at hfault
        cases hfault
      · rw [steps_add] at hfault
        exact fault?_runFor_eq_some_iff.2 ⟨j, Nat.lt_of_add_lt_add_left hk, hfault⟩
  · rintro (⟨hfirst, -⟩ | ⟨-, hsecond⟩)
    · obtain ⟨k, hk, hfault⟩ := fault?_runFor_eq_some_iff.1 hfirst
      exact fault?_runFor_eq_some_iff.2 ⟨k, hk.trans_le (Nat.le_add_right a b), hfault⟩
    · obtain ⟨k, hk, hfault⟩ := fault?_runFor_eq_some_iff.1 hsecond
      rw [← steps_add] at hfault
      exact fault?_runFor_eq_some_iff.2 ⟨a + k, Nat.add_lt_add_left hk a, hfault⟩

/-- A machine that is done after so many steps has the same run with any limit from there on. -/
theorem runFor_eq_of_le {n k : Nat} (h : (m.steps n).isDone) (le : n ≤ k) :
    m.runFor k = m.runFor n := by
  obtain ⟨d, rfl⟩ := Nat.exists_eq_add_of_le le
  have hdone : (advanceBy n (.start m)).machine.isDone := by
    rw [machine_advanceBy]
    exact h
  rw [runFor, runFor, advanceBy_add, advanceBy_of_isDone hdone]

/-- A run without a limit that has an outcome has the outcome of a limited run, and the machine is
done after as many steps. -/
theorem exists_of_runWhile?_goingOn {patience : Nat} {o : Outcome}
    (h : runWhile? goingOn patience () m = some ((), o)) :
    ∃ n, (m.steps n).isDone ∧ m.runFor n = o := by
  cases patience with
  | zero => cases h
  | succ n =>
    rw [runWhile?_goingOn, Option.map_eq_some_iff] at h
    obtain ⟨o', hrun, hsame⟩ := h
    obtain rfl := (Prod.mk.inj hsame).2
    rw [run?_eq] at hrun
    split at hrun
    · rename_i hdone
      exact ⟨n, hdone, Option.some.inj hrun⟩
    · cases hrun

/-- As long as the counter does not overflow, a run that is stopped when the counter has gone on by
a limit is as many steps: it leaves the machine as they do, it ends with a fault exactly if one of
them meets it, and it counts as many statements as the limit allows, or all that are executed before
the machine is done if these are fewer.  Two such runs, one after the other, leave the machine as
the run with the sum of their limits does, and the fault of that run, if there is one, is met in
exactly one of them.  If a run without a limit has an outcome, every run has the same outcome whose
limit is at least the number of steps after which the machine is first done. -/
theorem limited_runs_are_steps (m : Machine) :
    (∀ limit : UInt64, m.executed.toNat + limit.toNat < 2 ^ 64 →
      (∀ patience, limit.toNat < patience →
        runWhile? (counting m.executed limit) patience () m = some ((), m.runFor limit.toNat)) ∧
      (m.runFor limit.toNat).machine = m.steps limit.toNat ∧
      (∀ f, (m.runFor limit.toNat).fault? = some f ↔
        ∃ k < limit.toNat, (m.steps k).step.fault? = some f) ∧
      ((m.runFor limit.toNat).machine.executed.toNat : ℕ∞) =
        m.executed.toNat + min (limit.toNat : ℕ∞) m.successes.encard) ∧
    (∀ a b : UInt64, m.executed.toNat + a.toNat + b.toNat < 2 ^ 64 →
      let first := m.runFor a.toNat
      let second := first.machine.runFor b.toNat
      let whole := m.runFor (a + b).toNat
      whole.machine = second.machine ∧
      ∀ f, whole.fault? = some f ↔
        (first.fault? = some f ∧ second.fault? = none) ∨
        (first.fault? = none ∧ second.fault? = some f)) ∧
    (∀ patience o, runWhile? goingOn patience () m = some ((), o) →
      ∃ n, IsLeast {n | (m.steps n).isDone} n ∧ ∀ limit, n ≤ limit → m.runFor limit = o) := by
  refine ⟨fun limit hlimit => ⟨fun patience hlt => runWhile?_counting_of_lt limit hlt m,
    machine_runFor _ m, fun f => fault?_runFor_eq_some_iff, ?_⟩, fun a b hsum => ?_,
    fun patience o ho => ?_⟩
  · obtain ⟨count, hcount, hexecuted⟩ := executed_steps limit.toNat m
    have hle : count ≤ limit.toNat := Nat.cast_le.1 (hcount.trans_le (min_le_left _ _))
    have hfits : (UInt64.ofNat count).toNat = count :=
      UInt64.toNat_ofNat_of_lt' (hle.trans_lt limit.toNat_lt)
    have hnat : (m.steps limit.toNat).executed.toNat = m.executed.toNat + count := by
      rw [hexecuted, UInt64.toNat_add, hfits]
      exact Nat.mod_eq_of_lt (by omega)
    rw [machine_runFor, hnat, Nat.cast_add, hcount]
  · intro first second whole
    have hlimit : (a + b).toNat = a.toNat + b.toNat := by
      rw [UInt64.toNat_add]
      exact Nat.mod_eq_of_lt (by omega)
    refine ⟨?_, fun f => ?_⟩
    · show (m.runFor (a + b).toNat).machine = ((m.runFor a.toNat).machine.runFor b.toNat).machine
      rw [machine_runFor, machine_runFor, machine_runFor, hlimit, steps_add]
    · show (m.runFor (a + b).toNat).fault? = some f ↔ _
      rw [hlimit]
      exact fault?_runFor_add_eq_some_iff
  · obtain ⟨k, hdone, hrun⟩ := exists_of_runWhile?_goingOn ho
    obtain ⟨n, hn⟩ := exists_isLeast_isDone ⟨k, hdone⟩
    refine ⟨n, hn, fun limit hle => ?_⟩
    rw [runFor_eq_of_le hn.1 hle, ← hrun]
    exact (runFor_eq_of_le hn.1 (hn.2 hdone)).symm

/-- The counter stands near its end when two doublings and a read of a cell that is not there are
run: with the limit 3 the read is met and two statements are counted, and so they are with the
limits 2 and 1, of which only the second meets the read. -/
theorem limited_runs_are_steps_doublings :
    let m : Machine := { load doublings ⟨1, 16, true⟩ with executed := 18446744073709551612 }
    let first := m.runFor 2
    let second := first.machine.runFor 1
    runWhile? (counting m.executed 3) 4 () m = some ((), m.runFor 3) ∧
    (m.runFor 3).machine = m.steps 3 ∧ min 3 m.successes.encard = 2 ∧
    (m.runFor 3).machine = second.machine ∧ (m.runFor 3).fault?.isSome ∧ first.fault? = none ∧
    second.fault? = (m.runFor 3).fault? ∧
    ∃ n, IsLeast {n | (m.steps n).isDone} n ∧ ∀ limit, n ≤ limit → m.runFor limit = m.runFor 3 := by
  intro m first second
  obtain ⟨hlimit, hsum, hrun⟩ := limited_runs_are_steps m
  obtain ⟨hwatched, hsteps, -, hcount⟩ := hlimit 3 (by decide)
  obtain ⟨hmachine, hfault⟩ := hsum 2 1 (by decide)
  have hnone : first.fault? = none := by decide +kernel
  have hsome : (m.runFor 3).fault?.isSome := by decide +kernel
  have hsecond : second.fault? = (m.runFor 3).fault? := by
    obtain ⟨f, hf⟩ := Option.isSome_iff_exists.1 hsome
    rcases (hfault f).1 hf with ⟨hfirst, -⟩ | ⟨-, hmet⟩
    · exact absurd (hnone.symm.trans hfirst) nofun
    · exact hmet.trans hf.symm
  have hexecuted : (m.runFor 3).machine.executed = 18446744073709551614 := by decide +kernel
  have hmin : min 3 m.successes.encard = 2 := by
    change ((m.runFor 3).machine.executed.toNat : ℕ∞) =
      ((18446744073709551612 : Nat) : ℕ∞) + min 3 m.successes.encard at hcount
    rw [hexecuted] at hcount
    change ((18446744073709551612 + 2 : Nat) : ℕ∞) = _ at hcount
    rw [Nat.cast_add] at hcount
    exact ENat.add_right_injective_of_ne_top (ENat.natCast_ne_top _) hcount.symm
  have hdone : (m.steps 3).isDone := by decide +kernel
  have hwhole : runWhile? goingOn 4 () m = some ((), m.runFor 3) := by
    rw [runWhile?_goingOn, run?_eq, if_pos hdone]
    rfl
  exact ⟨hwatched 4 (by decide), hsteps, hmin, hmachine, hsome, hnone, hsecond,
    hrun 4 (m.runFor 3) hwhole⟩

end Machine

end AqaAssembly
