import AqaAssembly.Proofs.Machine.Reachability

/-!
# The last comparison

The flags are nowhere but in the state of the machine, and yet they say something about its past:
they are the outcome of the last comparison that it made.  The comparisons since a machine was
loaded or reset are collected here in order (`Machine.compared`):

* `compared?_eq_some_iff`: a comparison is a `CMP` that is executed without a fault, with the values
  that its operands have at that time;
* `flags_step`, `flags_steps`, `flags_obey`: a step, any number of steps, and any commands leave the
  flags of the last comparison, or those from before if there was none;
* `step_branch`: the flags decide whether a branch is taken, and nothing else does.

The main result is `flags_reflect_last_comparison`.
-/

namespace AqaAssembly

open Operand

/-- Two values that were compared. -/
structure Comparison where
  left : Int64
  right : Int64
  deriving DecidableEq

/-- What the comparison has found. -/
def Comparison.flags (c : Comparison) : Flags := .compare c.left c.right

/-- The flags after some comparisons. -/
def Flags.after (before : Flags) (cs : List Comparison) : Flags :=
  (cs.getLast?.map Comparison.flags).getD before

namespace Flags

theorem after_append (before : Flags) (cs ds : List Comparison) :
    before.after (cs ++ ds) = (before.after cs).after ds := by
  rw [after, List.getLast?_append, after, after]
  cases ds.getLast? with
  | none => rfl
  | some d => rfl

/-- Of two values exactly one comparison holds. -/
theorem count_compare (left right : Int64) :
    let f := compare left right
    [f.equal, f.greaterThan, f.lessThan].count true = 1 := by
  intro f
  obtain ⟨hequal, -, hgreater, hless⟩ := Machine.compare_compare left right
  have he : f.equal = decide (left.toInt = right.toInt) :=
    Bool.eq_iff_iff.2 (hequal.trans decide_eq_true_iff.symm)
  have hg : f.greaterThan = decide (right.toInt < left.toInt) :=
    Bool.eq_iff_iff.2 (hgreater.trans decide_eq_true_iff.symm)
  have hl : f.lessThan = decide (left.toInt < right.toInt) :=
    Bool.eq_iff_iff.2 (hless.trans decide_eq_true_iff.symm)
  rw [he, hg, hl]
  rcases lt_trichotomy left.toInt right.toInt with h | h | h
  · simp [h, h.ne, h.not_gt]
  · simp [h]
  · simp [h, h.ne', h.not_gt]

theorem notEqual_compare (left right : Int64) :
    (compare left right).notEqual = !(compare left right).equal :=
  decide_not

end Flags

namespace Machine

variable {m : Machine}

/-! ## Comparisons -/

/-- The comparison that the next step makes, if it makes one. -/
def compared? (m : Machine) : Option Comparison :=
  match m.current? with
  | some (.instruction (.compare rn f)) => do
    return ⟨← m.registers.at? rn.value.toInt, ← m.operand? f⟩
  | _ => none

/-- The comparisons that are made in so many steps, in order. -/
def comparisons : Nat → Machine → List Comparison
  | 0, _ => []
  | n + 1, m => m.compared?.toList ++ comparisons n m.step.machine

/-- A list of comparisons after a command: comparisons that are made are added at its end, and it is
emptied when the machine is reset. -/
def Command.compare : Command → Machine → List Comparison → List Comparison
  | call c, m, before => before ++ comparisons c.limit m
  | put _ _ _, _, before => before
  | reset, _, _ => []

/-- A list of comparisons after one command after another. -/
def compared : List Command → Machine → List Comparison → List Comparison
  | [], _, before => before
  | command :: commands, m, before =>
    compared commands (command.next m) (command.compare m before)

/-- A `CMP` is executed if its operands have values. -/
theorem fault?_step_compare {rn : Register} {f : Flexible} {left right : Int64}
    (hs : m.current? = some (.instruction (.compare rn f)))
    (hleft : m.registers.at? rn.value.toInt = some left) (hright : m.operand? f = some right) :
    m.step.fault? = none := by
  refine (step_of_met hs ?_).1
  have hrn : (Check.register rn).Met m := register_met_iff.2 (by rw [hleft]; rfl)
  have hf : ∀ c ∈ f.checks, c.Met m := by
    cases f with
    | immediate i =>
      intro c hc
      cases hc
    | register r =>
      have hr : m.registers.at? r.value.toInt = some right := hright
      exact List.forall_mem_singleton.2 (register_met_iff.2 (by rw [hr]; rfl))
  exact List.forall_mem_cons.2 ⟨hrn, hf⟩

/-- The next step makes a comparison exactly if it executes a `CMP` without a fault. -/
theorem compared?_eq_some_iff {c : Comparison} :
    m.compared? = some c ↔ ∃ rn f, m.current? = some (.instruction (.compare rn f)) ∧
      m.step.fault? = none ∧ m.registers.at? rn.value.toInt = some c.left ∧
      m.operand? f = some c.right := by
  unfold compared?
  split
  · rename_i rn f hs
    simp only [Option.bind_eq_bind, Option.bind_eq_some_iff, Option.pure_def, Option.some.injEq]
    constructor
    · rintro ⟨left, hleft, right, hright, rfl⟩
      exact ⟨rn, f, hs, fault?_step_compare hs hleft hright, hleft, hright⟩
    · rintro ⟨rn', f', hs', -, hleft, hright⟩
      cases hs.symm.trans hs'
      exact ⟨c.left, hleft, c.right, hright, rfl⟩
  · rename_i hother
    refine ⟨nofun, ?_⟩
    rintro ⟨rn, f, hs, -⟩
    exact absurd hs (hother rn f)

/-! ## The flags after a step -/

/-- A statement that is executed without a comparison leaves the flags alone. -/
theorem Asks.flags_of_compared? {s : Statement} {e : Effect} (hs : m.current? = some s)
    (h : m.Asks s e) (hfault : m.step.fault? = none) :
    e.flags m.flags = m.flags.after m.compared?.toList := by
  cases h with
  | @compare rn f left right flags readLeft readRight compares =>
    have hcompared : m.compared? = some ⟨left, right⟩ :=
      compared?_eq_some_iff.2 ⟨rn, f, hs, hfault, readLeft, readRight⟩
    rw [hcompared]
    exact flags_eq_of_compare compares (compare_compare left right)
  | _ =>
    rw [compared?, hs]
    rfl

/-- A step that makes a comparison sets the flags to its outcome, and any other leaves them as they
were. -/
theorem flags_step (m : Machine) : m.step.machine.flags = m.flags.after m.compared?.toList := by
  have hstep := m.happens_step
  generalize ho : m.step = o at hstep ⊢
  cases hstep with
  | nothing hdone =>
    rw [isDone, Option.isNone_iff_eq_none] at hdone
    rw [compared?, hdone]
    rfl
  | executed hs _ hasks hafter =>
    rw [(hafter.1.complete _ _).flags]
    exact hasks.flags_of_compared? hs (by rw [ho, fault?_complete])
  | @faulted s f hs _ =>
    have hnone : m.compared? = none := Option.eq_none_iff_forall_ne_some.2 fun c hc => by
      obtain ⟨_, _, _, hfault, _⟩ := compared?_eq_some_iff.1 hc
      rw [ho] at hfault
      cases hfault
    rw [hnone]
    rfl

/-- Steps leave the flags of the last comparison that was made in them. -/
theorem flags_steps (n : Nat) (m : Machine) :
    (m.steps n).flags = m.flags.after (comparisons n m) := by
  induction n generalizing m with
  | zero => rfl
  | succ n ih => rw [steps_succ, ih, flags_step, comparisons, Flags.after_append]

/-! ## The flags after commands -/

theorem Command.flags_next (command : Command) {start : Flags} {before : List Comparison}
    (hstart : command = .reset → start = {}) (h : m.flags = start.after before) :
    (command.next m).flags = start.after (command.compare m before) := by
  cases command with
  | call c => rw [next, machine_outcome, flags_steps, h, compare, Flags.after_append]
  | put s place value =>
    obtain ⟨registers, memory, -, -, hput⟩ := exists_next_put s place value m
    rw [hput]
    exact h
  | reset =>
    rw [hstart rfl]
    rfl

/-- Commands leave the flags of the last comparison since the machine was reset.  If there was none,
they leave the flags that the machine had before, and these are all false if it was reset. -/
theorem flags_obey (commands : List Command) {start : Flags} {before : List Comparison}
    (hstart : .reset ∈ commands → start = {}) (h : m.flags = start.after before) :
    (m.obey commands).flags = start.after (compared commands m before) := by
  induction commands generalizing m before with
  | nil => exact h
  | cons command commands ih =>
    refine ih (fun hmem => hstart (List.mem_cons_of_mem _ hmem)) (command.flags_next ?_ h)
    rintro rfl
    exact hstart List.mem_cons_self

/-! ## Branches -/

/-- A branch is taken if its condition holds of the flags, provided that its label is declared, and
otherwise it is passed, declared or not. -/
theorem step_branch {condition : Condition} {l : Label} {place : Nat}
    (hs : m.current? = some (.instruction (.branch condition l)))
    (hplace : condition.holds m.flags → m.labels.lookup? l.name = some place) :
    m.step.fault? = none ∧
      m.Shows (if condition.holds m.flags then .goTo place else .pass) m.step.machine := by
  have hmet : ∀ c ∈ m.checks (.instruction (.branch condition l)), c.Met m := by
    intro c hc
    rw [checks_branch] at hc
    split at hc
    · rename_i hholds
      rw [List.mem_singleton.1 hc, declared_met_iff, hplace hholds]
      rfl
    · cases hc
  obtain ⟨hfault, e, hasks, hshows⟩ := step_of_met hs hmet
  refine ⟨hfault, ?_⟩
  obtain ⟨holds, place', declared, rfl⟩ | ⟨fails, rfl⟩ := asks_branch_iff.1 hasks
  · rw [hplace holds] at declared
    cases declared
    rwa [if_pos holds]
  · rwa [if_neg (Bool.eq_false_iff.1 fails)]

/-- Without flags every branch with a condition is passed. -/
theorem step_branch_of_no_flags {condition : Condition} {l : Label} (hflags : m.flags = {})
    (hcondition : condition ≠ .always)
    (hs : m.current? = some (.instruction (.branch condition l))) :
    m.step.fault? = none ∧ m.Shows .pass m.step.machine := by
  have hfails : condition.holds m.flags = false := by
    rw [hflags]
    cases condition with
    | always => exact absurd rfl hcondition
    | _ => rfl
  have hstep := @step_branch m condition l 0 hs (by rw [hfails]; nofun)
  rwa [hfails] at hstep

/-- With the flags of a comparison a branch on equality is taken if the values were equal, and one
on inequality if they were not. -/
theorem step_branch_of_compare {c : Comparison} {l : Label} {place : Nat}
    (hflags : m.flags = c.flags) (hplace : m.labels.lookup? l.name = some place) :
    (m.current? = some (.instruction (.branch .equal l)) → m.step.fault? = none ∧
      m.Shows (if c.left = c.right then .goTo place else .pass) m.step.machine) ∧
    (m.current? = some (.instruction (.branch .notEqual l)) → m.step.fault? = none ∧
      m.Shows (if c.left ≠ c.right then .goTo place else .pass) m.step.machine) := by
  have hequal : m.flags.equal = decide (c.left = c.right) := by rw [hflags]; rfl
  have hdiffers : m.flags.notEqual = decide (c.left ≠ c.right) := by rw [hflags]; rfl
  constructor
  · intro hs
    have hstep := step_branch hs fun _ => hplace
    simpa only [Condition.holds, hequal, decide_eq_true_eq] using hstep
  · intro hs
    have hstep := step_branch hs fun _ => hplace
    simpa only [Condition.holds, hdiffers, decide_eq_true_eq] using hstep

/-- The flags are those of the last comparison, in every state of a machine that was loaded with a
program and then called, given values and reset in any order.  As long as it has made no comparison
since it was loaded or reset, all flags are false, and every branch with a condition is passed, even
if its label is declared nowhere.  From a comparison on, the flags are its outcome: exactly one of
equal, greater and less, and not equal if and only if not equal.  Whatever is done to the machine
later, as long as it makes no further comparison and is not reset, a branch on equality to a label
that is declared is taken if and only if the values that were compared were equal, and a branch on
inequality if and only if they were not. -/
theorem flags_reflect_last_comparison (p : Program) (config : Config) (commands : List Command) :
    let made := compared commands (load p config) []
    let m := (load p config).obey commands
    (made = [] → m.flags = ⟨false, false, false, false⟩ ∧
      ∀ condition l, condition ≠ .always →
        m.current? = some (.instruction (.branch condition l)) →
        m.step.fault? = none ∧ m.Shows .pass m.step.machine) ∧
    ∀ c, made.getLast? = some c →
      m.flags = .compare c.left c.right ∧
      [m.flags.equal, m.flags.greaterThan, m.flags.lessThan].count true = 1 ∧
      m.flags.notEqual = !m.flags.equal ∧
      ∀ later, .reset ∉ later → compared later m [] = [] →
        let n := m.obey later
        n.flags = m.flags ∧
        ∀ l place, (LabelTable.ofProgram p).lookup? l.name = some place →
          (n.current? = some (.instruction (.branch .equal l)) → n.step.fault? = none ∧
            n.Shows (if c.left = c.right then .goTo place else .pass) n.step.machine) ∧
          (n.current? = some (.instruction (.branch .notEqual l)) → n.step.fault? = none ∧
            n.Shows (if c.left ≠ c.right then .goTo place else .pass) n.step.machine) := by
  intro made m
  have hflags : m.flags = Flags.after {} made := flags_obey commands (fun _ => rfl) rfl
  constructor
  · intro hnone
    rw [hnone] at hflags
    exact ⟨hflags, fun _ _ hcondition hs => step_branch_of_no_flags hflags hcondition hs⟩
  · intro c hc
    have hlast : m.flags = c.flags := by
      rw [hflags, Flags.after, hc]
      rfl
    refine ⟨hlast, ?_, ?_, fun later hreset hquiet => ?_⟩
    · rw [hlast]
      exact Flags.count_compare c.left c.right
    · rw [hlast]
      exact Flags.notEqual_compare c.left c.right
    · intro n
      have hsame : n.flags = m.flags := by
        have hlater : n.flags = m.flags.after (compared later m []) :=
          flags_obey later (fun h => absurd h hreset) rfl
        rw [hquiet] at hlater
        exact hlater
      have hlabels : n.labels = .ofProgram p := by
        have hprogram := (((Consistent.load p config).obey commands).obey later).program
        rw [n.labels_eq, hprogram]
      exact ⟨hsame, fun l place hplace =>
        step_branch_of_compare (hsame.trans hlast) (hlabels ▸ hplace)⟩

/-- The label of a place at the beginning. -/
def topLabel : Label := ⟨⟨.identifier, "top", some (.name "top"), 1, ⟨0, 3⟩⟩, rfl⟩

/-- Compares `r1` with 3, and branches on equality and then on inequality. -/
def comparing : Program :=
  [.label topLabel,
    .instruction (.compare (.ofValue .register 1) (.immediate (.ofValue .immediate 3))),
    .instruction (.branch .equal topLabel), .instruction (.branch .notEqual topLabel)]

/-- After 0 was compared with 3, the register is given the value 3: the branch on equality is passed
nevertheless, and the one on inequality is taken.  Where nothing was compared, a branch on
inequality is passed although its label is not declared. -/
theorem flags_reflect_last_comparison_comparing :
    let before := load comparing ⟨1, 1, false⟩
    let m := before.obey [.call (.runFor 2)]
    let n := m.obey [.put .registers 0 3]
    let k := m.obey [.put .registers 0 3, .call .step]
    let fresh := load [.instruction (.branch .notEqual topLabel)] ⟨1, 1, false⟩
    compared [.call (.runFor 2)] before [] = [⟨0, 3⟩] ∧ n.registers.at? 1 = some 3 ∧
    n.step.fault? = none ∧ n.step.machine.pc = 3 ∧
    k.step.fault? = none ∧ k.step.machine.pc = 0 ∧
    fresh.step.fault? = none ∧ fresh.step.machine.pc = 1 := by
  dsimp only
  have hcompared : compared [.call (.runFor 2)] (load comparing ⟨1, 1, false⟩) [] = [⟨0, 3⟩] := by
    decide +kernel
  obtain ⟨-, hmade⟩ := flags_reflect_last_comparison comparing ⟨1, 1, false⟩ [.call (.runFor 2)]
  obtain ⟨-, -, -, hlater⟩ := hmade ⟨0, 3⟩ (by rw [hcompared]; rfl)
  have hplace : (LabelTable.ofProgram comparing).lookup? topLabel.name = some 0 := by decide +kernel
  obtain ⟨-, hequal⟩ := hlater [.put .registers 0 3] (by decide) (by decide +kernel)
  obtain ⟨-, hdiffers⟩ := hlater [.put .registers 0 3, .call .step] (by decide) (by decide +kernel)
  obtain ⟨hfault, hpassed⟩ := (hequal topLabel 0 hplace).1 (by decide +kernel)
  obtain ⟨hfault', htaken⟩ := (hdiffers topLabel 0 hplace).2 (by decide +kernel)
  obtain ⟨hfresh, -⟩ := flags_reflect_last_comparison [.instruction (.branch .notEqual topLabel)]
    ⟨1, 1, false⟩ []
  obtain ⟨-, hbranch⟩ := hfresh rfl
  obtain ⟨hfault'', hpassed'⟩ := hbranch .notEqual topLabel nofun rfl
  exact ⟨hcompared, by decide +kernel, hfault, hpassed.pc.trans (by decide +kernel),
    hfault', htaken.pc, hfault'', hpassed'.pc⟩

end Machine

end AqaAssembly
