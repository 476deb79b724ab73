import AqaAssembly.Execution
import AqaAssembly.Grammar.Standard
import AqaAssembly.Proofs.Machine.Steps

/-!
# How executions end

A source text with errors is not executed, and all of its errors are reported.  Any other text is
executed step by step until the machine is done, and it has a result exactly if that happens: the
machine, or the one fault that the last step has met.

* `Program.ofSource_eq_error_iff`, `Program.ofSource_eq_ok`: which source texts are accepted;
* `Program.execute?_of_isLeast`: a program is executed until the machine is first done;
* `Source.run?_ends`: the results of source texts.
-/

namespace AqaAssembly

/-! ## Accepting a source text -/

/-- What is wrong with the words of a source text and with their order. -/
def Source.staticErrors (g : Grammar) (source : String) : StaticErrors :=
  ⟨lexicalErrors source, (Reading.ofTokens g (tokens source)).errors⟩

namespace Program

theorem ofSource_eq (g : Grammar) (source : String) :
    ofSource g source =
      if (Source.staticErrors g source).isEmpty then
        .ok (Reading.ofTokens g (Source.tokens source)).program
      else .error (Source.staticErrors g source) :=
  rfl

/-- A source text is refused exactly if something is wrong with it, and then for all that is. -/
theorem ofSource_eq_error_iff {g : Grammar} {source : String} {e : StaticErrors} :
    ofSource g source = .error e ↔
      e = Source.staticErrors g source ∧ (e.lexical ≠ [] ∨ e.syntactic ≠ []) := by
  rw [ofSource_eq, ← not_and_or, ← StaticErrors.isEmpty_iff]
  split
  · rename_i hempty
    refine ⟨nofun, ?_⟩
    rintro ⟨rfl, hne⟩
    exact absurd hempty hne
  · rename_i hne
    constructor
    · rintro ⟨⟩
      exact ⟨rfl, hne⟩
    · rintro ⟨rfl, -⟩
      rfl

/-- A source text with which nothing is wrong is accepted. -/
theorem ofSource_eq_ok {g : Grammar} {source : String}
    (hlexical : (Source.staticErrors g source).lexical = [])
    (hsyntactic : (Source.staticErrors g source).syntactic = []) :
    ofSource g source = .ok (Reading.ofTokens g (Source.tokens source)).program :=
  if_pos (StaticErrors.isEmpty_iff.2 ⟨hlexical, hsyntactic⟩)

/-- Nothing is wrong with a source text that is accepted. -/
theorem staticErrors_of_ofSource_eq_ok {g : Grammar} {source : String} {p : Program}
    (h : ofSource g source = .ok p) :
    (Source.staticErrors g source).lexical = [] ∧
      (Source.staticErrors g source).syntactic = [] := by
  by_contra hwrong
  have hrefused := ofSource_eq_error_iff.2 ⟨rfl, not_and_or.1 hwrong⟩
  rw [h] at hrefused
  cases hrefused

end Program

/-! ## Executing a program -/

namespace Machine

/-- The result of a machine that is done: the machine itself, unless it has met a fault. -/
def result (m : Machine) : Except (List Fault) Machine :=
  match m.fault? with
  | some fault => .error [fault]
  | none => .ok m

/-- A program that has been executed without a fault was told to halt, or is at its end. -/
theorem halted_or_pc_eq_of_isDone {p : Program} {config : Config} {n : Nat}
    (hdone : ((load p config).steps n).isDone) (hfault : ((load p config).steps n).fault? = none) :
    ((load p config).steps n).halted ∨ ((load p config).steps n).pc = p.length := by
  rcases (isDone_iff _).1 hdone with hhalted | hsome | hend
  · exact .inl hhalted
  · rw [hfault] at hsome
    cases hsome
  · rw [program_steps] at hend
    exact .inr (Nat.le_antisymm (pc_le_length_steps (Nat.zero_le _) n) hend)

/-- A fault that has ended an execution was met in the last step. -/
theorem exists_last_step_of_fault? {p : Program} {config : Config} {n : Nat} {f : Fault}
    (h : IsLeast {n | ((load p config).steps n).isDone} n)
    (hfault : ((load p config).steps n).fault? = some f) :
    ∃ k, n = k + 1 ∧ ((load p config).steps k).step.fault? = some f := by
  cases n with
  | zero => cases hfault
  | succ k =>
    have hrunning : ¬ ((load p config).steps k).isDone := fun hk =>
      absurd ((isDone_steps_iff h k).1 hk) (Nat.not_succ_le_self k)
    refine ⟨k, rfl, ?_⟩
    rw [recorded_step hrunning, ← steps_succ_last, hfault]

/-- The result of a program when the machine is first done. -/
theorem result_of_isLeast {p : Program} {config : Config} {n : Nat}
    (h : IsLeast {n | ((load p config).steps n).isDone} n) :
    let after := (load p config).steps n
    (after.result = .ok after ∧ after.fault? = none ∧ (after.halted ∨ after.pc = p.length)) ∨
      ∃ k f, n = k + 1 ∧ ((load p config).steps k).step.fault? = some f ∧
        after.fault? = some f ∧ after.result = .error [f] := by
  intro after
  unfold result
  cases hfault : after.fault? with
  | none => exact .inl ⟨rfl, rfl, halted_or_pc_eq_of_isDone h.1 hfault⟩
  | some f =>
    obtain ⟨k, hk, hlast⟩ := exists_last_step_of_fault? h hfault
    exact .inr ⟨k, f, hk, hlast, rfl, rfl⟩

end Machine

namespace Program

/-- A program is executed step by step, and has a result as soon as the machine is done.  The fault
with which the call ends is the one that the machine has recorded. -/
theorem execute?_eq (patience : Nat) (config : Config) (p : Program) :
    p.execute? patience config =
      if ((Machine.load p config).steps patience).isDone then
        some ((Machine.load p config).steps patience).result
      else none := by
  have hmachine : (Machine.advanceBy patience (.start (.load p config))).machine =
      (Machine.load p config).steps patience := Machine.machine_advanceBy patience _
  have hrecorded : (Machine.advanceBy patience (.start (.load p config))).Recorded :=
    Machine.recorded_advanceBy patience rfl
  rw [Machine.Outcome.Recorded] at hrecorded
  rw [execute?, Machine.run?, hmachine]
  by_cases hdone : ((Machine.load p config).steps patience).isDone
  · rw [if_pos hdone, if_pos hdone, Option.map_some, Machine.Outcome.finish, hrecorded, hmachine,
      Machine.result]
    cases ((Machine.load p config).steps patience).fault? with
    | none => rfl
    | some f => rfl
  · rw [if_neg hdone, if_neg hdone, Option.map_none]

/-- A program is executed until the machine is first done. -/
theorem execute?_of_isLeast {p : Program} {config : Config} {n : Nat}
    (h : IsLeast {n | ((Machine.load p config).steps n).isDone} n) (patience : Nat) :
    p.execute? patience config =
      if n ≤ patience then some ((Machine.load p config).steps n).result else none := by
  rw [execute?_eq]
  by_cases hle : n ≤ patience
  · rw [if_pos ((Machine.isDone_steps_iff h patience).2 hle), if_pos hle,
      Machine.steps_eq_of_le h.1 hle]
  · rw [if_neg fun hdone => hle ((Machine.isDone_steps_iff h patience).1 hdone), if_neg hle]

/-- An execution that fails has met one fault. -/
theorem exists_fault_of_execute? {patience : Nat} {config : Config} {p : Program}
    {faults : List Fault} (h : p.execute? patience config = some (.error faults)) :
    ∃ f, faults = [f] ∧ ((Machine.load p config).steps patience).fault? = some f := by
  rw [execute?_eq] at h
  split at h
  · unfold Machine.result at h
    split at h
    · rename_i f hf
      cases h
      exact ⟨f, rfl, hf⟩
    · cases h
  · cases h

end Program

/-! ## Executing a source text -/

namespace Source

/-- A source text with errors is not executed, on any machine. -/
theorem run?_eq_static_iff {patience : Nat} {g : Grammar} {config : Config} {source : String}
    {e : StaticErrors} :
    run? patience g config source = some (.error (.static e)) ↔
      e = staticErrors g source ∧ (e.lexical ≠ [] ∨ e.syntactic ≠ []) := by
  rw [← Program.ofSource_eq_error_iff, run?]
  cases Program.ofSource g source with
  | error e' => simp only [Option.some.injEq, Except.error.injEq, Failure.static.injEq]
  | ok p =>
    constructor
    · intro h
      obtain ⟨r, -, hr⟩ := Option.map_eq_some_iff.1 h
      cases r with
      | ok m => cases hr
      | error faults => cases hr
    · intro h
      cases h

/-- A source text without errors is executed as the program that it stands for. -/
theorem run?_eq_execute? {g : Grammar} {source : String}
    (hlexical : (staticErrors g source).lexical = [])
    (hsyntactic : (staticErrors g source).syntactic = []) (patience : Nat) (config : Config) :
    run? patience g config source =
      ((Reading.ofTokens g (tokens source)).program.execute? patience config).map
        (Except.mapError .runtime) := by
  rw [run?, Program.ofSource_eq_ok hlexical hsyntactic]

/-- A fault that is met while a source text without errors is executed is what is reported. -/
theorem run?_eq_runtime {g : Grammar} {source : String}
    (hlexical : (staticErrors g source).lexical = [])
    (hsyntactic : (staticErrors g source).syntactic = []) {patience : Nat} {config : Config}
    {f : Fault}
    (hf : ((Machine.load (Reading.ofTokens g (tokens source)).program config).steps
      patience).fault? = some f) :
    run? patience g config source = some (.error (.runtime [f])) := by
  rw [run?_eq_execute? hlexical hsyntactic, Program.execute?_eq,
    if_pos (Machine.isDone_of_fault? hf), Machine.result, hf]
  rfl

/-- The status tells a text that was refused from one whose execution failed. -/
theorem Failure.exitCode_eq_iff (failure : Failure) :
    (failure.exitCode = 65 ↔ ∃ e, failure = .static e) ∧
      (failure.exitCode = 70 ↔ ∃ fs, failure = .runtime fs) := by
  cases failure with
  | static e => exact ⟨⟨fun _ => ⟨e, rfl⟩, fun _ => rfl⟩, nofun, nofun⟩
  | runtime fs => exact ⟨⟨nofun, nofun⟩, fun _ => ⟨fs, rfl⟩, fun _ => rfl⟩

/-- A source text is refused exactly if something is wrong with its words or with their order; then
all that is wrong with it is reported, whatever the machine.  Otherwise its program is executed step
by step.  If the machine is done after some number of steps, and not after fewer, the result is there
after this number of steps: the machine, which has met no fault, and was told to halt or is at the
end of the program; or the one fault that the last step has met.  If the machine is never done, there
is no result.  The status tells a text that was refused from one whose execution failed. -/
theorem run?_ends (g : Grammar) (source : String) :
    let errors := staticErrors g source
    let p := (Reading.ofTokens g (tokens source)).program
    (∀ patience config e, run? patience g config source = some (.error (.static e)) ↔
      e = errors ∧ (e.lexical ≠ [] ∨ e.syntactic ≠ [])) ∧
    (errors.lexical = [] → errors.syntactic = [] → ∀ config,
      let m := Machine.load p config
      ((∃ n, (m.steps n).isDone) → ∃ n, ∃ r : Except Failure Machine,
        IsLeast {n | (m.steps n).isDone} n ∧
        (∀ patience, run? patience g config source = if n ≤ patience then some r else none) ∧
        (r = .ok (m.steps n) ∧ (m.steps n).fault? = none ∧
            ((m.steps n).halted ∨ (m.steps n).pc = p.length) ∨
          ∃ k f, n = k + 1 ∧ (m.steps k).step.fault? = some f ∧ (m.steps n).fault? = some f ∧
            r = .error (.runtime [f]))) ∧
      ((∀ n, ¬ (m.steps n).isDone) → ∀ patience, run? patience g config source = none)) ∧
    ∀ failure : Failure,
      (failure.exitCode = 65 ↔ ∃ e, failure = .static e) ∧
      (failure.exitCode = 70 ↔ ∃ fs, failure = .runtime fs) := by
  intro errors p
  refine ⟨fun _ _ _ => run?_eq_static_iff, fun hlexical hsyntactic config => ?_,
    Failure.exitCode_eq_iff⟩
  have hrun := fun patience => run?_eq_execute? hlexical hsyntactic patience config
  intro m
  constructor
  · intro hdone
    obtain ⟨n, hn⟩ := Machine.exists_isLeast_isDone hdone
    refine ⟨n, (m.steps n).result.mapError .runtime, hn, fun patience => ?_, ?_⟩
    · rw [hrun, Program.execute?_of_isLeast hn]
      split
      · rfl
      · rfl
    · rcases Machine.result_of_isLeast hn with
        ⟨hok, hnone, hend⟩ | ⟨k, f, hk, hlast, hfault, herror⟩
      · rw [hok]
        exact .inl ⟨rfl, hnone, hend⟩
      · rw [herror]
        exact .inr ⟨k, f, hk, hlast, hfault, rfl⟩
  · intro hnever patience
    rw [hrun, Program.execute?_eq, if_neg (hnever patience)]
    rfl

/-- The second of two statements reads a memory cell that is not there: with less patience than for
two statements there is no result, and otherwise it is the one fault, at `500`. -/
theorem run?_ends_reading_nowhere :
    let source := "MOV r1, #5\nLDR r1, 500"
    let config : Config := ⟨4, 16, false⟩
    let m := Machine.load (Reading.ofTokens .standard (tokens source)).program config
    (staticErrors .standard source).lexical = [] ∧
    (staticErrors .standard source).syntactic = [] ∧
    IsLeast {n | (m.steps n).isDone} 2 ∧
    ∃ f, (m.steps 2).fault? = some f ∧ f.cause = .addressOutOfRange ∧ f.token.lexeme = "500" ∧
      ∀ patience, run? patience .standard config source =
        if 2 ≤ patience then some (.error (.runtime [f])) else none := by
  intro source config m
  have hlexical : (staticErrors .standard source).lexical = [] := by decide +kernel
  have hsyntactic : (staticErrors .standard source).syntactic = [] := by decide +kernel
  have hrunning : ∀ n < 2, ¬ (m.steps n).isDone := by decide +kernel
  have hdone : (m.steps 2).isDone := by decide +kernel
  have hleast : IsLeast {n | (m.steps n).isDone} 2 :=
    ⟨hdone, fun n hn => Nat.le_of_not_lt fun hlt => hrunning n hlt hn⟩
  have hsaid : (m.steps 2).fault?.map (fun f => (f.cause, f.token.lexeme)) =
      some (.addressOutOfRange, "500") := by decide +kernel
  obtain ⟨-, hexecuted, -⟩ := run?_ends .standard source
  obtain ⟨n, r, hn, hrun, hresult⟩ := (hexecuted hlexical hsyntactic config).1 ⟨2, hdone⟩
  obtain rfl : n = 2 := Nat.le_antisymm (hn.2 hleast.1) (hleast.2 hn.1)
  rcases hresult with ⟨-, hnone, -⟩ | ⟨k, f, -, -, hfault, rfl⟩
  · rw [hnone] at hsaid
    cases hsaid
  · rw [hfault, Option.map_some, Option.some.injEq, Prod.mk.injEq] at hsaid
    exact ⟨hlexical, hsyntactic, hleast, f, hfault, hsaid.1, hsaid.2, hrun⟩

end Source

end AqaAssembly
