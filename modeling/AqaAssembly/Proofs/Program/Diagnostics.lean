import AqaAssembly.Proofs.Program.Execution
import AqaAssembly.Proofs.Program.Provenance
import AqaAssembly.Proofs.Program.Regions
import AqaAssembly.Proofs.Source.Lines

/-!
# What diagnostics point at

Errors of syntax and faults name a token.  The reader passes the tokens of the source text on to the
errors and the statements (`Source.sublist_tokens_syntactic`), and the machine passes those of the
statements on to the faults (`Program.exists_check_of_execute?`); none of them makes any up.

The cause of a fault says what sort of operand it is about.  As no word stands for a negative
number, a shift that is refused was to be by the value of a register
(`Check.kind_token_of_not_met`).

The main result is `Source.diagnostics_point_into_source`.
-/

namespace AqaAssembly

open Operand

/-! ## Errors of syntax -/

/-- Elements of a list at places further and further behind, none in front of `i`. -/
theorem sublist_drop_of_places {α : Type} {xs : List α} {places : List Nat} {ys : List α}
    (hys : List.Forall₂ (fun k y => xs[k]? = some y) places ys)
    (hplaces : places.Pairwise (· < ·)) {i : Nat} (hi : ∀ k ∈ places, i ≤ k) :
    ys.Sublist (xs.drop i) := by
  induction hys generalizing i with
  | nil => exact List.nil_sublist _
  | @cons k y ks ys hy _ ih =>
    obtain ⟨hk, hks⟩ := List.pairwise_cons.1 hplaces
    obtain ⟨hlt, rfl⟩ := List.getElem?_eq_some_iff.1 hy
    have hrest := (ih hks fun j hj => hk j hj).cons_cons xs[k]
    rw [← List.drop_eq_getElem_cons hlt] at hrest
    exact hrest.trans (List.drop_sublist_drop_left xs (hi k List.mem_cons_self))

namespace Source

/-- The words of a source text are the tokens in front of its end. -/
theorem ends_tokens (source : String) :
    Cursor.Ends (tokens source) (words source) (finalToken source) where
  exists_eq := ⟨[], tokens_eq source⟩
  kind_final := rfl
  kind_front := fun _ => kind_ne_endOfText

/-- The tokens that errors of syntax name are tokens of the source text, in their order. -/
theorem sublist_tokens_syntactic (g : Grammar) (source : String) :
    ((staticErrors g source).syntactic.map SyntaxError.token).Sublist (tokens source) := by
  have hends := ends_tokens source
  obtain ⟨rs, -, hrs, hcovers, hregions⟩ := Cursor.exists_walk?_eq hends g (Nat.zero_le _)
  obtain ⟨htokens, -, hplaces⟩ := hcovers.pairwise_places hends hregions
  have herrors : (staticErrors g source).syntactic = Reading.failures (rs.map Stretch.outcome) := by
    rw [hrs, staticErrors, ofTokens_tokens]
    rfl
  rw [herrors]
  exact sublist_drop_of_places (List.forall₂_map_right_iff.2 htokens) hplaces
    fun k _ => Nat.zero_le k

end Source

/-! ## The least line -/

theorem min?_append (ks ls : List Nat) :
    (ks ++ ls).min? = Option.merge min ks.min? ls.min? := by
  induction ks with
  | nil => rw [List.nil_append, List.min?_nil, Option.merge_none_left]
  | cons k ks ih =>
    rw [List.cons_append, List.min?_cons, List.min?_cons, ih]
    cases ks.min? with
    | none =>
      cases ls.min? with
      | none => rfl
      | some l => rfl
    | some i =>
      cases ls.min? with
      | none => rfl
      | some l => exact congrArg some (min_assoc k i l).symm

/-- The first of some sorted numbers is the least. -/
theorem min?_eq_head?_of_pairwise {ks : List Nat} (h : ks.Pairwise (· ≤ ·)) :
    ks.min? = ks.head? :=
  List.min?_eq_head? (h.imp Nat.min_eq_left)

/-! ## Faults -/

namespace Machine

/-- A fault that is recorded after some steps was raised by one of them. -/
theorem exists_refused {m : Machine} (hnone : m.fault? = none) {n : Nat} {f : Fault}
    (h : (m.steps n).fault? = some f) :
    ∃ k s, (m.steps k).current? = some s ∧
      (performStatement s).run (m.steps k) = .error f (m.steps k) := by
  induction n with
  | zero =>
    rw [show m.steps 0 = m from rfl, hnone] at h
    cases h
  | succ n ih =>
    rw [steps_succ_last] at h
    have hstep := (m.steps n).happens_step
    generalize (m.steps n).step = o at h hstep
    cases hstep with
    | nothing _ => exact ih h
    | @executed s _ after hs _ _ hafter =>
      rw [(hafter.1.complete _ s).fault?, (current?_eq_some_iff.1 hs).2.1] at h
      cases h
    | faulted hs hperform =>
      cases h
      exact ⟨n, _, hs, hperform⟩

end Machine

/-- A fault that ends the execution of a program says what a statement of the program asked for and
did not find. -/
theorem Program.exists_check_of_execute? {patience : Nat} {config : Config} {p : Program}
    {faults : List Fault} (h : p.execute? patience config = some (.error faults)) {f : Fault}
    (hf : f ∈ faults) : ∃ s ∈ p, ∃ m : Machine, ∃ c ∈ m.checks s, ¬ c.Met m ∧ f = c.fault := by
  obtain ⟨f', rfl, hfault⟩ := exists_fault_of_execute? h
  obtain rfl := List.mem_singleton.1 hf
  obtain ⟨k, s, hs, hperform⟩ := Machine.exists_refused rfl hfault
  have hmem := (Machine.current?_eq_some_iff.1 hs).2.2
  rw [Machine.program_steps] at hmem
  exact ⟨s, List.mem_of_getElem? hmem, _,
    Machine.exists_check_of_performStatement_eq_error hperform⟩

/-- The kind of the operands that faults with the cause are about, in programs that were read from
source texts. -/
def Fault.Cause.kind : Fault.Cause → Token.Kind
  | registerOutOfRange => .register
  | addressOutOfRange => .address
  | undeclaredLabel => .identifier
  | negativeShift => .register

/-- What is not found is an operand of the kind that the cause of the fault tells: a number that is
written down is not negative. -/
theorem Check.kind_token_of_not_met {m : Machine} {c : Check} (hspelling : Source.Spelling c.token)
    (h : ¬ c.Met m) : c.token.kind = c.cause.kind := by
  cases c with
  | register r => exact r.kind_token
  | cell a => exact a.kind_token
  | declared l => exact l.kind_token
  | notNegative f =>
    cases f with
    | register r => exact r.kind_token
    | immediate i =>
      have hwritable : (Operand.number i).Writable := Operand.writable_of_spelling hspelling
      refine absurd (fun n hn => ?_) h
      cases hn
      exact hwritable

namespace Source

/-- The faults that are reported are those of the program that the source text stands for. -/
theorem exists_execute?_of_run? {patience : Nat} {g : Grammar} {config : Config} {source : String}
    {faults : List Fault} (h : run? patience g config source = some (.error (.runtime faults))) :
    ∃ p, Program.ofSource g source = .ok p ∧
      p.execute? patience config = some (.error faults) := by
  unfold run? at h
  split at h
  · cases h
  · rename_i p hp
    obtain ⟨r, hr, hresult⟩ := Option.map_eq_some_iff.1 h
    cases r with
    | ok m => cases hresult
    | error fs =>
      cases hresult
      exact ⟨p, hp, hr⟩

/-- Errors of syntax and faults are told at tokens of the source text: each has the kind, the text,
the line and the bytes that scanning has found there, and is written there where its bytes are.  The
tokens of the errors are in the order of the source text, so the lines of the errors do not go back,
nor do those of bad words.  The line that is told of all errors together is the smaller one of the
lines of the first bad word and the first error of syntax.  A fault is at an operand of the kind
that its cause tells; a shift can only be refused at a register. -/
theorem diagnostics_point_into_source (g : Grammar) (source : String) :
    (∀ errors, Program.ofSource g source = .error errors →
      (errors.syntactic.map SyntaxError.token).Sublist (tokens source) ∧
      (∀ e ∈ errors.syntactic, e.token.StandsIn source) ∧
      (errors.lexical.map LexicalError.line).Pairwise (· ≤ ·) ∧
      (errors.syntactic.map (·.token.line)).Pairwise (· ≤ ·) ∧
      Diagnostic.line? errors =
        Option.merge min (errors.lexical.head?.map LexicalError.line)
          (errors.syntactic.head?.map (·.token.line))) ∧
    (∀ patience config faults, run? patience g config source = some (.error (.runtime faults)) →
      ∀ f ∈ faults, f.token.StandsIn source ∧ f.token.kind = f.cause.kind) := by
  constructor
  · intro errors herrors
    obtain ⟨rfl, -⟩ := Program.ofSource_eq_error_iff.1 herrors
    have htokens := sublist_tokens_syntactic g source
    have hlexical : ((staticErrors g source).lexical.map LexicalError.line).Pairwise (· ≤ ·) :=
      List.pairwise_map.2 (pairwise_line_lexicalErrors source)
    have hlines := (pairwise_line_tokens source).sublist htokens
    have hsyntactic : ((staticErrors g source).syntactic.map (·.token.line)).Pairwise (· ≤ ·) := by
      rw [List.pairwise_map] at hlines ⊢
      exact hlines
    refine ⟨htokens, fun e he => ?_, hlexical, hsyntactic, ?_⟩
    · exact standsIn_of_mem_tokens (htokens.subset (List.mem_map_of_mem he))
    · show (staticErrors g source).lines.min? = _
      rw [StaticErrors.lines, min?_append, min?_eq_head?_of_pairwise hlexical,
        min?_eq_head?_of_pairwise hsyntactic, List.head?_map, List.head?_map]
  · intro patience config faults hrun f hf
    obtain ⟨p, hp, hexecute⟩ := exists_execute?_of_run? hrun
    obtain ⟨s, hs, m, c, hc, hmet, rfl⟩ := Program.exists_check_of_execute? hexecute hf
    have hword : c.token ∈ words source :=
      Program.mem_words_of_ofSource hp hs (Machine.token_mem_of_mem_checks hc)
    exact ⟨standsIn_of_mem_words hword,
      Check.kind_token_of_not_met (spelling_of_mem_words hword) hmet⟩

/-- On the third line a colon is missing, and a word on the second is bad; the line that is told of
both is the second.  Once the text is mended, shifting by a register whose value is negative is
refused at that register. -/
theorem diagnostics_point_into_source_shift :
    let bad := "MOV r1, #2\nMVN r1, r1 @\nstart LSL r2, r3\nHALT"
    let mended := "MOV r1, #2\nMVN r1, r1\nstart: LSL r2, r3, r1\nHALT"
    (∃ errors, Program.ofSource .standard bad = .error errors ∧ errors.lexical.length = 1 ∧
      errors.syntactic.map (·.token.lexeme) = ["LSL"] ∧
      (∀ e ∈ errors.syntactic, e.token.StandsIn bad) ∧ Diagnostic.line? errors = some 2) ∧
    ∃ f, run? 9 .standard ⟨4, 16, false⟩ mended = some (.error (.runtime [f])) ∧
      f.cause = .negativeShift ∧ f.token.lexeme = "r1" ∧ f.token.StandsIn mended ∧
      f.token.kind = .register := by
  intro bad mended
  constructor
  · have hbad : (staticErrors .standard bad).lexical ≠ [] := by decide +kernel
    have hrefused : Program.ofSource .standard bad = .error (staticErrors .standard bad) :=
      Program.ofSource_eq_error_iff.2 ⟨rfl, .inl hbad⟩
    obtain ⟨-, htokens, -, -, hline⟩ := (diagnostics_point_into_source .standard bad).1 _ hrefused
    exact ⟨_, hrefused, by decide +kernel, by decide +kernel, htokens,
      hline.trans (by decide +kernel)⟩
  · have hlexical : (staticErrors .standard mended).lexical = [] := by decide +kernel
    have hsyntactic : (staticErrors .standard mended).syntactic = [] := by decide +kernel
    let p := (Reading.ofTokens .standard (tokens mended)).program
    let m := (Machine.load p ⟨4, 16, false⟩).steps 9
    have hsaid : m.fault?.map (fun f => (f.cause, f.token.lexeme)) =
        some (.negativeShift, "r1") := by
      decide +kernel
    obtain ⟨f, hf, hsaid⟩ := Option.map_eq_some_iff.1 hsaid
    obtain ⟨hcause, hlexeme⟩ := Prod.mk.inj hsaid
    have hrun : run? 9 .standard ⟨4, 16, false⟩ mended = some (.error (.runtime [f])) :=
      run?_eq_runtime hlexical hsyntactic hf
    obtain ⟨hstands, hkind⟩ :=
      (diagnostics_point_into_source .standard mended).2 _ _ _ hrun f List.mem_cons_self
    rw [hcause] at hkind
    exact ⟨f, hrun, hcause, hlexeme, hstands, hkind⟩

end Source

end AqaAssembly
