import AqaAssembly.Proofs.Grammar.Standard
import AqaAssembly.Proofs.Program.Diagnostics

/-!
# Reports are lines

Whatever is wrong with a program, each problem is reported on a line of its own.  Pieces of the
source text are quoted, and a quoted text is a single line (`Text.newline_not_mem_quote`).  Two
things are told without quotation marks: what a grammar has to say about a missing operand
(`Grammar.Terse`), and the name of a label that is declared nowhere, which is a word of the source
text and so has no line end in it.

The main result is `Source.reports_are_lines`.
-/

namespace AqaAssembly

/-! ## Parts of reports -/

theorem Decimal.newline_not_mem_textNat (n : Nat) : '\n' ∉ (Decimal.textNat n).toList := by
  rw [Decimal.textNat, String.toList_ofList]
  intro h
  exact absurd (isDigit_of_mem_digits h) (by decide)

theorem Token.Kind.newline_not_mem_description (kind : Token.Kind) :
    '\n' ∉ kind.description.toList := by
  have hall : ∀ kind ∈ Token.Kind.all, '\n' ∉ kind.description.toList := by decide +kernel
  exact hall kind kind.mem_all

/-- A message and advice that are lines are reported on one. -/
theorem Diagnostic.newline_not_mem_report {ε : Type} [Diagnostic ε] {e : ε}
    (hmessage : '\n' ∉ (message e).toList) (hhelp : ∀ advice ∈ help? e, '\n' ∉ advice.toList) :
    '\n' ∉ (report e).toList := by
  unfold report
  split
  · rename_i advice hadvice
    simp [hmessage, hhelp advice hadvice]
  · exact hmessage

/-! ## Problems one by one -/

theorem LexicalError.newline_not_mem_report (e : LexicalError) :
    '\n' ∉ (Diagnostic.report e).toList := by
  have hcause : '\n' ∉ e.cause.description.toList := by
    cases e.cause with
    | numeral problem => cases problem <;> decide +kernel
    | _ => decide +kernel
  refine Diagnostic.newline_not_mem_report ?_ fun advice hadvice => ?_
  · show '\n' ∉ e.message.toList
    rw [message]
    -- an empty source has nothing to quote
    split
    · simp [Decimal.newline_not_mem_textNat, hcause]
    · simp [Decimal.newline_not_mem_textNat, hcause, Text.newline_not_mem_quote]
  · cases hadvice
    cases e.cause with
    | numeral problem =>
      cases problem with
      | empty | notADigit => decide +kernel
      | tooLarge =>
        show '\n' ∉ ("integers are limited to at most " ++ Decimal.textNat _).toList
        simp [Decimal.newline_not_mem_textNat]
    | _ => decide +kernel

/-- An error of syntax is reported on a line if what is to be said about it is one. -/
theorem SyntaxError.newline_not_mem_report {e : SyntaxError} (h : '\n' ∉ e.message.toList) :
    '\n' ∉ (Diagnostic.report e).toList := by
  refine Diagnostic.newline_not_mem_report ?_ fun advice hadvice => ?_
  · show '\n' ∉ e.text.toList
    rw [text]
    -- the end of the text is named, and any other token is quoted
    split
    · simp [Decimal.newline_not_mem_textNat, h]
    · simp [Decimal.newline_not_mem_textNat, h, Text.newline_not_mem_quote]
  · cases hadvice
    unfold SyntaxError.advice
    split
    · decide +kernel
    · decide +kernel
    · decide +kernel
    · simp [Token.Kind.newline_not_mem_description]
    · simp [Token.Kind.newline_not_mem_description]

/-- A fault is reported on a line if the label that it tells to declare is one. -/
theorem Fault.newline_not_mem_report {f : Fault}
    (h : f.cause = .undeclaredLabel → '\n' ∉ f.token.lexeme.toList) :
    '\n' ∉ (Diagnostic.report f).toList := by
  have hcause : '\n' ∉ f.cause.description.toList := by cases f.cause <;> decide +kernel
  refine Diagnostic.newline_not_mem_report ?_ fun advice hadvice => ?_
  · show '\n' ∉ f.message.toList
    simp [message, Decimal.newline_not_mem_textNat, hcause, Text.newline_not_mem_quote]
  · replace hadvice : f.advice? = some advice := hadvice
    unfold advice? at hadvice
    split at hadvice
    · cases hadvice
      decide +kernel
    · cases hadvice
      decide +kernel
    · rename_i hlabel
      cases hadvice
      simp [h hlabel]
    · cases hadvice

/-! ## All problems of a source text -/

/-- Whatever the grammar has to say about a missing operand is a line. -/
def Grammar.Terse (g : Grammar) : Prop :=
  ∀ m slots, g.slots? m = some slots → ∀ slot ∈ slots, '\n' ∉ slot.message.toList

theorem Grammar.terse_standard : Terse .standard := by
  intro m slots hslots slot hslot hnewline
  cases hslots
  exact absurd (plain_message_standardSlots m slot hslot '\n' hnewline) (by decide)

theorem Stops.newline_not_mem_message {g : Grammar} (hg : g.Terse) {final : Token}
    {us ts : List Token} {e : SyntaxError} (h : Stops g final us ts e) :
    '\n' ∉ e.message.toList := by
  cases h with
  | unexpected _ _ => simp
  | noColon _ _ => simp
  | noOperand _ hslots _ _ => exact hg _ _ hslots _ (List.mem_append_right _ List.mem_cons_self)
  | unfitRule _ _ _ _ _ => simp

/-- Reports that are lines are told on as many lines. -/
theorem StaticErrors.split_message {e : StaticErrors} (hsome : e.reports ≠ [])
    (hlines : ∀ r ∈ e.reports, '\n' ∉ r.toList) :
    ((Diagnostic.message e).split '\n').toList.map String.Slice.copy = e.reports := by
  have hsplit := String.toList_split_intercalate hlines
  rwa [if_neg hsome] at hsplit

namespace Source

theorem newline_not_mem_lexeme {source : String} {t : Token} (ht : t ∈ words source)
    (hkind : t.kind = .identifier) : '\n' ∉ t.lexeme.toList := by
  cases spelling_of_mem_words ht with
  | identifier _ _ hword _ =>
    have hcount := Piece.lineEnds_eq_count hword
    exact List.count_eq_zero.1 hcount.symm
  | @numeral form _ hother _ _ =>
    rw [hkind] at hother
    cases form <;> cases hother
  | mnemonic hother | comma hother | colon hother =>
    rw [hkind] at hother
    cases hother

theorem newline_not_mem_reports {g : Grammar} (hg : g.Terse) (source : String) :
    ∀ r ∈ (staticErrors g source).reports, '\n' ∉ r.toList := by
  intro r hr
  rcases List.mem_append.1 hr with hr | hr
  · obtain ⟨e, -, rfl⟩ := List.mem_map.1 hr
    exact e.newline_not_mem_report
  · obtain ⟨e, he, rfl⟩ := List.mem_map.1 hr
    obtain ⟨us, rest, -, hstops⟩ := Reading.exists_stops he
    exact SyntaxError.newline_not_mem_report (hstops.newline_not_mem_message hg)

/-- The fault that ends an execution is reported on a line. -/
theorem newline_not_mem_report_of_run? {patience : Nat} {g : Grammar} {config : Config}
    {source : String} {f : Fault}
    (h : run? patience g config source = some (.error (.runtime [f]))) :
    '\n' ∉ (Diagnostic.report f).toList := by
  obtain ⟨p, hp, hexecute⟩ := exists_execute?_of_run? h
  obtain ⟨s, hs, m, c, hc, hmet, rfl⟩ :=
    Program.exists_check_of_execute? hexecute List.mem_cons_self
  have hword : c.token ∈ words source :=
    Program.mem_words_of_ofSource hp hs (Machine.token_mem_of_mem_checks hc)
  have hkind := Check.kind_token_of_not_met (spelling_of_mem_words hword) hmet
  refine Fault.newline_not_mem_report fun hlabel => newline_not_mem_lexeme hword ?_
  have hcause : c.cause = .undeclaredLabel := hlabel
  rw [hcause] at hkind
  exact hkind

/-- Every problem of a source text is reported on a line of its own.  If the text cannot be read
with the standard grammar, the message splits at its line ends into the reports of the errors, those
about words first, each in their order; so it has as many lines as there are errors.  If its
execution fails, the message is the report of the one fault, without a line end in it. -/
theorem reports_are_lines (source : String) :
    (∀ errors, Program.ofSource .standard source = .error errors →
      let lines := ((Diagnostic.message errors).split '\n').toList.map String.Slice.copy
      lines = errors.lexical.map Diagnostic.report ++ errors.syntactic.map Diagnostic.report ∧
      lines.length = errors.length) ∧
    ∀ patience config faults,
      run? patience .standard config source = some (.error (.runtime faults)) →
        let message := Diagnostic.message (Failure.runtime faults)
        '\n' ∉ message.toList ∧ ∃ f, faults = [f] ∧ message = Diagnostic.report f := by
  constructor
  · intro errors herrors
    obtain ⟨rfl, hsome⟩ := Program.ofSource_eq_error_iff.1 herrors
    have hreports : (staticErrors .standard source).reports ≠ [] := by
      simpa [StaticErrors.reports, Diagnostic.reports, or_iff_not_imp_left] using hsome
    have hlines := StaticErrors.split_message hreports
      (newline_not_mem_reports Grammar.terse_standard source)
    intro lines
    have hlength : lines.length = (staticErrors .standard source).length := by
      simp [lines, hlines, StaticErrors.reports, StaticErrors.length, Diagnostic.reports]
    exact ⟨hlines, hlength⟩
  · intro patience config faults hrun
    obtain ⟨p, -, hexecute⟩ := exists_execute?_of_run? hrun
    obtain ⟨f, rfl, -⟩ := Program.exists_fault_of_execute? hexecute
    have hmessage : Diagnostic.message (Failure.runtime [f]) = Diagnostic.report f :=
      String.intercalate_singleton
    intro message
    have hline : '\n' ∉ message.toList := by
      show '\n' ∉ (Diagnostic.message (Failure.runtime [f])).toList
      rw [hmessage]
      exact newline_not_mem_report_of_run? hrun
    exact ⟨hline, f, rfl, hmessage⟩

/-- A bad word and a missing label are told on two lines; a label that is not declared is told on
one. -/
theorem reports_are_lines_label :
    let bad := "@\nB"
    let lost := "B x\n"
    (∃ errors, Program.ofSource .standard bad = .error errors ∧
      ((Diagnostic.message errors).split '\n').toList.map String.Slice.copy =
        ["[line 1] unexpected character at \"@\" " ++
          "(help: this character does not occur in any token of AQA assembly)",
          "[line 2] Expect label identifier after B at end of file " ++
          "(help: expected identifier, found end of file)"] ∧ errors.length = 2) ∧
    ∃ f, run? 1 .standard ⟨4, 16, false⟩ lost = some (.error (.runtime [f])) ∧
      Diagnostic.report f =
        "[line 1] Invalid label identifier at \"x\" (help: declare the label with `x:`)" ∧
      '\n' ∉ (Diagnostic.message (Failure.runtime [f])).toList := by
  intro bad lost
  constructor
  · have hbad : (staticErrors .standard bad).lexical ≠ [] := by decide +kernel
    have hrefused : Program.ofSource .standard bad = .error (staticErrors .standard bad) :=
      Program.ofSource_eq_error_iff.2 ⟨rfl, .inl hbad⟩
    obtain ⟨hlines, -⟩ := (reports_are_lines bad).1 _ hrefused
    exact ⟨_, hrefused, hlines.trans (by decide +kernel), by decide +kernel⟩
  · have hlexical : (staticErrors .standard lost).lexical = [] := by decide +kernel
    have hsyntactic : (staticErrors .standard lost).syntactic = [] := by decide +kernel
    let p := (Reading.ofTokens .standard (tokens lost)).program
    have hsaid : ((Machine.load p ⟨4, 16, false⟩).steps 1).fault?.map Diagnostic.report =
        some "[line 1] Invalid label identifier at \"x\" (help: declare the label with `x:`)" := by
      decide +kernel
    obtain ⟨f, hf, hreport⟩ := Option.map_eq_some_iff.1 hsaid
    have hrun : run? 1 .standard ⟨4, 16, false⟩ lost = some (.error (.runtime [f])) :=
      run?_eq_runtime hlexical hsyntactic hf
    exact ⟨f, hrun, hreport, ((reports_are_lines lost).2 _ _ _ hrun).1⟩

end Source

end AqaAssembly
