import AqaAssembly.Proofs.Grammar.Writing
import AqaAssembly.Proofs.Program.Execution
import AqaAssembly.Proofs.Program.Instructions
import AqaAssembly.Proofs.Program.Recovery
import AqaAssembly.Proofs.Source.Words

/-!
# The standard grammar fits its instructions

A grammar says which tokens follow a mnemonic, and the instruction says which operands it takes.  In
a grammar of one's own the two may differ, and then the mnemonic is reported.  In the standard
grammar they agree: tokens in the slots of an instruction are its operands, as long as every numeral
among them carries its number (`Grammar.exists_ofTokens?_standardSlots`).  In a source text every
numeral does (`Source.decoded_of_mem_tokens`).

The standard grammar is also what its text says (`Grammar.read_standardText`).  The main result is
`Grammar.standard_fits`.
-/

namespace AqaAssembly

open Json.Reader Operand

/-- If the token is a numeral, it carries the number that it stands for. -/
def Token.Decoded (t : Token) : Prop := ∀ form : Numeral, t.kind = form.kind → t.integer?.isSome

/-! ## Slots and demands -/

namespace Slot

/-- What an instruction demands of a token in the slot, if the token is an operand. -/
def demand? (slot : Slot) : Option Demand :=
  match slot.kind with
  | .register => some (.number .register)
  | .address => some (.number .address)
  | .operand => some .flexible
  | .identifier => some .label
  | _ => none

/-- A token in the slot is what is demanded of it. -/
theorem Takes.met {slot : Slot} {t : Token} (h : slot.Takes t) (ht : t.Decoded) :
    ∀ d ∈ slot.demand?, d.Met t := by
  intro d hd
  have hnumber : ∀ form : Numeral, t.kind = form.kind → ∃ n, t.literal = some (.integer n) := by
    intro form hform
    obtain ⟨n, hn⟩ := Option.isSome_iff_exists.1 (ht form hform)
    exact ⟨n, Token.literal_of_integer? hn⟩
  obtain ⟨kind, message⟩ := slot
  cases kind with
  | register =>
    cases hd
    exact ⟨h, hnumber .register h⟩
  | address =>
    cases hd
    exact ⟨h, hnumber .address h⟩
  | operand =>
    cases hd
    rcases h with h | h
    · exact ⟨.inl h, hnumber .register h⟩
    · exact ⟨.inr h, hnumber .immediate h⟩
  | identifier =>
    cases hd
    exact h
  | mnemonic _ | immediate | colon | comma | endOfText => cases hd

/-- Tokens in slots for operands, with commas in between, are what the slots demand. -/
theorem met_operandTokens {slots : List Slot} {us : List Token}
    (h : List.Forall₂ Takes slots us) (hus : ∀ t ∈ us, t.Decoded)
    (hslots : ∀ slot ∈ slots, slot.demand? = none → slot.kind = .comma) :
    List.Forall₂ Demand.Met (slots.filterMap demand?) (operandTokens slots us) := by
  induction h with
  | nil => exact .nil
  | @cons slot u slots us hu _ ih =>
    obtain ⟨hdecoded, hus⟩ := List.forall_mem_cons.1 hus
    obtain ⟨hslot, hslots⟩ := List.forall_mem_cons.1 hslots
    rw [operandTokens_cons]
    cases hd : slot.demand? with
    | none =>
      rw [if_pos (hslot hd), List.filterMap_cons_none hd]
      exact ih hus hslots
    | some d =>
      have hcomma : slot.kind ≠ .comma := by
        intro hkind
        simp [demand?, hkind] at hd
      rw [if_neg hcomma, List.filterMap_cons_some hd]
      exact .cons (hu.met hdecoded d hd) (ih hus hslots)

end Slot

namespace Grammar

/-- The slots of an instruction demand what the instruction does. -/
theorem filterMap_demand?_standardSlots (m : Mnemonic) :
    (standardSlots m).filterMap Slot.demand? = m.demands := by
  cases m <;> rfl

/-- Tokens in the slots of an instruction are operands that the instruction takes. -/
theorem exists_ofTokens?_standardSlots {m : Mnemonic} {us : List Token}
    (h : List.Forall₂ Slot.Takes (standardSlots m) us) (hus : ∀ t ∈ us, t.Decoded) :
    ∃ i, Instruction.ofTokens? m (Slot.operandTokens (standardSlots m) us) = some i := by
  have hslots : ∀ slot ∈ standardSlots m, slot.demand? = none → slot.kind = .comma := by
    cases m <;>
      simp [standardSlots, transferSlots, pairSlots, tripleSlots, branchSlots, Slot.demand?]
  have hmet := Slot.met_operandTokens h hus hslots
  rw [filterMap_demand?_standardSlots] at hmet
  exact Instruction.exists_ofTokens?_of_met hmet

end Grammar

/-! ## Errors of syntax -/

namespace Reading

theorem mem_failures {e : SyntaxError} {rs : List (Except SyntaxError Statement)} :
    e ∈ failures rs ↔ .error e ∈ rs := by
  rw [failures, List.mem_filterMap]
  constructor
  · rintro ⟨r, hr, he⟩
    cases r with
    | ok s => cases he
    | error e' =>
      cases he
      exact hr
  · exact fun he => ⟨_, he, rfl⟩

/-- An error is reported where an attempt to read a declaration has stopped. -/
theorem exists_stops {g : Grammar} {ts : List Token} {e : SyntaxError}
    (he : e ∈ (ofTokens g ts).errors) :
    ∃ us rest, us ⊆ ts ∧ Stops g (finalToken ts) us rest e := by
  obtain ⟨rs, hsplits, houtcomes⟩ :=
    exists_splits g (finalToken ts) (ts.takeWhile (·.kind ≠ .endOfText))
  have herrors : (ofTokens g ts).errors = failures (rs.map Region.outcome) :=
    congrArg failures houtcomes
  rw [herrors, mem_failures] at he
  obtain ⟨r, hr, houtcome⟩ := List.mem_map.1 he
  have hused : r.used ⊆ ts := by
    intro t ht
    have hfront : t ∈ rs.flatMap Region.tokens :=
      List.mem_flatMap.2 ⟨r, hr, List.mem_append_left _ ht⟩
    rw [hsplits.flatMap_tokens] at hfront
    exact (List.takeWhile_sublist _).subset hfront
  obtain ⟨rest, harises⟩ := hsplits.exists_arises hr
  cases harises with
  | read _ _ => cases houtcome
  | failed hstops =>
    cases houtcome
    exact ⟨_, _, hused, hstops⟩

end Reading

/-- In a source text every numeral carries its number. -/
theorem Source.decoded_of_mem_tokens {source : String} {t : Token} (h : t ∈ tokens source) :
    t.Decoded := by
  intro form hform
  have hother : t.kind ≠ .endOfText ∧ t.kind ≠ .identifier ∧ t.kind ≠ .comma ∧ t.kind ≠ .colon ∧
      ∀ m, t.kind ≠ .mnemonic m := by
    rw [hform]
    cases form with
    | register | immediate | address => simp [Numeral.kind]
  obtain ⟨hend, hidentifier, hcomma, hcolon, hmnemonic⟩ := hother
  rcases List.mem_append.1 h with hword | hfinal
  · cases spelling_of_mem_words hword with
    | numeral _ hliteral _ => rw [Token.integer?, hliteral]; rfl
    | mnemonic hkind => exact absurd hkind (hmnemonic _)
    | identifier hkind _ _ _ => exact absurd hkind hidentifier
    | comma hkind => exact absurd hkind hcomma
    | colon hkind => exact absurd hkind hcolon
  · rw [List.mem_singleton.1 hfinal] at hend
    exact absurd rfl hend

namespace Grammar

/-- Read with the standard grammar, no tokens show that the grammar does not fit an instruction. -/
theorem cause_ne_unfitRule {ts : List Token} (hts : ∀ t ∈ ts, t.Decoded) {e : SyntaxError}
    (he : e ∈ (Reading.ofTokens .standard ts).errors) (kind : Token.Kind) :
    e.cause ≠ .unfitRule kind := by
  obtain ⟨us, rest, hus, hstops⟩ := Reading.exists_stops he
  cases hstops with
  | unexpected _ _ => exact nofun
  | noColon _ _ => exact nofun
  | noOperand _ _ _ _ => exact nofun
  | @unfitRule t m slots us _ _ hslots htake hread =>
    cases hslots
    obtain ⟨i, hi⟩ := exists_ofTokens?_standardSlots htake
      fun t ht => hts t (hus (List.mem_cons_of_mem _ ht))
    rw [hi] at hread
    cases hread

/-! ## The text of the standard grammar -/

theorem standardLines_eq : standardLines = linesOf (entriesOf standard) := by decide +kernel

theorem plain_message_standardSlots (m : Mnemonic) :
    ∀ slot ∈ standardSlots m, Plain slot.message := by
  have hall : ∀ m ∈ Mnemonic.all, ∀ slot ∈ standardSlots m, Plain slot.message := by
    decide +kernel
  exact hall m (Mnemonic.mem_all m)

/-- The text of the standard grammar describes the standard grammar. -/
theorem read_standardText : read standardText = .ok standard := by
  rw [standardText, standardLines_eq]
  refine read_text standard fun m slots hslots => ?_
  cases hslots
  exact plain_message_standardSlots m

/-- The standard grammar and the instructions agree.  Whatever tokens it reads, as long as every
numeral among them carries its number, no error says that a rule does not fit its instruction:
whenever tokens fill the slots of an instruction, the instruction takes them as its operands.  This
is so of the tokens of every source text.  The standard grammar is what its text describes, so
reading that text does not fail. -/
theorem standard_fits :
    (∀ ts, (∀ t ∈ ts, t.Decoded) → ∀ e ∈ (Reading.ofTokens .standard ts).errors,
      ∀ kind, e.cause ≠ .unfitRule kind) ∧
    (∀ m slots ts operands rest, standard.slots? m = some slots → (∀ t ∈ ts, t.Decoded) →
      Filling.ofTokens slots ts = .complete operands rest →
        ∃ i, Instruction.ofTokens? m operands = some i) ∧
    (∀ source, ∀ t ∈ Source.tokens source, t.Decoded) ∧
    (∀ source errors, Program.ofSource .standard source = .error errors →
      ∀ e ∈ errors.syntactic, ∀ kind, e.cause ≠ .unfitRule kind) ∧
    read standardText = .ok standard := by
  refine ⟨fun ts hts e he => cause_ne_unfitRule hts he, ?_,
    fun source t => Source.decoded_of_mem_tokens, ?_, read_standardText⟩
  · intro m slots ts operands rest hslots hts hfilling
    cases hslots
    obtain ⟨us, htake, rfl, rfl⟩ := Filling.exists_of_ofTokens_eq_complete hfilling
    exact exists_ofTokens?_standardSlots htake fun t ht => hts t (List.mem_append_left rest ht)
  · intro source errors herrors e he
    obtain ⟨rfl, -⟩ := Program.ofSource_eq_error_iff.1 herrors
    exact cause_ne_unfitRule (fun t => Source.decoded_of_mem_tokens) he

/-- The operands of a shift fill its slots and are taken.  Where a comma or a label is missing,
something else is reported. -/
theorem standard_fits_shift :
    let register : Token := ⟨.register, "r1", some (.integer 1), 1, ⟨4, 6⟩⟩
    let comma : Token := ⟨.comma, ",", none, 1, ⟨6, 7⟩⟩
    let immediate : Token := ⟨.immediate, "#3", some (.integer 3), 1, ⟨8, 10⟩⟩
    let ts := [register, comma, register, comma, immediate, comma]
    Filling.ofTokens (standardSlots .lsl) ts = .complete [register, register, immediate] [comma] ∧
    (∃ i, Instruction.ofTokens? .lsl [register, register, immediate] = some i) ∧
    ∃ errors, Program.ofSource .standard "LSL r1 r1, #3\nB 5" = .error errors ∧
      errors.syntactic.length = 2 ∧
      ∀ e ∈ errors.syntactic, ∀ kind, e.cause ≠ .unfitRule kind := by
  intro register comma immediate ts
  obtain ⟨-, htakes, -, hsource, -⟩ := standard_fits
  have hregister : register.Decoded := fun _ _ => rfl
  have himmediate : immediate.Decoded := fun _ _ => rfl
  have hcomma : comma.Decoded := by
    intro form hform
    cases form with
    | register | immediate | address => cases hform
  have hdecoded : ∀ t ∈ ts, t.Decoded := by simp [ts, hregister, himmediate, hcomma]
  have hfilling : Filling.ofTokens (standardSlots .lsl) ts =
      .complete [register, register, immediate] [comma] := rfl
  have hwrong : (Source.staticErrors .standard "LSL r1 r1, #3\nB 5").syntactic.length = 2 := by
    decide +kernel
  have hrefused : Program.ofSource .standard "LSL r1 r1, #3\nB 5" =
      .error (Source.staticErrors .standard "LSL r1 r1, #3\nB 5") := by
    refine Program.ofSource_eq_error_iff.2 ⟨rfl, .inr fun hnone => ?_⟩
    rw [hnone] at hwrong
    cases hwrong
  exact ⟨hfilling, htakes .lsl _ ts _ _ rfl hdecoded hfilling, _, hrefused, hwrong,
    hsource _ _ hrefused⟩

end Grammar

end AqaAssembly
