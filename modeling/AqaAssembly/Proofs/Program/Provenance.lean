import AqaAssembly.Proofs.Program.Language
import AqaAssembly.Proofs.Source.Words

/-!
# Where the tokens of a program come from

A program that is read from a source text has no tokens of its own: every operand keeps a word of
the text (`mem_words_of_ofSource`).  So its numbers are not negative and its labels are words that
name no instruction, and what was read can be written down again (`writable_of_ofSource`).
-/

namespace AqaAssembly

open Operand

/-- Is there a text that the operand can be read from?  A label is to be spelled as it is called. -/
def Operand.Writable : Operand → Prop
  | number x => 0 ≤ x.value.toInt
  | label l => l.token.literal = some (.name l.token.lexeme) ∧
    (Piece.word l.token.lexeme.toList).WellMade ∧ Mnemonic.ofName? l.token.lexeme = none

/-- Is there a text that the statement can be read from? -/
def Statement.Writable (s : Statement) : Prop := ∀ o ∈ s.operands, o.Writable

/-! ## From tokens to statements -/

theorem Slot.operandTokens_subset (slots : List Slot) (ts : List Token) :
    Slot.operandTokens slots ts ⊆ ts := by
  intro t ht
  unfold Slot.operandTokens at ht
  obtain ⟨⟨slot, u⟩, hu, hslot⟩ := List.mem_filterMap.1 ht
  have hmem := (List.of_mem_zip hu).2
  dsimp only at hslot
  split at hslot
  · cases hslot
  · cases hslot
    exact hmem

/-- A statement keeps tokens of its declaration. -/
theorem IsDeclaration.tokens_subset {g : Grammar} {ts : List Token} {s : Statement}
    (h : IsDeclaration g ts s) : s.tokens ⊆ ts := by
  cases h with
  | label ht hcolon =>
    intro t hmem
    rw [List.mem_singleton.1 hmem]
    exact List.mem_cons_self
  | @instruction t m slots ts i ht hslots htake hread =>
    have htokens : i.tokens = Slot.operandTokens slots ts :=
      (Instruction.ofTokens?_eq_some_iff.1 hread).2
    have hsubset : i.tokens ⊆ ts := htokens ▸ Slot.operandTokens_subset slots ts
    exact fun u hu => List.mem_cons_of_mem t (hsubset hu)

namespace Program

/-- The words of a source text that is accepted are the declarations of its statements. -/
theorem exists_decomposes_of_ofSource {g : Grammar} {source : String} {p : Program}
    (h : ofSource g source = .ok p) :
    ∃ ds, Decomposes g (Source.words source) ds ∧ p = ds.map Prod.snd := by
  unfold ofSource at h
  rw [Source.ofTokens_tokens] at h
  dsimp only at h
  split at h
  · rename_i hempty
    cases h
    obtain ⟨ds, hds⟩ := Reading.exists_decomposes (StaticErrors.isEmpty_iff.1 hempty).2
    refine ⟨ds, hds, ?_⟩
    have houtcomes := Reading.outcomes_of_decomposes hds (Source.finalToken source)
    have hmap : (ds.map fun d => (.ok d.2 : Except SyntaxError Statement)) =
        (ds.map Prod.snd).map .ok := List.map_map.symm
    rw [houtcomes, hmap, Reading.statements_map_ok]
  · cases h

/-- The tokens of a program are words of its source text. -/
theorem mem_words_of_ofSource {g : Grammar} {source : String} {p : Program}
    (h : ofSource g source = .ok p) {s : Statement} (hs : s ∈ p) {t : Token}
    (ht : t ∈ s.tokens) : t ∈ Source.words source := by
  obtain ⟨ds, ⟨hds, hwords⟩, rfl⟩ := exists_decomposes_of_ofSource h
  obtain ⟨d, hd, rfl⟩ := List.mem_map.1 hs
  rw [← hwords]
  exact List.mem_flatMap.2 ⟨d, hd, (hds d hd).tokens_subset ht⟩

end Program

/-! ## From words to operands -/

/-- An operand whose token is spelled like a word can be written down. -/
theorem Operand.writable_of_spelling {o : Operand} (h : Source.Spelling o.token) :
    o.Writable := by
  cases o with
  | @number form x =>
    have hkind : x.token.kind = form.kind := x.kind_token
    cases h with
    | numeral _ hliteral hn =>
      have hvalue := x.integer?_token
      rw [Token.integer?, show x.token.literal = _ from hliteral] at hvalue
      cases hvalue
      exact hn
    | mnemonic hk | identifier hk _ _ _ | comma hk | colon hk =>
      rw [show x.token.kind = _ from hk] at hkind
      cases form with
      | register | immediate | address => cases hkind
  | label l =>
    have hkind : l.token.kind = .identifier := l.kind_token
    cases h with
    | identifier _ hliteral hword hname => exact ⟨hliteral, hword, hname⟩
    | @numeral form _ hk _ _ =>
      rw [show l.token.kind = _ from hk] at hkind
      cases form with
      | register | immediate | address => cases hkind
    | mnemonic hk | comma hk | colon hk =>
      rw [show l.token.kind = _ from hk] at hkind
      cases hkind

/-- What was read from a source text can be written down. -/
theorem Program.writable_of_ofSource {g : Grammar} {source : String} {p : Program}
    (h : ofSource g source = .ok p) {s : Statement} (hs : s ∈ p) : s.Writable := by
  intro o ho
  have ht : o.token ∈ s.tokens := List.mem_map_of_mem ho
  exact writable_of_spelling (Source.spelling_of_mem_words (mem_words_of_ofSource h hs ht))

end AqaAssembly
