import AqaAssembly.Grammar.Standard
import AqaAssembly.Proofs.Machine.Likeness
import AqaAssembly.Proofs.Program.Rendering

/-!
# Reading what was written

A program that was written down is read back, with the standard grammar, as a program that differs
in nothing but where its tokens stand and how its numerals are written (`exists_ofSource_text`).

* `forall₂_words`: the words that are written mean what the tokens of the program mean;
* `decomposes_words`: the standard grammar finds the statements in their tokens;
* `ofSource_text`: reading a text with any grammar, writing the program down and reading it again
  gives a program that is written in the same way and does the same on every machine.
-/

namespace AqaAssembly

open Operand

/-! ## The tokens of a statement -/

namespace Token

/-- The token means what every token of that content means. -/
def MeansLike (t : Token) (c : Content) : Prop := ∀ u : Token, u.content = c → t.Alike u

/-- The name of an instruction at the beginning of a text. -/
def ofMnemonic (m : Mnemonic) : Token :=
  ⟨.mnemonic m, m.name, some (.name m.name), 1, ⟨0, m.name.utf8ByteSize⟩⟩

/-- A comma at the beginning of a text. -/
def leadingComma : Token := ⟨.comma, ",", none, 1, ⟨0, 1⟩⟩

/-- A colon at the beginning of a text. -/
def leadingColon : Token := ⟨.colon, ":", none, 1, ⟨0, 1⟩⟩

theorem meansLike_of_eq {t : Token} {c : Content} (hkind : t.kind = c.kind)
    (hliteral : t.literal = c.literal) (hlexeme : t.kind = .identifier → t.lexeme = c.lexeme) :
    t.MeansLike c := by
  rintro u rfl
  exact ⟨hkind, hliteral, hlexeme⟩

theorem meansLike_content (t : Token) : t.MeansLike t.content :=
  meansLike_of_eq rfl rfl fun _ => rfl

end Token

/-- The tokens of operands with commas in between. -/
def Operand.words : List Operand → List Token
  | [] => []
  | [o] => [o.token]
  | o :: os => o.token :: .leadingComma :: words os

/-- The tokens of a statement with all that belongs to its declaration. -/
def Statement.words : Statement → List Token
  | instruction i => .ofMnemonic i.mnemonic :: Operand.words i.operands
  | label l => [l.token, .leadingColon]

/-- The tokens of a program with all that belongs to the declarations of its statements. -/
def Program.words (p : Program) : List Token := p.flatMap Statement.words

/-! ## What is written means the same -/

/-- What an operand is written as means what its token means. -/
theorem Operand.Writable.exists_content {o : Operand} (h : o.Writable) :
    ∃ c, o.piece.content? = some c ∧ o.token.MeansLike c := by
  cases o with
  | @number form x =>
    have hx : 0 ≤ x.value.toInt := h
    have hlt := x.value.toInt_lt
    have hread : Decimal.read (Decimal.digits x.value.toInt.toNat) = .ok x.value := by
      have hle : x.value.toInt.toNat ≤ Decimal.maxValue := by
        unfold Decimal.maxValue
        omega
      rw [Decimal.read_digits hle]
      refine congrArg _ (Int64.toInt_inj.1 ?_)
      rw [Int64.toInt_ofNat_of_lt (by omega), Int.toNat_of_nonneg hx]
    refine ⟨_, Piece.content?_numeral hread, ?_⟩
    refine Token.meansLike_of_eq x.kind_token (Token.literal_of_integer? x.integer?_token) ?_
    intro hkind
    rw [token_number, x.kind_token] at hkind
    cases form with
    | register | immediate | address => cases hkind
  | label l =>
    obtain ⟨hliteral, -, hname⟩ := h
    rw [piece, Label.name_eq_lexeme hliteral]
    exact ⟨_, Piece.content?_identifier hname,
      Token.meansLike_of_eq l.kind_token hliteral fun _ => rfl⟩

theorem Operand.forall₂_words {os : List Operand} (h : ∀ o ∈ os, o.Writable) :
    List.Forall₂ Token.MeansLike (words os) ((pieces os).filterMap Piece.content?) := by
  have hblank : (Piece.blank [' ']).content? = none := rfl
  fun_induction pieces os with
  | case1 => exact .nil
  | case2 o =>
    obtain ⟨c, hc, hmeans⟩ := (h o (by simp)).exists_content
    rw [List.filterMap_cons_none hblank, List.filterMap_cons_some hc]
    exact .cons hmeans .nil
  | case3 o os hne ih =>
    obtain ⟨c, hc, hmeans⟩ := (h o (by simp)).exists_content
    have hcomma : Piece.comma.content? = some Token.leadingComma.content := rfl
    rw [List.filterMap_cons_none hblank, List.filterMap_cons_some hc,
      List.filterMap_cons_some hcomma, words]
    · exact .cons hmeans (.cons (Token.meansLike_content _) (ih fun q hq => h q (by simp [hq])))
    · exact hne

theorem Statement.Writable.forall₂_words {s : Statement} (h : s.Writable) :
    List.Forall₂ Token.MeansLike s.words (s.pieces.filterMap Piece.content?) := by
  cases s with
  | instruction i =>
    have hmnemonic : (Piece.word i.mnemonic.name.toList).content? =
        some (Token.ofMnemonic i.mnemonic).content := Piece.content?_mnemonic _
    have hoperands : ∀ o ∈ i.operands, o.Writable := h
    rw [pieces, List.filterMap_cons_some hmnemonic]
    exact .cons (Token.meansLike_content _) (Operand.forall₂_words hoperands)
  | label l =>
    obtain ⟨c, hc, hmeans⟩ := (h (.label l) List.mem_cons_self).exists_content
    have hcolon : Piece.colon.content? = some Token.leadingColon.content := rfl
    have hl : (Piece.word l.name.toList).content? = some c := hc
    rw [pieces, List.filterMap_cons_some hl, List.filterMap_cons_some hcolon]
    exact .cons hmeans (.cons (Token.meansLike_content _) .nil)

/-- The pieces of what is written make words that mean what the tokens of the program mean. -/
theorem Program.forall₂_words {p : Program} (h : ∀ s ∈ p, s.Writable) :
    List.Forall₂ Token.MeansLike (words p) ((pieces p).filterMap Piece.content?) := by
  fun_induction pieces p with
  | case1 => exact .nil
  | case2 s =>
    rw [words, List.flatMap_singleton]
    exact (h s (by simp)).forall₂_words
  | case3 s p hne ih =>
    have hlineEnd : Piece.lineEnd.content? = none := rfl
    rw [words, List.flatMap_cons, List.filterMap_append, List.filterMap_cons_none hlineEnd]
    exact List.rel_append (h s (by simp)).forall₂_words (ih fun t ht => h t (by simp [ht]))

/-- The words that are written mean what the tokens of the program mean. -/
theorem Program.forall₂_alike {p : Program} (h : ∀ s ∈ p, s.Writable) :
    List.Forall₂ Token.Alike (words p) (Source.words (text p)) := by
  have hwords := forall₂_words h
  rw [← cut_text h, ← Source.map_content_words, List.forall₂_map_right_iff] at hwords
  exact hwords.imp fun t u htu => htu u rfl

/-! ## The standard grammar finds the statements -/

namespace Slot

/-- The operands, with commas in between, are what the slots ask for. -/
structure Fit (slots : List Slot) (os : List Operand) : Prop where
  takes : List.Forall₂ Takes slots (words os)
  operandTokens_eq : operandTokens slots (words os) = os.map Operand.token

theorem takes_number {form : Numeral} (x : Number form) (message : String) :
    Takes ⟨form.kind, message⟩ x.token := by
  have hoperand : form.kind ≠ .operand := by
    cases form with
    | _ => decide
  rw [Takes, if_neg hoperand]
  exact x.kind_token

theorem takes_flexible (f : Flexible) (message : String) :
    Takes ⟨.operand, message⟩ f.toOperand.token := by
  rw [Takes, if_pos rfl]
  cases f with
  | immediate i => exact .inr i.kind_token
  | register r => exact .inl r.kind_token

theorem fit_transfer (m : Mnemonic) (r : Register) (a : Address) :
    Fit (Grammar.transferSlots m) [.number r, .number a] where
  takes := .cons (takes_number r _)
    (.cons rfl (.cons (takes_number a _) .nil))
  operandTokens_eq := rfl

theorem fit_pair (m : Mnemonic) (d : Register) (f : Flexible) :
    Fit (Grammar.pairSlots m) [.number d, f.toOperand] where
  takes := .cons (takes_number d _) (.cons rfl (.cons (takes_flexible f _) .nil))
  operandTokens_eq := rfl

theorem fit_triple (m : Mnemonic) (d l : Register) (f : Flexible) :
    Fit (Grammar.tripleSlots m) [.number d, .number l, f.toOperand] where
  takes := .cons (takes_number d _)
    (.cons rfl (.cons (takes_number l _)
      (.cons rfl (.cons (takes_flexible f _) .nil))))
  operandTokens_eq := rfl

theorem fit_target (m : Mnemonic) (l : Label) : Fit (Grammar.branchSlots m) [.label l] where
  takes := .cons l.kind_token .nil
  operandTokens_eq := rfl

/-- The operands of every instruction are what the standard grammar asks for. -/
theorem fit_standard (i : Instruction) :
    Fit (Grammar.standardSlots i.mnemonic) i.operands := by
  cases i with
  | load r a => exact fit_transfer .ldr r a
  | store r a => exact fit_transfer .str r a
  | compute op d l f =>
    have hslots : Grammar.standardSlots op.mnemonic = Grammar.tripleSlots op.mnemonic := by
      cases op with
      | _ => rfl
    rw [Instruction.mnemonic, hslots]
    exact fit_triple _ d l f
  | shift direction d v f =>
    have hslots :
        Grammar.standardSlots direction.mnemonic = Grammar.tripleSlots direction.mnemonic := by
      cases direction with
      | _ => rfl
    rw [Instruction.mnemonic, hslots]
    exact fit_triple _ d v f
  | move d f => exact fit_pair .mov d f
  | complement d f => exact fit_pair .mvn d f
  | compare l f => exact fit_pair .cmp l f
  | branch condition l =>
    have hslots :
        Grammar.standardSlots condition.mnemonic = Grammar.branchSlots condition.mnemonic := by
      cases condition with
      | _ => rfl
    rw [Instruction.mnemonic, hslots]
    exact fit_target _ l
  | halt => exact ⟨.nil, rfl⟩

end Slot

theorem isDeclaration_words (s : Statement) : IsDeclaration .standard s.words s := by
  cases s with
  | instruction i =>
    obtain ⟨htakes, hoperands⟩ := Slot.fit_standard i
    refine .instruction rfl rfl htakes ?_
    rw [hoperands]
    exact Instruction.ofTokens?_tokens i
  | label l => exact .label l.kind_token rfl

/-- The tokens of a program are the declarations of its statements. -/
theorem Program.decomposes_words (p : Program) :
    Decomposes .standard (words p) (p.map fun s => (s.words, s)) := by
  refine ⟨fun d hd => ?_, List.flatMap_map ..⟩
  obtain ⟨s, -, rfl⟩ := List.mem_map.1 hd
  exact isDeclaration_words s

/-! ## Nothing that is written is reported -/

/-- Wherever the piece stands, it is not reported. -/
def Piece.Sound (p : Piece) : Prop := ∀ line start, PlacedPiece.error? ⟨p, line, start⟩ = none

theorem Piece.sound_of_content? {p : Piece} {c : Token.Content} (h : p.content? = some c) :
    p.Sound := by
  intro line start
  have hmap := PlacedPiece.map_content_token? p line start 1 0
  rw [← content?, h, Option.map_eq_some_iff] at hmap
  obtain ⟨t, ht, -⟩ := hmap
  exact Source.error?_eq_none_of_token? ht

theorem Operand.Writable.sound_piece {o : Operand} (h : o.Writable) : o.piece.Sound := by
  obtain ⟨c, hc, -⟩ := h.exists_content
  exact Piece.sound_of_content? hc

theorem Operand.sound_of_mem_pieces {os : List Operand} (h : ∀ o ∈ os, o.Writable) :
    ∀ q ∈ pieces os, q.Sound := by
  have hblank : (Piece.blank [' ']).Sound := fun _ _ => rfl
  have hcomma : Piece.comma.Sound := fun _ _ => rfl
  fun_induction pieces os with
  | case1 => simp
  | case2 o =>
    have ho := (h o (by simp)).sound_piece
    simp [hblank, ho]
  | case3 o os hne ih =>
    have ho := (h o (by simp)).sound_piece
    have hos := ih fun q hq => h q (by simp [hq])
    simp only [List.forall_mem_cons]
    exact ⟨hblank, ho, hcomma, hos⟩

theorem Statement.Writable.sound_of_mem_pieces {s : Statement} (h : s.Writable) :
    ∀ q ∈ s.pieces, q.Sound := by
  cases s with
  | instruction i =>
    have hmnemonic := Piece.sound_of_content? (Piece.content?_mnemonic i.mnemonic)
    exact List.forall_mem_cons.2 ⟨hmnemonic, Operand.sound_of_mem_pieces h⟩
  | label l =>
    have hl := (h (.label l) List.mem_cons_self).sound_piece
    exact List.forall_mem_cons.2 ⟨hl, List.forall_mem_singleton.2 fun _ _ => rfl⟩

theorem Program.sound_of_mem_pieces {p : Program} (h : ∀ s ∈ p, s.Writable) :
    ∀ q ∈ pieces p, q.Sound := by
  fun_induction pieces p with
  | case1 => simp
  | case2 s => exact (h s (by simp)).sound_of_mem_pieces
  | case3 s p hne ih =>
    have hs := (h s (by simp)).sound_of_mem_pieces
    have hp := ih fun t ht => h t (by simp [ht])
    exact List.forall_mem_append.2 ⟨hs, List.forall_mem_cons.2 ⟨fun _ _ => rfl, hp⟩⟩

/-! ## Reading what was written -/

namespace Program

theorem pieces_ne_nil {p : Program} (h : p ≠ []) : pieces p ≠ [] := by
  have hstatement : ∀ s : Statement, s.pieces ≠ [] := fun s => by
    cases s with
    | instruction i => exact List.cons_ne_nil _ _
    | label l => exact List.cons_ne_nil _ _
  fun_cases pieces p with
  | case1 => exact absurd rfl h
  | case2 s => exact hstatement s
  | case3 s p hne => simp

theorem text_ne_empty {p : Program} (hp : p ≠ []) (h : ∀ s ∈ p, s.Writable) : p.text ≠ "" := by
  intro htext
  have hcut := cut_text h
  rw [htext, String.toList_empty, Piece.cut_nil] at hcut
  exact pieces_ne_nil hp hcut.symm

/-- Nothing is wrong with the words of what was written. -/
theorem lexicalErrors_text {p : Program} (hp : p ≠ []) (h : ∀ s ∈ p, s.Writable) :
    Source.lexicalErrors p.text = [] := by
  refine Source.lexicalErrors_eq_nil (text_ne_empty hp h) ?_
  rw [cut_text h]
  exact sound_of_mem_pieces h

/-- What was written is read back as a program that is alike. -/
theorem exists_ofSource_text {p : Program} (hp : p ≠ []) (h : ∀ s ∈ p, s.Writable) :
    ∃ q, ofSource .standard p.text = .ok q ∧ List.Forall₂ (Statement.Like Token.Alike) p q := by
  let final := Source.finalToken p.text
  have houtcomes : Reading.outcomes .standard final (words p) = p.map .ok := by
    rw [Reading.outcomes_of_decomposes (decomposes_words p), List.map_map]
    rfl
  have hread := Reading.like_outcomes le_rfl .standard (Token.Alike.refl final) (forall₂_alike h)
  rw [houtcomes] at hread
  obtain ⟨q, hq, hlike⟩ := Reading.exists_forall₂_of_map_ok hread
  refine ⟨q, ?_, hlike⟩
  have htokens := Source.ofTokens_tokens .standard p.text
  rw [hq, Reading.statements_map_ok, Reading.failures_map_ok] at htokens
  rw [ofSource, htokens, lexicalErrors_text hp h]
  rfl

/-- Programs that are alike are written alike. -/
theorem text_congr {R : Token → Token → Prop} {p q : Program}
    (h : List.Forall₂ (Statement.Like R) p q) : p.text = q.text := by
  rw [text, text, map_text_congr h]

/-- A program that was read from a text, with any grammar, can be written down and read again with
the standard grammar.  Statement by statement, what is read then has the same operands: only the
places of its tokens, and the way in which its numerals are written, may be others.  It is written
down in the same way, and on a machine of any size it does the same within any number of
statements. -/
theorem ofSource_text {g : Grammar} {source : String} {p : Program}
    (h : ofSource g source = .ok p) (hp : p ≠ []) :
    ∃ q, ofSource .standard p.text = .ok q ∧ q.length = p.length ∧
      List.Forall₂ (Statement.Like Token.Alike) p q ∧ q.text = p.text ∧
      ∀ config n,
        let o := Machine.runFor n (.load p config)
        let o' := Machine.runFor n (.load q config)
        o'.machine.registers = o.machine.registers ∧ o'.machine.memory = o.machine.memory ∧
        o'.machine.flags = o.machine.flags ∧ o'.machine.pc = o.machine.pc ∧
        o'.machine.executed = o.machine.executed ∧ o'.machine.halted = o.machine.halted ∧
        o'.machine.fault?.map Fault.cause = o.machine.fault?.map Fault.cause ∧
        o'.fault?.map Fault.cause = o.fault?.map Fault.cause := by
  obtain ⟨q, hq, hlike⟩ := exists_ofSource_text hp fun s hs => writable_of_ofSource h hs
  refine ⟨q, hq, hlike.length_eq.symm, hlike, (text_congr hlike).symm, fun config n => ?_⟩
  obtain ⟨hmachine, hfault⟩ := (Machine.like_load hlike config).runFor n
  have hexecuted := hmachine.executed_eq
  rw [UInt64.add_zero] at hexecuted
  exact ⟨hmachine.registers_eq, hmachine.memory_eq, hmachine.flags_eq,
    hmachine.pc_eq, hexecuted, hmachine.halted_eq, Fault.map_cause_eq_of_rel hmachine.fault?,
    Fault.map_cause_eq_of_rel hfault⟩

/-- A grammar with two instructions and without commas. -/
def terse : Grammar where
  slots?
    | .mov => some [⟨.register, "a register is missing"⟩, ⟨.immediate, "a value is missing"⟩]
    | .b => some [⟨.identifier, "a label is missing"⟩]
    | _ => none
  kind_ne_endOfText m slots h := by
    cases m with
    | mov | b =>
      cases h
      decide
    | _ => cases h

/-- What is read without commas is written with commas, and its numerals without leading zeros. -/
theorem ofSource_text_terse : ∃ p q,
    ofSource terse "a1:MOV r01 #007;x\n\nB a1" = .ok p ∧ p ≠ [] ∧
    p.text = "a1:\nMOV r1, #7\nB a1" ∧ ofSource .standard p.text = .ok q ∧ q.text = p.text := by
  have hread : (ofSource terse "a1:MOV r01 #007;x\n\nB a1").toOption.map text =
      some "a1:\nMOV r1, #7\nB a1" := by decide +kernel
  obtain ⟨p, hp, htext⟩ := Option.map_eq_some_iff.1 hread
  have hsource : ofSource terse "a1:MOV r01 #007;x\n\nB a1" = .ok p := by
    cases hr : ofSource terse "a1:MOV r01 #007;x\n\nB a1" with
    | ok p' =>
      rw [hr] at hp
      exact congrArg _ (Option.some.inj hp)
    | error e =>
      rw [hr] at hp
      cases hp
  have hne : p ≠ [] := by
    rintro rfl
    exact absurd htext (by decide)
  obtain ⟨q, hq, -, -, hqtext, -⟩ := ofSource_text hsource hne
  exact ⟨p, q, hsource, hne, htext, hq, hqtext⟩

end Program

end AqaAssembly
