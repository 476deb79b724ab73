import AqaAssembly.Proofs.Program.Provenance

/-!
# Writing a program down

A program is written down with a statement on each line.  What is written is made of known pieces,
and cutting it gives just these (`Program.cut_text`): no two of them run into one another.  This
holds for all statements that can be read from some text (`Statement.Writable`), whatever the
grammar.
-/

namespace AqaAssembly

open Operand

/-- The program as it is written down, with a statement on each line. -/
def Program.text (p : Program) : String := "\n".intercalate (p.map Statement.text)

/-! ## The pieces of what is written -/

/-- The piece as which an operand is written. -/
def Operand.piece : Operand → Piece
  | @number form x => .numeral form (Decimal.digits x.value.toInt.toNat)
  | label l => .word l.name.toList

/-- The pieces as which operands are written behind a mnemonic. -/
def Operand.pieces : List Operand → List Piece
  | [] => []
  | [o] => [.blank [' '], o.piece]
  | o :: os => .blank [' '] :: o.piece :: .comma :: pieces os

/-- The pieces as which a statement is written. -/
def Statement.pieces : Statement → List Piece
  | instruction i => .word i.mnemonic.name.toList :: Operand.pieces i.operands
  | label l => [.word l.name.toList, .colon]

/-- The pieces as which a program is written. -/
def Program.pieces : Program → List Piece
  | [] => []
  | [s] => s.pieces
  | s :: p => s.pieces ++ .lineEnd :: pieces p

namespace Operand

theorem Label.name_eq_lexeme {l : Label} (h : l.token.literal = some (.name l.token.lexeme)) :
    l.name = l.token.lexeme := by
  simp [name, Token.name?, h]

theorem Writable.text_piece {o : Operand} (h : o.Writable) : o.piece.text = o.text.toList := by
  cases o with
  | @number form x =>
    have hvalue : x.value.toInt = Int.ofNat x.value.toInt.toNat := (Int.toNat_of_nonneg h).symm
    rw [text_number, Number.text, hvalue]
    simp [piece, Decimal.text]
  | label l => rfl

theorem flatMap_text_pieces {os : List Operand} (hos : os ≠ []) (h : ∀ o ∈ os, o.Writable) :
    (pieces os).flatMap Piece.text = (" " ++ ", ".intercalate (os.map Operand.text)).toList := by
  fun_induction pieces os with
  | case1 => exact absurd rfl hos
  | case2 o => simp [(h o (by simp)).text_piece]
  | case3 o os hne ih =>
    have hos : os ≠ [] := fun hnil => hne hnil
    have hrest := ih hos fun q hq => h q (by simp [hq])
    rw [List.map_cons, String.intercalate_cons_of_ne_nil (by simpa using hos)]
    simp [hrest, (h o (by simp)).text_piece]

end Operand

/-- A statement is written as its pieces. -/
theorem Statement.Writable.flatMap_text_pieces {s : Statement} (h : s.Writable) :
    s.pieces.flatMap Piece.text = s.text.toList := by
  cases s with
  | label l => simp [pieces, text]
  | instruction i =>
    have hoperands : ∀ o ∈ i.operands, o.Writable := h
    rw [pieces, List.flatMap_cons, text, Instruction.text]
    generalize i.operands = os at hoperands ⊢
    cases os with
    | nil => simp [Operand.pieces]
    | cons o os =>
      rw [Operand.flatMap_text_pieces (by simp) hoperands]
      simp

/-- A program is written as its pieces. -/
theorem Program.flatMap_text_pieces {p : Program} (h : ∀ s ∈ p, s.Writable) :
    (pieces p).flatMap Piece.text = (text p).toList := by
  unfold text
  fun_induction pieces p with
  | case1 => rfl
  | case2 s => simp [(h s (by simp)).flatMap_text_pieces]
  | case3 s p hne ih =>
    have hp : p ≠ [] := fun hnil => hne hnil
    have hrest := ih fun t ht => h t (by simp [ht])
    rw [List.map_cons, String.intercalate_cons_of_ne_nil (by simpa using hp), List.flatMap_append,
      List.flatMap_cons, hrest, (h s (by simp)).flatMap_text_pieces]
    simp

/-! ## The pieces are whole -/

namespace Operand

theorem Writable.wellMade_piece {o : Operand} (h : o.Writable) : o.piece.WellMade := by
  cases o with
  | @number form x =>
    have hdigits := @Decimal.isDigit_of_mem_digits x.value.toInt.toNat
    refine ⟨fun c hc => by simp [Char.isAlphanum, hdigits hc], fun _ => ?_⟩
    obtain ⟨c, cs, hcs⟩ := List.exists_cons_of_ne_nil (Decimal.digits_ne_nil x.value.toInt.toNat)
    refine ⟨c, by rw [hcs]; rfl, hdigits (by rw [hcs]; exact List.mem_cons_self)⟩
  | label l =>
    obtain ⟨hliteral, hword, -⟩ := h
    rw [piece, Label.name_eq_lexeme hliteral]
    exact hword

theorem goesOn_piece (o : Operand) : o.piece.goesOn = Char.isAlphanum := by
  cases o with
  | number x => rfl
  | label l => rfl

/-- What an operand is written as begins with no blank. -/
theorem Writable.isBlank_eq_false {o : Operand} (h : o.Writable) (cs : List Char) :
    ∀ c ∈ (o.piece.text ++ cs).head?, Piece.isBlank c = false := by
  intro c hc
  have hmade := h.wellMade_piece
  cases o with
  | @number form x =>
    cases form with
    | register =>
      cases hc
      rfl
    | immediate =>
      cases hc
      rfl
    | address =>
      obtain ⟨hdigits, hhead⟩ := hmade
      obtain ⟨d, hd, -⟩ := hhead rfl
      obtain ⟨ds, hds⟩ := List.head?_eq_some_iff.1 hd
      have htext : (number x).piece.text = d :: ds := hds
      rw [htext] at hc
      cases hc
      exact Piece.isBlank_eq_false_of_isAlphanum (hdigits c (List.mem_of_mem_head? hd))
  | label l =>
    obtain ⟨hletters, d, hd, -⟩ := hmade
    obtain ⟨ds, hds⟩ := List.head?_eq_some_iff.1 hd
    have htext : (label l).piece.text = d :: ds := hds
    rw [htext] at hc
    cases hc
    exact Piece.isBlank_eq_false_of_isAlphanum (hletters c (List.mem_of_mem_head? hd))

theorem stand_pieces {os : List Operand} (h : ∀ o ∈ os, o.Writable) {rest : List Char}
    (hrest : ∀ c ∈ rest.head?, c.isAlphanum = false) : Piece.Stand (pieces os) rest := by
  have hblank : Piece.WellMade (.blank [' ']) := ⟨by simp, by simp⟩
  have hends : ∀ (o : Operand) (cs : List Char), (∀ c ∈ cs.head?, c.isAlphanum = false) →
      o.piece.EndsBefore cs := by
    intro o cs hcs
    rw [Piece.EndsBefore, goesOn_piece]
    exact hcs
  fun_induction pieces os with
  | case1 => trivial
  | case2 o =>
    have ho := h o (by simp)
    refine ⟨hblank, ?_, ho.wellMade_piece, hends o rest hrest, trivial⟩
    rw [List.flatMap_cons, List.append_assoc]
    exact ho.isBlank_eq_false _
  | case3 o os hne ih =>
    have ho := h o (by simp)
    refine ⟨hblank, ?_, ho.wellMade_piece, hends o _ ?_, trivial, ?_, ?_⟩
    · rw [List.flatMap_cons, List.append_assoc]
      exact ho.isBlank_eq_false _
    · intro c hc
      cases hc
      rfl
    · exact fun _ _ => rfl
    · exact ih fun q hq => h q (by simp [hq])

end Operand

theorem wellMade_name (m : Mnemonic) : (Piece.word m.name.toList).WellMade := by
  cases m with
  | _ => exact ⟨List.all_eq_true.1 rfl, _, rfl, rfl, by decide⟩

theorem Statement.Writable.stand_pieces {s : Statement} (h : s.Writable) {rest : List Char}
    (hrest : ∀ c ∈ rest.head?, c.isAlphanum = false) : Piece.Stand s.pieces rest := by
  cases s with
  | instruction i =>
    have hoperands : ∀ o ∈ i.operands, o.Writable := h
    refine ⟨wellMade_name i.mnemonic, ?_, Operand.stand_pieces hoperands hrest⟩
    -- the mnemonic is followed by a blank, or by the rest if there are no operands
    generalize i.operands = os
    fun_cases Operand.pieces os with
    | case1 => exact hrest
    | case2 | case3 =>
      intro c hc
      cases hc
      rfl
  | label l =>
    have hl : (Operand.label l).Writable := h (.label l) List.mem_cons_self
    refine ⟨hl.wellMade_piece, ?_, trivial, fun _ _ => rfl, trivial⟩
    intro c hc
    cases hc
    rfl

theorem Program.stand_pieces {p : Program} (h : ∀ s ∈ p, s.Writable) :
    Piece.Stand (pieces p) [] := by
  fun_induction pieces p with
  | case1 => trivial
  | case2 s => exact (h s (by simp)).stand_pieces (by simp)
  | case3 s p hne ih =>
    rw [Piece.stand_append]
    refine ⟨(h s (by simp)).stand_pieces ?_, trivial, fun _ _ => rfl, ?_⟩
    · intro c hc
      cases hc
      rfl
    · exact ih fun t ht => h t (by simp [ht])

/-- What is written is cut into the pieces as which it was written. -/
theorem Program.cut_text {p : Program} (h : ∀ s ∈ p, s.Writable) :
    Piece.cut (text p).toList = pieces p := by
  rw [← flatMap_text_pieces h]
  exact Piece.cut_flatMap_text (stand_pieces h)

end AqaAssembly
