import AqaAssembly.Proofs.Source.Cutting
import AqaAssembly.Source.Scan

/-!
# Where pieces stand

The place of a piece is fixed by the text in front of it: its line is one more than the line ends in
that text, and it starts behind the bytes of that text (`place_append`).  Where the first piece
stands matters in no other way: more lines and more bytes in front of it move every piece by as much
(`place_add`).
-/

namespace AqaAssembly

namespace PlacedPiece

/-- The piece with more lines and more bytes in front of it. -/
def moved (lines bytes : Nat) (p : PlacedPiece) : PlacedPiece :=
  ⟨p.piece, p.line + lines, p.start + bytes⟩

end PlacedPiece

namespace Piece

/-- The bytes of a text as it is stored. -/
theorem byteSize_toList (source : String) : byteSize source.toList = source.utf8ByteSize := by
  have hlist : ∀ cs : List Char, byteSize cs = (String.ofList cs).utf8ByteSize := by
    intro cs
    induction cs with
    | nil => rfl
    | cons c cs ih =>
      rw [byteSize_cons, ih, String.ofList_cons, String.utf8ByteSize_append,
        String.utf8ByteSize_singleton]
  rw [hlist, String.ofList_toList]

/-- A piece ends as many lines as there are line ends in its text. -/
theorem lineEnds_eq_count {p : Piece} (h : p.WellMade) : p.lineEnds = p.text.count '\n' := by
  have hnone : ∀ {q : Piece}, '\n' ∉ q.text → q.text.count '\n' = 0 := List.count_eq_zero.2
  have halnum : ∀ {cs : List Char}, (∀ c ∈ cs, c.isAlphanum) → '\n' ∉ cs := fun hcs hmem =>
    absurd (hcs _ hmem) (by decide)
  cases p with
  | blank run =>
    refine (hnone fun hmem => ?_).symm
    exact absurd (h.2 _ hmem) (by decide)
  | lineEnd => rfl
  | comment body =>
    refine (hnone fun hmem => ?_).symm
    rcases List.mem_cons.1 hmem with heq | hmem
    · exact absurd heq (by decide)
    · exact h _ hmem rfl
  | comma => rfl
  | colon => rfl
  | numeral form digits =>
    refine (hnone fun hmem => ?_).symm
    rcases List.mem_append.1 hmem with hmark | hdigit
    · cases form with
      | register | immediate | address => exact absurd hmark (by decide)
    · exact halnum h.1 hdigit
  | word letters => exact (hnone (q := .word letters) (halnum h.1)).symm
  | stray c =>
    refine (hnone fun hmem => ?_).symm
    have hstray : beginsPiece c = false := h
    rw [← List.mem_singleton.1 hmem] at hstray
    exact absurd hstray (by decide)

/-- A piece that is made as its sort demands has some text. -/
theorem text_ne_nil {p : Piece} (h : p.WellMade) : p.text ≠ [] := by
  obtain ⟨c, cs, htext, -⟩ := first_text_append h (show p.EndsBefore [] from fun c hc => nomatch hc)
  rw [List.append_nil] at htext
  exact htext ▸ List.cons_ne_nil c cs

/-- A piece that is made as its sort demands takes up some bytes. -/
theorem byteSize_text_pos {p : Piece} (h : p.WellMade) : 0 < byteSize p.text := by
  obtain ⟨c, cs, htext⟩ := List.exists_cons_of_ne_nil (text_ne_nil h)
  rw [htext]
  exact Nat.lt_of_lt_of_le c.utf8Size_pos (Nat.le_add_right _ _)

/-- Pieces behind others stand behind the text of these. -/
theorem place_append {ps : List Piece} (h : ∀ p ∈ ps, p.WellMade) (line start : Nat)
    (qs : List Piece) :
    place line start (ps ++ qs) = place line start ps ++
      place (line + (ps.flatMap text).count '\n') (start + byteSize (ps.flatMap text)) qs := by
  induction ps generalizing line start with
  | nil => rfl
  | cons p ps ih =>
    obtain ⟨hp, hps⟩ := List.forall_mem_cons.1 h
    rw [List.cons_append, place, place, ih hps, lineEnds_eq_count hp, List.flatMap_cons,
      List.count_append, byteSize_append, Nat.add_assoc, Nat.add_assoc]
    rfl

/-- More lines and more bytes in front of pieces move them all. -/
theorem place_add (line start lines bytes : Nat) (ps : List Piece) :
    place (line + lines) (start + bytes) ps =
      (place line start ps).map (PlacedPiece.moved lines bytes) := by
  induction ps generalizing line start with
  | nil => rfl
  | cons p ps ih =>
    rw [place, place, List.map_cons, ← ih, Nat.add_right_comm, Nat.add_right_comm start]
    rfl

/-- Pieces stand behind what is in front of the first of them. -/
theorem start_le_of_mem_place {line start : Nat} {ps : List Piece} {q : PlacedPiece}
    (h : q ∈ place line start ps) : start ≤ q.start := by
  induction ps generalizing line start with
  | nil => cases h
  | cons p ps ih =>
    rcases List.mem_cons.1 h with rfl | h
    · exact Nat.le_refl _
    · exact Nat.le_trans (Nat.le_add_right _ _) (ih h)

/-- Pieces stand in front of what is behind the last of them. -/
theorem start_lt_of_mem_place {line start : Nat} {ps : List Piece} (hps : ∀ p ∈ ps, p.WellMade)
    {q : PlacedPiece} (h : q ∈ place line start ps) :
    q.start < start + byteSize (ps.flatMap text) := by
  induction ps generalizing line start with
  | nil => cases h
  | cons p ps ih =>
    obtain ⟨hp, hps⟩ := List.forall_mem_cons.1 hps
    have hpos := byteSize_text_pos hp
    rw [List.flatMap_cons, byteSize_append]
    rcases List.mem_cons.1 h with rfl | h
    · show start < _
      omega
    · have hlt := ih hps h
      omega

end Piece

end AqaAssembly
