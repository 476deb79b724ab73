import AqaAssembly.Proofs.Source.Places
import AqaAssembly.Proofs.Source.Words

/-!
# Where tokens stand

What is said of a source text is said at one of its tokens.  Such a token can be found again in the
text (`Token.StandsIn`): it is written where its bytes are, on the line that follows the line ends
in front of it.  This is so of every token, the end of the text included
(`standsIn_of_mem_tokens`).  From one token to the next, and from one bad word to the next, the
lines never go back (`pairwise_line_tokens`, `pairwise_line_lexicalErrors`).
-/

namespace AqaAssembly

/-- The token is one of the tokens of the source text, and it is written there where its bytes are,
on its line. -/
structure Token.StandsIn (source : String) (t : Token) : Prop where
  mem : t ∈ Source.tokens source
  exists_front : ∃ front back, source.toList = front ++ t.lexeme.toList ++ back ∧
    t.line = 1 + front.count '\n' ∧
    t.span = ⟨Piece.byteSize front, Piece.byteSize front + t.lexeme.utf8ByteSize⟩

namespace PlacedPiece

variable {p : PlacedPiece}

/-- A token is written as its piece is, and stands where that stands. -/
theorem exists_eq_toToken {t : Token} (h : p.token? = some t) :
    ∃ kind literal, t = p.toToken kind literal := by
  unfold token? at h
  split at h
  · exact ⟨_, _, (Option.some.inj h).symm⟩
  · exact ⟨_, _, (Option.some.inj h).symm⟩
  · split at h
    · exact ⟨_, _, (Option.some.inj h).symm⟩
    · cases h
  · dsimp only at h
    split at h
    · exact ⟨_, _, (Option.some.inj h).symm⟩
    · exact ⟨_, _, (Option.some.inj h).symm⟩
  all_goals cases h

/-- An error is on the line of its piece. -/
theorem line_of_error? {e : LexicalError} (h : p.error? = some e) : e.line = p.line := by
  unfold error? at h
  split at h
  · split at h
    · cases h
    · cases h
      rfl
  · cases h
    rfl
  all_goals cases h

end PlacedPiece

namespace Piece

/-- A piece stands behind the text of the pieces in front of it. -/
theorem exists_front_of_mem_place {ps : List Piece} (hps : ∀ p ∈ ps, p.WellMade)
    {line start : Nat} {q : PlacedPiece} (h : q ∈ place line start ps) :
    ∃ before after, ps = before ++ q.piece :: after ∧
      q.line = line + (before.flatMap text).count '\n' ∧
      q.start = start + byteSize (before.flatMap text) := by
  induction ps generalizing line start with
  | nil => cases h
  | cons p ps ih =>
    obtain ⟨hp, hps⟩ := List.forall_mem_cons.1 hps
    rcases List.mem_cons.1 h with rfl | h
    · exact ⟨[], ps, rfl, rfl, rfl⟩
    · obtain ⟨before, after, rfl, hline, hstart⟩ := ih hps h
      refine ⟨p :: before, after, rfl, ?_, ?_⟩
      · rw [hline, lineEnds_eq_count hp, List.flatMap_cons, List.count_append, Nat.add_assoc]
      · rw [hstart, List.flatMap_cons, byteSize_append, Nat.add_assoc]

/-- Pieces stand on the line of the first of them, or further down. -/
theorem line_le_of_mem_place {line start : Nat} {ps : List Piece} {q : PlacedPiece}
    (h : q ∈ place line start ps) : line ≤ q.line := by
  induction ps generalizing line start with
  | nil => cases h
  | cons p ps ih =>
    rcases List.mem_cons.1 h with rfl | h
    · exact Nat.le_refl _
    · exact Nat.le_trans (Nat.le_add_right _ _) (ih h)

/-- No piece stands above one that is in front of it. -/
theorem pairwise_line_place (line start : Nat) (ps : List Piece) :
    (place line start ps).Pairwise fun p q => p.line ≤ q.line := by
  induction ps generalizing line start with
  | nil => exact .nil
  | cons p ps ih =>
    refine List.pairwise_cons.2 ⟨fun q hq => ?_, ih _ _⟩
    exact Nat.le_trans (Nat.le_add_right _ _) (line_le_of_mem_place hq)

end Piece

namespace Source

theorem standsIn_of_mem_words {source : String} {t : Token} (h : t ∈ words source) :
    t.StandsIn source := by
  have hmade : ∀ p ∈ Piece.cut source.toList, p.WellMade :=
    Piece.wellMade_of_stand (Piece.stand_cut _)
  obtain ⟨p, hp, ht⟩ := List.mem_filterMap.1 h
  obtain ⟨before, after, hcut, hline, hstart⟩ := Piece.exists_front_of_mem_place hmade hp
  obtain ⟨kind, literal, rfl⟩ := PlacedPiece.exists_eq_toToken ht
  have hsource : source.toList =
      before.flatMap Piece.text ++ p.piece.text ++ after.flatMap Piece.text := by
    rw [← Piece.text_cut source.toList, hcut, List.flatMap_append, List.flatMap_cons,
      List.append_assoc]
  have hsize : (String.ofList p.piece.text).utf8ByteSize = Piece.byteSize p.piece.text := by
    rw [← Piece.byteSize_toList, String.toList_ofList]
  refine ⟨List.mem_append_left _ h, before.flatMap Piece.text, after.flatMap Piece.text, ?_, hline,
    ?_⟩
  · rw [hsource]
    simp only [PlacedPiece.toToken, String.toList_ofList]
  · simp only [PlacedPiece.toToken, PlacedPiece.span, hsize, hstart, Nat.zero_add]

/-- Every token of a source text stands in it. -/
theorem standsIn_of_mem_tokens {source : String} {t : Token} (h : t ∈ tokens source) :
    t.StandsIn source := by
  rcases List.mem_append.1 h with hword | hfinal
  · exact standsIn_of_mem_words hword
  · obtain rfl := List.mem_singleton.1 hfinal
    exact ⟨h, source.toList, [], by simp [Token.endOfText], rfl, rfl⟩

/-- The lines of the tokens never go back. -/
theorem pairwise_line_tokens (source : String) :
    (tokens source).Pairwise fun t u => t.line ≤ u.line := by
  refine List.pairwise_append.2 ⟨List.pairwise_filterMap.2 ?_, List.pairwise_singleton _ _, ?_⟩
  · refine (Piece.pairwise_line_place 1 0 _).imp fun hle t ht u hu => ?_
    obtain ⟨_, _, rfl⟩ := PlacedPiece.exists_eq_toToken ht
    obtain ⟨_, _, rfl⟩ := PlacedPiece.exists_eq_toToken hu
    exact hle
  · intro t ht u hu
    obtain ⟨front, back, hsource, hline, -⟩ := (standsIn_of_mem_words ht).exists_front
    rw [List.mem_singleton.1 hu, hline]
    show _ ≤ 1 + source.toList.count '\n'
    rw [hsource, List.append_assoc, List.count_append]
    exact Nat.add_le_add_left (Nat.le_add_right _ _) 1

/-- The lines of the errors never go back. -/
theorem pairwise_line_lexicalErrors (source : String) :
    (lexicalErrors source).Pairwise fun e f => e.line ≤ f.line := by
  rw [lexicalErrors]
  split
  · exact List.pairwise_singleton _ _
  · refine List.pairwise_filterMap.2
      ((Piece.pairwise_line_place 1 0 _).imp fun hle e he f hf => ?_)
    rw [PlacedPiece.line_of_error? he, PlacedPiece.line_of_error? hf]
    exact hle

end Source

end AqaAssembly
