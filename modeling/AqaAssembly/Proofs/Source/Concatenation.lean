import AqaAssembly.Proofs.Source.Layout

/-!
# Source texts one behind the other

A line end goes on with no piece.  So a text that begins on a new line is cut as if it stood alone
(`cut_append_lineEnd`), and what stands in front of it only moves its pieces, by its lines and its
bytes (`Source.pieces_append`).

The tokens and the errors of two texts that are put together in this way are those of the first,
without its end, and behind them those of the second, moved (`Source.words_append`,
`Source.finalToken_append`, `Source.lexicalErrors_append`).
-/

namespace AqaAssembly

open Piece

/-! ## Cutting -/

theorem goesOn_lineEnd (p : Piece) : p.goesOn '\n' = false := by
  cases p with
  | blank run => rfl
  | numeral form digits => exact (by decide : Char.isAlphanum '\n' = false)
  | word letters => exact (by decide : Char.isAlphanum '\n' = false)
  | comment | lineEnd | comma | colon | stray => rfl

/-- Pieces that are whole at the end of a text are whole at the end of a line. -/
theorem stand_lineEnd {ps : List Piece} (h : Stand ps []) (rest : List Char) :
    Stand ps ('\n' :: rest) := by
  induction ps with
  | nil => trivial
  | cons p ps ih =>
    obtain ⟨hmade, hends, hps⟩ := h
    refine ⟨hmade, fun c hc => ?_, ih hps⟩
    rw [List.append_nil] at hends
    rw [List.head?_append] at hc
    cases hhead : (ps.flatMap text).head? with
    | some d =>
      rw [hhead] at hc
      exact hends c (hhead.trans hc)
    | none =>
      rw [hhead] at hc
      cases hc
      exact goesOn_lineEnd p

/-- What stands on two sides of a line end is cut on each side as if it stood alone. -/
theorem cut_append_lineEnd (cs ds : List Char) :
    cut (cs ++ '\n' :: ds) = cut cs ++ lineEnd :: cut ds := by
  have hcut := cut_append (stand_lineEnd (stand_cut cs) ds)
  rw [text_cut, cut_cons] at hcut
  exact hcut

namespace Source

/-! ## Places -/

theorem toList_append_lineEnd (u v : String) :
    (u ++ "\n" ++ v).toList = u.toList ++ '\n' :: v.toList := by
  simp

theorem pieces_append (u v : String) :
    pieces (u ++ "\n" ++ v) = pieces u ++ ⟨lineEnd, lastLine u, u.utf8ByteSize⟩ ::
      (pieces v).map (PlacedPiece.moved (lastLine u) (u.utf8ByteSize + 1)) := by
  have hmade := wellMade_of_stand (stand_cut u.toList)
  rw [pieces, toList_append_lineEnd, cut_append_lineEnd, place_append hmade, text_cut,
    byteSize_toList, Nat.zero_add, place]
  have hlines : 1 + u.toList.count '\n' + lineEnd.lineEnds = 1 + lastLine u := Nat.add_comm _ _
  have hbytes : u.utf8ByteSize + byteSize lineEnd.text = 0 + (u.utf8ByteSize + 1) :=
    (Nat.zero_add _).symm
  rw [hlines, hbytes, place_add]
  rfl

theorem lastLine_append (u v : String) :
    lastLine (u ++ "\n" ++ v) = lastLine v + lastLine u := by
  simp only [lastLine, toList_append_lineEnd, List.count_append, List.count_cons_self]
  omega

/-- The words of two texts on lines of their own are those of the first and, moved, those of the
second. -/
theorem words_append (u v : String) :
    words (u ++ "\n" ++ v) =
      words u ++ (words v).map (Token.moved (lastLine u) (u.utf8ByteSize + 1)) := by
  have hmoved : (pieces v).filterMap (fun q =>
      (q.moved (lastLine u) (u.utf8ByteSize + 1)).token?) =
      (words v).map (Token.moved (lastLine u) (u.utf8ByteSize + 1)) := by
    rw [words, List.map_filterMap]
    exact congrArg (List.filterMap · _) (funext fun q => PlacedPiece.token?_moved _ _ q)
  rw [words, pieces_append, List.filterMap_append, List.filterMap_cons_none rfl,
    List.filterMap_map]
  exact congrArg (words u ++ ·) hmoved

/-- The end of the second text moves too. -/
theorem finalToken_append (u v : String) :
    finalToken (u ++ "\n" ++ v) = (finalToken v).moved (lastLine u) (u.utf8ByteSize + 1) := by
  have hsize : byteSize (u ++ "\n" ++ v).toList =
      byteSize v.toList + (u.utf8ByteSize + 1) := by
    have hline : byteSize ['\n'] = 1 := rfl
    rw [toList_append_lineEnd, ← byteSize_toList u, ← List.singleton_append, byteSize_append,
      byteSize_append, hline]
    omega
  rw [finalToken, lastLine_append, hsize]
  rfl

theorem tokens_append (u v : String) :
    tokens (u ++ "\n" ++ v) = (tokens u).dropLast ++
      (tokens v).map (Token.moved (lastLine u) (u.utf8ByteSize + 1)) := by
  rw [tokens_eq, tokens_eq, tokens_eq, List.dropLast_concat, List.map_append, words_append,
    finalToken_append, List.append_assoc]
  rfl

/-- What is wrong with two texts on lines of their own is what is wrong with the first and, moved,
with the second. -/
theorem lexicalErrors_append {u v : String} (hu : u ≠ "") (hv : v ≠ "") :
    lexicalErrors (u ++ "\n" ++ v) =
      lexicalErrors u ++ (lexicalErrors v).map (LexicalError.moved (lastLine u)) := by
  have hne : u ++ "\n" ++ v ≠ "" := by simp [hu]
  have hmoved : (pieces v).filterMap (fun q =>
      (q.moved (lastLine u) (u.utf8ByteSize + 1)).error?) =
      ((pieces v).filterMap PlacedPiece.error?).map (LexicalError.moved (lastLine u)) := by
    rw [List.map_filterMap]
    exact congrArg (List.filterMap · _) (funext fun q => PlacedPiece.error?_moved _ _ q)
  rw [lexicalErrors, lexicalErrors, lexicalErrors, if_neg hne, if_neg hu, if_neg hv,
    pieces_append, List.filterMap_append, List.filterMap_cons_none rfl, List.filterMap_map]
  exact congrArg ((pieces u).filterMap PlacedPiece.error? ++ ·) hmoved

end Source

end AqaAssembly
