import AqaAssembly.Proofs.Source.Places

/-!
# Longest-match tokenisation

What scanning a source text has to give, told without scanning it.  Every piece of a text gives one
token, one error or nothing (`Gives`), depending on its sort and on the text in front of it; a text
that consists of whole pieces gives what these give, one after another (`Tokenises`).

The main result is `exists_tokenisation`: a source text consists of whole pieces in one way only,
and the tokens and errors that scanning finds are those that these pieces give, with nothing lost and
nothing added.  Only the empty source is different: it has no pieces, and is reported for that
(`lexicalErrors_empty_ne`).
-/

namespace AqaAssembly

namespace Source

open Piece

/-- The token that is written as `cs` behind the text `front`. -/
def tokenBehind (front cs : List Char) (kind : Token.Kind) (literal : Option Token.Literal) :
    Token :=
  ⟨kind, String.ofList cs, literal, 1 + front.count '\n',
    ⟨byteSize front, byteSize front + byteSize cs⟩⟩

/-- The error about what is written as `cs` behind the text `front`. -/
def errorBehind (front cs : List Char) (cause : LexicalError.Cause) : LexicalError :=
  ⟨cause, 1 + front.count '\n', String.ofList cs⟩

/-- What a piece gives that stands behind the text `front`. -/
inductive Gives (front : List Char) : Piece → List Token → List LexicalError → Prop
  | blank {run : List Char} : Gives front (.blank run) [] []
  | lineEnd : Gives front .lineEnd [] []
  | comment {body : List Char} : Gives front (.comment body) [] []
  | comma : Gives front .comma [tokenBehind front [','] .comma none] []
  | colon : Gives front .colon [tokenBehind front [':'] .colon none] []
  | numeral {form : Numeral} {digits : List Char} {n : Int64} (h : Decimal.read digits = .ok n) :
    Gives front (.numeral form digits)
      [tokenBehind front (form.mark ++ digits) form.kind (some (.integer n))] []
  | badNumeral {form : Numeral} {digits : List Char} {problem : Decimal.Problem}
    (h : Decimal.read digits = .error problem) :
    Gives front (.numeral form digits) []
      [errorBehind front (form.mark ++ digits) (.numeral problem)]
  | mnemonic {m : Mnemonic} :
    Gives front (.word m.name.toList)
      [tokenBehind front m.name.toList (.mnemonic m) (some (.name m.name))] []
  | identifier {name : String} (h : ∀ m : Mnemonic, m.name ≠ name) :
    Gives front (.word name.toList)
      [tokenBehind front name.toList .identifier (some (.name name))] []
  | stray {c : Char} : Gives front (.stray c) [] [errorBehind front [c] .unexpectedCharacter]

/-- What pieces give that stand one after another behind the text `front`. -/
inductive Tokenises : List Char → List Piece → List Token → List LexicalError → Prop
  | nil {front : List Char} : Tokenises front [] [] []
  | cons {front : List Char} {p : Piece} {ps : List Piece} {ts us : List Token}
    {es fs : List LexicalError} (hp : Gives front p ts es)
    (hps : Tokenises (front ++ p.text) ps us fs) :
    Tokenises front (p :: ps) (ts ++ us) (es ++ fs)

/-! ## One piece -/

/-- The piece at the place that the text in front of it fixes. -/
def placedBehind (front : List Char) (p : Piece) : PlacedPiece :=
  ⟨p, 1 + front.count '\n', byteSize front⟩

/-- What a piece gives is what it is judged to be. -/
theorem gives_iff {front : List Char} {p : Piece} {ts : List Token} {es : List LexicalError} :
    Gives front p ts es ↔ ts = (placedBehind front p).token?.toList ∧
      es = (placedBehind front p).error?.toList := by
  constructor
  · intro h
    cases h with
    | numeral h | badNumeral h =>
      simp only [PlacedPiece.token?, PlacedPiece.error?, placedBehind, h]
      exact ⟨rfl, rfl⟩
    | mnemonic =>
      simp only [PlacedPiece.token?, placedBehind, String.ofList_toList, Mnemonic.ofName?_name]
      exact ⟨rfl, rfl⟩
    | @identifier name h =>
      have hname : Mnemonic.ofName? name = none :=
        Option.eq_none_iff_forall_ne_some.2 fun m hm => h m (Mnemonic.ofName?_eq_some_iff.1 hm)
      simp only [PlacedPiece.token?, placedBehind, String.ofList_toList, hname]
      exact ⟨rfl, rfl⟩
    | _ => exact ⟨rfl, rfl⟩
  · rintro ⟨rfl, rfl⟩
    cases p with
    | blank run => exact .blank
    | lineEnd => exact .lineEnd
    | comment body => exact .comment
    | comma => exact .comma
    | colon => exact .colon
    | numeral form digits =>
      cases h : Decimal.read digits with
      | ok n =>
        simp only [PlacedPiece.token?, PlacedPiece.error?, placedBehind, h]
        exact .numeral h
      | error problem =>
        simp only [PlacedPiece.token?, PlacedPiece.error?, placedBehind, h]
        exact .badNumeral h
    | word letters =>
      obtain ⟨name, rfl⟩ : ∃ name : String, letters = name.toList :=
        ⟨String.ofList letters, String.toList_ofList.symm⟩
      cases h : Mnemonic.ofName? name with
      | some m =>
        obtain rfl := Mnemonic.ofName?_eq_some_iff.1 h
        simp only [PlacedPiece.token?, placedBehind, String.ofList_toList, h]
        exact .mnemonic
      | none =>
        have hname : ∀ m : Mnemonic, m.name ≠ name := fun m hm => by
          rw [Mnemonic.ofName?_eq_some_iff.2 hm] at h
          cases h
        simp only [PlacedPiece.token?, placedBehind, String.ofList_toList, h]
        exact .identifier hname
    | stray c => exact .stray

/-- The token that a piece gives is written as the piece. -/
theorem Gives.eq_tokenBehind {front : List Char} {p : Piece} {ts : List Token}
    {es : List LexicalError} (h : Gives front p ts es) {t : Token} (ht : t ∈ ts) :
    ∃ kind literal, t = tokenBehind front p.text kind literal := by
  cases h with
  | blank | lineEnd | comment | badNumeral _ | stray => cases ht
  | comma | colon | numeral _ | mnemonic | identifier _ =>
    exact ⟨_, _, List.mem_singleton.1 ht⟩

/-! ## All pieces -/

/-- Pieces give what they are judged to be where they stand. -/
theorem tokenises_iff {ps : List Piece} (h : ∀ p ∈ ps, p.WellMade) {front : List Char}
    {ts : List Token} {es : List LexicalError} :
    Tokenises front ps ts es ↔
      ts = (place (1 + front.count '\n') (byteSize front) ps).filterMap PlacedPiece.token? ∧
      es = (place (1 + front.count '\n') (byteSize front) ps).filterMap PlacedPiece.error? := by
  have hcons : ∀ {α : Type} (f : PlacedPiece → Option α) (q : PlacedPiece) (qs : List PlacedPiece),
      (q :: qs).filterMap f = (f q).toList ++ qs.filterMap f := by
    intro α f q qs
    rw [List.filterMap_cons]
    cases f q with
    | none => rfl
    | some a => rfl
  induction ps generalizing front ts es with
  | nil =>
    constructor
    · rintro ⟨⟩
      exact ⟨rfl, rfl⟩
    · rintro ⟨rfl, rfl⟩
      exact .nil
  | cons p ps ih =>
    obtain ⟨hp, hps⟩ := List.forall_mem_cons.1 h
    have hrest : place (1 + front.count '\n') (byteSize front) (p :: ps) =
        placedBehind front p ::
          place (1 + (front ++ p.text).count '\n') (byteSize (front ++ p.text)) ps := by
      rw [place, lineEnds_eq_count hp, List.count_append, byteSize_append, Nat.add_assoc]
      rfl
    rw [hrest, hcons, hcons]
    constructor
    · rintro ⟨⟩
      rename_i ts us es fs hgives htail
      obtain ⟨rfl, rfl⟩ := gives_iff.1 hgives
      obtain ⟨rfl, rfl⟩ := (ih hps).1 htail
      exact ⟨rfl, rfl⟩
    · rintro ⟨rfl, rfl⟩
      exact .cons (gives_iff.2 ⟨rfl, rfl⟩) ((ih hps).2 ⟨rfl, rfl⟩)

/-- Every token is given by a piece, where that piece stands. -/
theorem Tokenises.exists_gives {front : List Char} {ps : List Piece} {ts : List Token}
    {es : List LexicalError} (h : Tokenises front ps ts es) {t : Token} (ht : t ∈ ts) :
    ∃ qs p rs us fs, ps = qs ++ p :: rs ∧ Gives (front ++ qs.flatMap text) p us fs ∧ t ∈ us := by
  induction h with
  | nil => cases ht
  | @cons front p ps ts us es fs hp hps ih =>
    rcases List.mem_append.1 ht with ht | ht
    · refine ⟨[], p, ps, ts, es, rfl, ?_, ht⟩
      rw [List.flatMap_nil, List.append_nil]
      exact hp
    · obtain ⟨qs, q, rs, vs, gs, rfl, hq, hmem⟩ := ih ht
      refine ⟨p :: qs, q, rs, vs, gs, rfl, ?_, hmem⟩
      rw [List.flatMap_cons, ← List.append_assoc]
      exact hq

/-- No token begins before the one in front of it ends. -/
theorem Tokenises.pairwise {front : List Char} {ps : List Piece} {ts : List Token}
    {es : List LexicalError} (h : Tokenises front ps ts es) :
    ts.Pairwise fun t u => t.span.stop ≤ u.span.start := by
  induction h with
  | nil => exact .nil
  | @cons front p ps ts us es fs hp hps ih =>
    have hsingle : ts.Pairwise fun t u => t.span.stop ≤ u.span.start := by
      cases hp with
      | blank | lineEnd | comment | badNumeral _ | stray => exact .nil
      | comma | colon | numeral _ | mnemonic | identifier _ => exact List.pairwise_singleton _ _
    refine List.pairwise_append.2 ⟨hsingle, ih, fun t ht u hu => ?_⟩
    obtain ⟨kind, literal, rfl⟩ := hp.eq_tokenBehind ht
    obtain ⟨qs, q, rs, vs, gs, -, hq, hmem⟩ := hps.exists_gives hu
    obtain ⟨kind', literal', rfl⟩ := hq.eq_tokenBehind hmem
    simp only [tokenBehind, byteSize_append]
    omega

/-! ## Source texts -/

/-- A source text consists of whole pieces in one way only.  These fix the tokens and the errors:
scanning finds exactly the tokens that the pieces give, in order, and then the end of the text on
its last line; and it reports exactly the errors that the pieces give, in order, unless the source is
empty, which is reported instead.  Every token is written in the source where its bytes are, on the
line that follows the line ends in front of it, and the bytes of different tokens are apart. -/
theorem exists_tokenisation (source : String) :
    ∃ pieces ts es,
      (∀ ps, Stand ps [] ∧ ps.flatMap text = source.toList ↔ ps = pieces) ∧
      (∀ us fs, Tokenises [] pieces us fs ↔ us = ts ∧ fs = es) ∧
      tokens source = ts ++ [.endOfText (1 + source.toList.count '\n') source.utf8ByteSize] ∧
      lexicalErrors source = (if source = "" then [⟨.emptySource, 1, ""⟩] else es) ∧
      (∀ t ∈ ts, ∃ front back, source.toList = front ++ t.lexeme.toList ++ back ∧
        t.line = 1 + front.count '\n' ∧
        t.span = ⟨byteSize front, byteSize front + t.lexeme.utf8ByteSize⟩ ∧
        t.span.start < t.span.stop) ∧
      (tokens source).Pairwise fun t u => t.span.stop ≤ u.span.start := by
  have hmade : ∀ p ∈ cut source.toList, p.WellMade := wellMade_of_stand (stand_cut _)
  have hgive (us : List Token) (fs : List LexicalError) :
      Tokenises [] (cut source.toList) us fs ↔
        us = (pieces source).filterMap PlacedPiece.token? ∧
        fs = (pieces source).filterMap PlacedPiece.error? := tokenises_iff hmade
  have htokenises := (hgive _ _).2 ⟨rfl, rfl⟩
  have hplace : ∀ t ∈ (pieces source).filterMap PlacedPiece.token?, ∃ front back,
      source.toList = front ++ t.lexeme.toList ++ back ∧ t.line = 1 + front.count '\n' ∧
      t.span = ⟨byteSize front, byteSize front + t.lexeme.utf8ByteSize⟩ ∧
      t.span.start < t.span.stop := by
    intro t ht
    obtain ⟨qs, p, rs, us, fs, hcut, hp, hmem⟩ := htokenises.exists_gives ht
    obtain ⟨kind, literal, rfl⟩ := hp.eq_tokenBehind hmem
    have hpos := byteSize_text_pos (hmade p (by simp [hcut]))
    have hlexeme : (String.ofList p.text).utf8ByteSize = byteSize p.text := by
      rw [← byteSize_toList, String.toList_ofList]
    refine ⟨qs.flatMap text, rs.flatMap text, ?_, rfl, ?_, Nat.lt_add_of_pos_right hpos⟩
    · rw [tokenBehind, String.toList_ofList, ← text_cut source.toList, hcut, List.flatMap_append,
        List.flatMap_cons, List.append_assoc]
    · rw [tokenBehind, hlexeme]
      rfl
  refine ⟨cut source.toList, _, _, fun ps => cut_eq_iff.symm.trans eq_comm, hgive, ?_, rfl, hplace,
    ?_⟩
  · rw [tokens, byteSize_toList]
    rfl
  · refine List.pairwise_append.2 ⟨htokenises.pairwise, List.pairwise_singleton _ _, ?_⟩
    intro t ht u hu
    obtain ⟨front, back, htext, -, hspan, -⟩ := hplace t ht
    rw [List.mem_singleton.1 hu, hspan, ← byteSize_toList t.lexeme]
    show _ ≤ byteSize source.toList
    rw [htext, byteSize_append, byteSize_append]
    exact Nat.le_add_right _ _

/-- The empty source is reported, and no pieces that it could consist of give an error. -/
theorem lexicalErrors_empty_ne :
    ¬ ∃ ps ts, Stand ps [] ∧ ps.flatMap text = "".toList ∧ Tokenises [] ps ts (lexicalErrors "") := by
  rintro ⟨ps, ts, hstand, htext, htokenises⟩
  obtain rfl : [] = ps := cut_nil.symm.trans (cut_eq_iff.2 ⟨hstand, htext⟩)
  have herrors : lexicalErrors "" = [⟨.emptySource, 1, ""⟩] := by decide
  rw [herrors] at htokenises
  cases htokenises

end Source

end AqaAssembly
