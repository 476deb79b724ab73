import AqaAssembly.Proofs.Source.Tokenisation
import AqaAssembly.Proofs.Source.Words

/-!
# Layout

Blanks, line ends and comments may stand in front of every word and behind it.  They move what
follows, by their lines and their bytes, and change nothing else.

* `substance_append`: layout in front of a text moves what is written there;
* `IsBreak.exists_stand`: layout behind a word leaves whole what stands in front of it;
* `IsBreak.tokens_insert`, `IsBreak.lexicalErrors_insert`: layout at the beginning of a source text
  or behind one of its words moves the tokens and the errors that follow.
-/

namespace AqaAssembly

open Piece

/-- Is the text made of blanks, line ends, and comments with the line ends behind them? -/
inductive IsLayout : List Char → Prop
  | nil : IsLayout []
  | blank {c : Char} {w : List Char} (hc : c = ' ' ∨ c = '\t' ∨ c = '\r') (hw : IsLayout w) :
    IsLayout (c :: w)
  | lineEnd {w : List Char} (hw : IsLayout w) : IsLayout ('\n' :: w)
  | comment {body w : List Char} (hbody : ∀ c ∈ body, c ≠ '\n') (hw : IsLayout w) :
    IsLayout (';' :: (body ++ '\n' :: w))

/-- Does the piece only separate others? -/
def Piece.separates : Piece → Bool
  | .blank _ | .lineEnd | .comment _ => true
  | .comma | .colon | .numeral .. | .word _ | .stray _ => false

/-- The token with more lines and more bytes in front of it. -/
def Token.moved (lines bytes : Nat) (t : Token) : Token :=
  { t with line := t.line + lines, span := ⟨t.span.start + bytes, t.span.stop + bytes⟩ }

/-- The token when lines and bytes are inserted at a place: it is moved if it stands behind. -/
def Token.displaced (place lines bytes : Nat) (t : Token) : Token :=
  if place ≤ t.span.start then t.moved lines bytes else t

/-- The error with more lines in front of it. -/
def LexicalError.moved (lines : Nat) (e : LexicalError) : LexicalError :=
  { e with line := e.line + lines }

/-- The piece when lines and bytes are inserted at a place: it is moved if it stands behind. -/
def PlacedPiece.displaced (place lines bytes : Nat) (q : PlacedPiece) : PlacedPiece :=
  if place ≤ q.start then q.moved lines bytes else q

/-- Text inserted into another behind the first so many bytes. -/
def insertAt (w : List Char) (place : Nat) : List Char → List Char
  | [] => w
  | c :: cs => if place = 0 then w ++ c :: cs else c :: insertAt w (place - c.utf8Size) cs

/-- A source text with text inserted behind its first so many bytes. -/
def Source.insert (w : List Char) (place : Nat) (source : String) : String :=
  String.ofList (insertAt w place source.toList)

/-! ## Places -/

theorem insertAt_byteSize (w front back : List Char) :
    insertAt w (byteSize front) (front ++ back) = front ++ (w ++ back) := by
  induction front with
  | nil =>
    cases back with
    | nil => exact (List.append_nil w).symm
    | cons c back => rfl
  | cons c front ih =>
    have hpos := c.utf8Size_pos
    have hne : byteSize (c :: front) ≠ 0 := by
      rw [byteSize_cons]
      omega
    rw [List.cons_append, insertAt, if_neg hne, byteSize_cons, Nat.add_sub_cancel_left, ih]
    rfl

namespace PlacedPiece

theorem token?_moved (lines bytes : Nat) (q : PlacedPiece) :
    (q.moved lines bytes).token? = q.token?.map (Token.moved lines bytes) := by
  obtain ⟨p, line, start⟩ := q
  have htoken (kind : Token.Kind) (literal : Option Token.Literal) :
      toToken ⟨p, line + lines, start + bytes⟩ kind literal =
        (toToken ⟨p, line, start⟩ kind literal).moved lines bytes := by
    simp only [toToken, span, Token.moved, Nat.add_right_comm]
  cases p with
  | blank | lineEnd | comment | stray => rfl
  | comma | colon => exact congrArg some (htoken _ _)
  | numeral form digits =>
    simp only [token?, moved]
    cases Decimal.read digits with
    | ok n => exact congrArg some (htoken _ _)
    | error problem => rfl
  | word letters =>
    simp only [token?, moved]
    cases Mnemonic.ofName? (String.ofList letters) with
    | some m => exact congrArg some (htoken _ _)
    | none => exact congrArg some (htoken _ _)

/-- A token stands where its piece does. -/
theorem start_of_token? {q : PlacedPiece} {t : Token} (h : q.token? = some t) :
    t.span.start = q.start := by
  obtain ⟨p, line, start⟩ := q
  cases p with
  | blank | lineEnd | comment | stray => cases h
  | comma | colon =>
    cases h
    rfl
  | numeral form digits =>
    simp only [token?] at h
    split at h
    · cases h
      rfl
    · cases h
  | word letters =>
    simp only [token?] at h
    split at h
    · cases h
      rfl
    · cases h
      rfl

theorem error?_moved (lines bytes : Nat) (q : PlacedPiece) :
    (q.moved lines bytes).error? = q.error?.map (LexicalError.moved lines) := by
  obtain ⟨p, line, start⟩ := q
  cases p with
  | numeral form digits =>
    simp only [error?, moved]
    cases Decimal.read digits with
    | ok n => rfl
    | error problem => rfl
  | _ => rfl

end PlacedPiece

/-! ## Layout in front of a text -/

/-- The pieces of a text that do more than separate others, where they stand if the text stands on
the line and behind the bytes. -/
def substance (line start : Nat) (cs : List Char) : List PlacedPiece :=
  (place line start (cut cs)).filter fun q => !q.piece.separates

/-- What a text is written of does not depend on the blanks that it begins with. -/
theorem substance_dropWhile (line start : Nat) (cs : List Char) :
    substance line start cs =
      substance line (start + byteSize (cs.takeWhile isBlank)) (cs.dropWhile isBlank) := by
  cases cs with
  | nil => rfl
  | cons c cs =>
    by_cases hc : isBlank c
    · have hcut : cut (c :: cs) = blank (c :: cs.takeWhile isBlank) :: cut (cs.dropWhile isBlank) := by
        rw [cut_cons, first, if_pos hc]
      rw [List.takeWhile_cons_of_pos hc, List.dropWhile_cons_of_pos hc, substance, hcut]
      rfl
    · rw [List.takeWhile_cons_of_neg hc, List.dropWhile_cons_of_neg hc]
      rfl

theorem substance_blank {c : Char} (hc : isBlank c) (line start : Nat) (cs : List Char) :
    substance line start (c :: cs) = substance line (start + c.utf8Size) cs := by
  rw [substance_dropWhile, List.takeWhile_cons_of_pos hc, List.dropWhile_cons_of_pos hc,
    substance_dropWhile line (start + c.utf8Size), byteSize_cons, Nat.add_assoc]

theorem substance_lineEnd (line start : Nat) (cs : List Char) :
    substance line start ('\n' :: cs) = substance (line + 1) (start + 1) cs := by
  rw [substance, cut_cons]
  rfl

theorem substance_comment {body : List Char} (hbody : ∀ c ∈ body, c ≠ '\n') (line start : Nat)
    (cs : List Char) :
    substance line start (';' :: (body ++ '\n' :: cs)) =
      substance (line + 1) (start + byteSize (';' :: body) + 1) cs := by
  have hends : (comment body).EndsBefore ('\n' :: cs) := fun c hc => by
    rw [← Option.some.inj hc]
    rfl
  have hstand : Stand [comment body] ('\n' :: cs) := ⟨hbody, hends, trivial⟩
  have hcut := cut_append hstand
  rw [List.flatMap_singleton] at hcut
  have hcomment : cut (';' :: (body ++ '\n' :: cs)) = comment body :: cut ('\n' :: cs) := hcut
  rw [← substance_lineEnd, substance, hcomment]
  rfl

/-- Layout in front of a text moves what is written there. -/
theorem substance_append {w : List Char} (hw : IsLayout w) (line start : Nat) (cs : List Char) :
    substance line start (w ++ cs) =
      substance (line + w.count '\n') (start + byteSize w) cs := by
  induction hw generalizing line start with
  | nil => rfl
  | @blank c w hc hw ih =>
    have hne : c ≠ '\n' := by
      rintro rfl
      exact absurd hc (by decide)
    rw [List.cons_append, substance_blank (isBlank_iff.2 hc), ih, List.count_cons_of_ne hne, byteSize_cons,
      Nat.add_assoc]
  | @lineEnd w hw ih =>
    rw [List.cons_append, substance_lineEnd, ih, List.count_cons_self, byteSize_cons]
    congr 1
    · omega
    · exact Nat.add_assoc ..
  | @comment body w hbody hw ih =>
    have hcount : (';' :: (body ++ '\n' :: w)).count '\n' = w.count '\n' + 1 := by
      have hzero : body.count '\n' = 0 := List.count_eq_zero.2 fun h => hbody _ h rfl
      rw [List.count_cons_of_ne (by decide), List.count_append, hzero, Nat.zero_add,
        List.count_cons_self]
    have hsize : byteSize (';' :: (body ++ '\n' :: w)) = byteSize (';' :: body) + (1 + byteSize w) := by
      rw [← List.cons_append, byteSize_append]
      rfl
    rw [List.cons_append, List.append_assoc, List.cons_append, substance_comment hbody, ih, hcount,
      hsize]
    congr 1
    · omega
    · omega

theorem substance_add (line start lines bytes : Nat) (cs : List Char) :
    substance (line + lines) (start + bytes) cs =
      (substance line start cs).map (PlacedPiece.moved lines bytes) := by
  rw [substance, place_add, List.filter_map]
  rfl

/-! ## Layout behind a word -/

/-- Pieces that are whole in front of a text are whole in front of every text that begins alike. -/
theorem stand_of_head?_eq {ps : List Piece} {rest rest' : List Char}
    (hhead : rest'.head? = rest.head?) (h : Stand ps rest) : Stand ps rest' := by
  induction ps with
  | nil => trivial
  | cons p ps ih =>
    obtain ⟨hmade, hends, hps⟩ := h
    refine ⟨hmade, ?_, ih hps⟩
    unfold EndsBefore at hends ⊢
    rw [List.head?_append] at hends ⊢
    rwa [hhead]

theorem IsLayout.isAlphanum_eq_false {w : List Char} (h : IsLayout w) :
    ∀ c ∈ w.head?, c.isAlphanum = false := by
  intro c hc
  cases h with
  | nil => cases hc
  | @blank d w hd hw =>
    cases hc
    rw [Bool.eq_false_iff]
    intro halnum
    rw [← isBlank_iff, isBlank_eq_false_of_isAlphanum halnum] at hd
    cases hd
  | lineEnd hw =>
    cases hc
    rfl
  | comment hbody hw =>
    cases hc
    rfl

/-- Only letters and digits go on with a piece that gives a token. -/
theorem Source.Gives.goesOn_eq_false {front : List Char} {p : Piece} {ts : List Token}
    {es : List LexicalError} (h : Gives front p ts es) {t : Token} (ht : t ∈ ts) {c : Char}
    (hc : c.isAlphanum = false) : p.goesOn c = false := by
  cases h with
  | blank | lineEnd | comment | badNumeral _ | stray => cases ht
  | comma | colon => rfl
  | numeral _ | mnemonic | identifier _ => exact hc

namespace Source

/-- Is the place at the beginning of the source text, or where one of its words ends? -/
def IsBreak (source : String) (place : Nat) : Prop :=
  place = 0 ∨ ∃ t ∈ tokens source, t.kind ≠ .endOfText ∧ t.span.stop = place

/-- What stands in front of a break stays whole when layout follows it. -/
theorem IsBreak.exists_stand {source : String} {place : Nat} (h : IsBreak source place) :
    ∃ ps back, source.toList = ps.flatMap text ++ back ∧ place = byteSize (ps.flatMap text) ∧
      ∀ w, IsLayout w → Stand ps (w ++ back) := by
  rcases h with rfl | ⟨t, ht, hkind, rfl⟩
  · exact ⟨[], source.toList, rfl, rfl, fun _ _ => trivial⟩
  · have hword : t ∈ words source := by
      rw [tokens_eq] at ht
      refine (List.mem_append.1 ht).resolve_right fun hfinal => hkind ?_
      rw [List.mem_singleton.1 hfinal]
      rfl
    have hstand := stand_cut source.toList
    have htokenises : Tokenises [] (cut source.toList) (words source) _ :=
      (tokenises_iff (wellMade_of_stand hstand)).2 ⟨rfl, rfl⟩
    obtain ⟨qs, p, rs, us, fs, hcut, hgives, hmem⟩ := htokenises.exists_gives hword
    obtain ⟨kind, literal, rfl⟩ := hgives.eq_tokenBehind hmem
    have htext : (qs ++ [p]).flatMap text = qs.flatMap text ++ p.text := by
      rw [List.flatMap_append, List.flatMap_singleton]
    rw [hcut, ← List.singleton_append, ← List.append_assoc, stand_append, List.append_nil] at hstand
    obtain ⟨hfront, -⟩ := hstand
    refine ⟨qs ++ [p], rs.flatMap text, ?_, ?_, fun w hw => ?_⟩
    · rw [← text_cut source.toList, hcut, htext, List.flatMap_append, List.flatMap_cons,
        List.append_assoc]
    · rw [htext, byteSize_append]
      rfl
    · obtain ⟨hqs, hmade, hends, -⟩ := stand_append.1 hfront
      have hp : p.EndsBefore (w ++ rs.flatMap text) := by
        intro c hc
        rw [List.head?_append] at hc
        cases hhead : w.head? with
        | some d =>
          rw [hhead] at hc
          cases hc
          exact hgives.goesOn_eq_false hmem (hw.isAlphanum_eq_false c hhead)
        | none =>
          rw [hhead] at hc
          exact hends c hc
      have hhead : ([p].flatMap text ++ (w ++ rs.flatMap text)).head? =
          ([p].flatMap text ++ rs.flatMap text).head? := by
        obtain ⟨c, cs, hc⟩ := List.exists_cons_of_ne_nil (text_ne_nil hmade)
        rw [List.flatMap_singleton, hc]
        rfl
      exact stand_append.2 ⟨stand_of_head?_eq hhead hqs, hmade, hp, trivial⟩

/-- What is written stays as it is when layout is inserted at a break: only what follows moves. -/
theorem IsBreak.substance_insertAt {source : String} {place : Nat} (h : IsBreak source place)
    {w : List Char} (hw : IsLayout w) :
    substance 1 0 (insertAt w place source.toList) =
      (substance 1 0 source.toList).map
        (PlacedPiece.displaced place (w.count '\n') (byteSize w)) := by
  obtain ⟨ps, back, hsource, rfl, hstand⟩ := h.exists_stand
  have hmade : ∀ p ∈ ps, p.WellMade := wellMade_of_stand (hstand [] .nil)
  -- whatever follows whole pieces is written behind them
  have hsplit : ∀ rest, Stand ps rest → substance 1 0 (ps.flatMap text ++ rest) =
      ((Piece.place 1 0 ps).filter fun q => !q.piece.separates) ++
        substance (1 + (ps.flatMap text).count '\n') (byteSize (ps.flatMap text)) rest := by
    intro rest hrest
    rw [substance, cut_append hrest, place_append hmade, List.filter_append, Nat.zero_add]
    rfl
  have hstay : ∀ q ∈ (Piece.place 1 0 ps).filter fun q => !q.piece.separates,
      q.displaced (byteSize (ps.flatMap text)) (w.count '\n') (byteSize w) = q := by
    intro q hq
    have hlt := start_lt_of_mem_place hmade (List.mem_filter.1 hq).1
    rw [Nat.zero_add] at hlt
    exact if_neg (Nat.not_le_of_lt hlt)
  have hmove : ∀ q ∈ substance (1 + (ps.flatMap text).count '\n') (byteSize (ps.flatMap text)) back,
      q.displaced (byteSize (ps.flatMap text)) (w.count '\n') (byteSize w) =
        q.moved (w.count '\n') (byteSize w) := fun q hq =>
    if_pos (start_le_of_mem_place (List.mem_filter.1 hq).1)
  rw [hsource, insertAt_byteSize, hsplit _ (hstand w hw), hsplit back (hstand [] .nil),
    substance_append hw, substance_add, List.map_append, List.map_congr_left hmove,
    List.map_congr_left hstay, List.map_id']

/-! ## Tokens and errors -/

/-- What separates others gives nothing. -/
theorem filterMap_substance {α : Type} {f : PlacedPiece → Option α}
    (hf : ∀ q : PlacedPiece, q.piece.separates → f q = none) (line start : Nat) (cs : List Char) :
    (substance line start cs).filterMap f = (Piece.place line start (cut cs)).filterMap f := by
  rw [substance, List.filterMap_filter]
  refine congrArg (List.filterMap · _) (funext fun q => ?_)
  cases hq : q.piece.separates with
  | true => exact (hf q hq).symm
  | false => rfl

theorem token?_eq_none_of_separates (q : PlacedPiece) (h : q.piece.separates) :
    q.token? = none := by
  obtain ⟨p, line, start⟩ := q
  cases p with
  | blank | lineEnd | comment => rfl
  | comma | colon | numeral _ _ | word _ | stray _ => cases h

theorem error?_eq_none_of_separates (q : PlacedPiece) (h : q.piece.separates) :
    q.error? = none := by
  obtain ⟨p, line, start⟩ := q
  cases p with
  | blank | lineEnd | comment => rfl
  | comma | colon | numeral _ _ | word _ | stray _ => cases h

theorem token?_displaced (place lines bytes : Nat) (q : PlacedPiece) :
    (q.displaced place lines bytes).token? = q.token?.map (Token.displaced place lines bytes) := by
  have hstart : q.token?.map (Token.displaced place lines bytes) =
      q.token?.map fun t => if place ≤ q.start then t.moved lines bytes else t := by
    refine Option.map_congr fun t ht => ?_
    rw [Token.displaced, PlacedPiece.start_of_token? ht]
  rw [hstart, PlacedPiece.displaced]
  split
  · exact PlacedPiece.token?_moved lines bytes q
  · exact Option.map_id'.symm

/-- The tokens of a source text stay as they are when layout is inserted at a break: only what
follows moves. -/
theorem IsBreak.words_insert {source : String} {place : Nat} (h : IsBreak source place)
    {w : List Char} (hw : IsLayout w) :
    words (insert w place source) =
      (words source).map (Token.displaced place (w.count '\n') (byteSize w)) := by
  have hwords : ∀ s : String, words s = (substance 1 0 s.toList).filterMap PlacedPiece.token? :=
    fun s => (filterMap_substance token?_eq_none_of_separates 1 0 s.toList).symm
  rw [hwords, hwords, insert, String.toList_ofList, h.substance_insertAt hw, List.filterMap_map,
    List.map_filterMap]
  exact congrArg (List.filterMap · _) (funext fun q => token?_displaced _ _ _ q)

theorem insert_ne_empty {source : String} (h : source ≠ "") (w : List Char) (place : Nat) :
    insert w place source ≠ "" := by
  rw [Ne, ← String.toList_eq_nil_iff] at h ⊢
  obtain ⟨c, cs, hcs⟩ := List.exists_cons_of_ne_nil h
  rw [insert, String.toList_ofList, hcs, insertAt]
  split
  · exact List.append_ne_nil_of_right_ne_nil w (List.cons_ne_nil c cs)
  · exact List.cons_ne_nil c _

/-- What is wrong with the words of a source text stays wrong when layout is inserted at a break, and
is found so many lines later if it follows. -/
theorem IsBreak.lexicalErrors_insert {source : String} {place : Nat} (h : IsBreak source place)
    (hne : source ≠ "") {w : List Char} (hw : IsLayout w) :
    lexicalErrors (insert w place source) = (pieces source).filterMap fun q =>
      if place ≤ q.start then q.error?.map (LexicalError.moved (w.count '\n')) else q.error? := by
  have hnone : ∀ q : PlacedPiece, q.piece.separates →
      (if place ≤ q.start then q.error?.map (LexicalError.moved (w.count '\n')) else q.error?) =
        none := by
    intro q hq
    rw [error?_eq_none_of_separates q hq, Option.map_none, ite_self]
  rw [lexicalErrors, if_neg (insert_ne_empty hne w place), pieces, pieces,
    ← filterMap_substance hnone, ← filterMap_substance error?_eq_none_of_separates, insert,
    String.toList_ofList, h.substance_insertAt hw, List.filterMap_map]
  refine congrArg (List.filterMap · _) (funext fun q => ?_)
  rw [Function.comp_apply, PlacedPiece.displaced]
  split
  · exact PlacedPiece.error?_moved _ _ q
  · rfl

/-- The end of a source text is moved by all that is inserted. -/
theorem IsBreak.finalToken_insert {source : String} {place : Nat} (h : IsBreak source place)
    (w : List Char) :
    finalToken (insert w place source) =
      (finalToken source).displaced place (w.count '\n') (byteSize w) := by
  obtain ⟨ps, back, hsource, rfl, -⟩ := h.exists_stand
  have hbehind : byteSize (ps.flatMap text) ≤ byteSize source.toList := by
    rw [hsource, byteSize_append]
    exact Nat.le_add_right _ _
  have hline : lastLine (insert w (byteSize (ps.flatMap text)) source) =
      lastLine source + w.count '\n' := by
    rw [lastLine, lastLine, insert, String.toList_ofList, hsource, insertAt_byteSize]
    simp only [List.count_append]
    omega
  have hsize : byteSize (insert w (byteSize (ps.flatMap text)) source).toList =
      byteSize source.toList + byteSize w := by
    rw [insert, String.toList_ofList, hsource, insertAt_byteSize]
    simp only [byteSize_append]
    omega
  have hmoved : (finalToken source).displaced (byteSize (ps.flatMap text)) (w.count '\n')
      (byteSize w) = (finalToken source).moved (w.count '\n') (byteSize w) := if_pos hbehind
  rw [hmoved, finalToken, hline, hsize]
  rfl

/-- The tokens of a source text, with the one at its end, stay as they are when layout is inserted at
a break: only what follows moves. -/
theorem IsBreak.tokens_insert {source : String} {place : Nat} (h : IsBreak source place)
    {w : List Char} (hw : IsLayout w) :
    tokens (insert w place source) =
      (tokens source).map (Token.displaced place (w.count '\n') (byteSize w)) := by
  rw [tokens_eq, tokens_eq, h.words_insert hw, h.finalToken_insert w, List.map_append]
  rfl

end Source

end AqaAssembly
