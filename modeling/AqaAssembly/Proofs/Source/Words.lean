import AqaAssembly.Program.Parse
import AqaAssembly.Proofs.Source.Cutting

/-!
# The words of a source text

The tokens of a source text are its words and, behind them, the end of the text.  What a word is,
its kind, its text and its value, depends on its piece alone (`map_content_words`); only its place
depends on what stands in front of it.

* `ofTokens_tokens`: a source text is read from its words;
* `lexicalErrors_eq_nil`: nothing is reported if no piece is bad;
* `spelling_of_mem_words`: a numeral stands for a number that is not negative, and an identifier for
  the word that it is written as, which is the name of no instruction.
-/

namespace AqaAssembly

namespace Token

/-- A token apart from its place. -/
structure Content where
  kind : Kind
  lexeme : String
  literal : Option Literal

/-- What the token is, wherever it stands. -/
def content (t : Token) : Content := ⟨t.kind, t.lexeme, t.literal⟩

end Token

namespace PlacedPiece

/-- Whether a piece makes a token, and which, does not depend on its place. -/
theorem map_content_token? (p : Piece) (line start line' start' : Nat) :
    (token? ⟨p, line, start⟩).map Token.content =
      (token? ⟨p, line', start'⟩).map Token.content := by
  cases p with
  | numeral form digits =>
    simp only [token?]
    cases Decimal.read digits with
    | ok n => rfl
    | error problem => rfl
  | word letters =>
    simp only [token?]
    cases Mnemonic.ofName? (String.ofList letters) with
    | some m => rfl
    | none => rfl
  | _ => rfl

end PlacedPiece

namespace Piece

/-- What the token of the piece is, if the piece makes one. -/
def content? (p : Piece) : Option Token.Content :=
  (PlacedPiece.token? ⟨p, 1, 0⟩).map Token.content

theorem content?_numeral {form : Numeral} {digits : List Char} {n : Int64}
    (h : Decimal.read digits = .ok n) :
    (numeral form digits).content? =
      some ⟨form.kind, String.ofList (form.mark ++ digits), some (.integer n)⟩ := by
  rw [content?, PlacedPiece.token?]
  simp only [h]
  rfl

theorem content?_mnemonic (m : Mnemonic) :
    (word m.name.toList).content? = some ⟨.mnemonic m, m.name, some (.name m.name)⟩ := by
  simp [content?, PlacedPiece.token?, PlacedPiece.toToken, Token.content, text]

theorem content?_identifier {name : String} (h : Mnemonic.ofName? name = none) :
    (word name.toList).content? = some ⟨.identifier, name, some (.name name)⟩ := by
  simp [content?, PlacedPiece.token?, PlacedPiece.toToken, Token.content, text, h]

theorem map_content_filterMap_place (line start : Nat) (ps : List Piece) :
    ((place line start ps).filterMap PlacedPiece.token?).map Token.content =
      ps.filterMap content? := by
  induction ps generalizing line start with
  | nil => rfl
  | cons p ps ih =>
    have hp := PlacedPiece.map_content_token? p line start 1 0
    have hps := ih (line + p.lineEnds) (start + byteSize p.text)
    rw [List.map_filterMap] at hps ⊢
    rw [place, List.filterMap_cons, List.filterMap_cons, hps, hp]
    rfl

theorem mem_of_mem_place {line start : Nat} {ps : List Piece} {p : PlacedPiece}
    (h : p ∈ place line start ps) : p.piece ∈ ps := by
  induction ps generalizing line start with
  | nil => cases h
  | cons q ps ih =>
    rcases List.mem_cons.1 h with rfl | h
    · exact List.mem_cons_self
    · exact List.mem_cons_of_mem q (ih h)

end Piece

namespace Source

/-- The tokens of a source text in front of its end. -/
def words (source : String) : List Token := (pieces source).filterMap PlacedPiece.token?

/-- The token at the end of a source text. -/
def finalToken (source : String) : Token :=
  .endOfText (lastLine source) (Piece.byteSize source.toList)

theorem tokens_eq (source : String) : tokens source = words source ++ [finalToken source] := rfl

/-- Which words a text has depends on its pieces alone. -/
theorem map_content_words (source : String) :
    (words source).map Token.content = (Piece.cut source.toList).filterMap Piece.content? :=
  Piece.map_content_filterMap_place 1 0 _

/-- The pieces of a source text are made as their sorts demand. -/
theorem wellMade_of_mem_pieces {source : String} {p : PlacedPiece} (h : p ∈ pieces source) :
    p.piece.WellMade :=
  Piece.wellMade_of_stand (Piece.stand_cut _) p.piece (Piece.mem_of_mem_place h)

/-- Nothing is reported if no piece is bad. -/
theorem lexicalErrors_eq_nil {source : String} (hne : source ≠ "")
    (h : ∀ p ∈ Piece.cut source.toList, ∀ line start,
      PlacedPiece.error? ⟨p, line, start⟩ = none) : lexicalErrors source = [] := by
  rw [lexicalErrors, if_neg hne, List.filterMap_eq_nil_iff]
  exact fun p hp => h p.piece (Piece.mem_of_mem_place hp) p.line p.start

/-! ## How words are spelled -/

/-- What the kind of a word says about its text and its value. -/
inductive Spelling : Token → Prop
  | numeral {t : Token} {form : Numeral} {n : Int64} (hkind : t.kind = form.kind)
    (hliteral : t.literal = some (.integer n)) (hn : 0 ≤ n.toInt) : Spelling t
  | mnemonic {t : Token} {m : Mnemonic} (hkind : t.kind = .mnemonic m) : Spelling t
  | identifier {t : Token} (hkind : t.kind = .identifier)
    (hliteral : t.literal = some (.name t.lexeme)) (hword : (Piece.word t.lexeme.toList).WellMade)
    (hname : Mnemonic.ofName? t.lexeme = none) : Spelling t
  | comma {t : Token} (hkind : t.kind = .comma) : Spelling t
  | colon {t : Token} (hkind : t.kind = .colon) : Spelling t

theorem spelling_of_token? {p : PlacedPiece} {t : Token} (hp : p.piece.WellMade)
    (h : p.token? = some t) : Spelling t := by
  obtain ⟨p, line, start⟩ := p
  cases p with
  | comma =>
    cases h
    exact .comma rfl
  | colon =>
    cases h
    exact .colon rfl
  | numeral form digits =>
    unfold PlacedPiece.token? at h
    cases hread : Decimal.read digits with
    | ok n =>
      simp only [hread] at h
      cases h
      exact .numeral rfl rfl (Decimal.toInt_nonneg_of_read hread)
    | error problem =>
      simp only [hread] at h
      cases h
  | word letters =>
    simp only [PlacedPiece.token?] at h
    cases hname : Mnemonic.ofName? (String.ofList letters) with
    | some m =>
      simp only [hname] at h
      cases h
      exact .mnemonic rfl
    | none =>
      simp only [hname] at h
      cases h
      refine .identifier rfl rfl ?_ hname
      simpa [PlacedPiece.toToken, Piece.text] using hp
  | blank run => cases h
  | lineEnd => cases h
  | comment body => cases h
  | stray c => cases h

theorem spelling_of_mem_words {source : String} {t : Token} (h : t ∈ words source) :
    Spelling t := by
  obtain ⟨p, hp, ht⟩ := List.mem_filterMap.1 h
  exact spelling_of_token? (wellMade_of_mem_pieces hp) ht

/-- No word stands for the end of the text. -/
theorem kind_ne_endOfText {source : String} {t : Token} (h : t ∈ words source) :
    t.kind ≠ .endOfText := by
  cases spelling_of_mem_words h with
  | @numeral form _ hkind _ _ =>
    rw [hkind]
    cases form with
    | register | immediate | address => exact Token.Kind.noConfusion
  | mnemonic hkind | identifier hkind _ _ _ | comma hkind | colon hkind =>
    rw [hkind]
    exact Token.Kind.noConfusion

/-! ## Reading -/

/-- A source text is read from its words. -/
theorem ofTokens_tokens (g : Grammar) (source : String) :
    Reading.ofTokens g (tokens source) =
      ⟨Reading.statements (Reading.outcomes g (finalToken source) (words source)),
        Reading.failures (Reading.outcomes g (finalToken source) (words source))⟩ := by
  have hwords : ∀ t ∈ words source, decide (t.kind ≠ .endOfText) = true :=
    fun t ht => decide_eq_true (kind_ne_endOfText ht)
  have htake : (tokens source).takeWhile (·.kind ≠ .endOfText) = words source := by
    rw [tokens_eq, List.takeWhile_append_of_pos hwords]
    exact List.append_nil _
  have hfind : (tokens source).find? (·.kind = .endOfText) = some (finalToken source) := by
    have hnone : (words source).find? (·.kind = .endOfText) = none := by
      rw [List.find?_eq_none]
      intro t ht
      simpa using kind_ne_endOfText ht
    rw [tokens_eq, List.find?_append, hnone]
    rfl
  have hfinal : Reading.finalToken (tokens source) = finalToken source := by
    simp only [Reading.finalToken, hfind]
  simp only [Reading.ofTokens, htake, hfinal]

end Source

end AqaAssembly
