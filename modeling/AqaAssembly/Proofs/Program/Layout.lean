import AqaAssembly.Grammar.Standard
import AqaAssembly.Proofs.Machine.Likeness
import AqaAssembly.Proofs.Source.Layout

/-!
# Layout means nothing

Two source texts that differ in blanks, line ends and comments between words are read alike with
every grammar: either both are accepted, and the programs are written alike and do the same on every
machine, or both are refused for the same reasons (`layout_means_nothing`).

* `Reading.forall₂_statements`, `Reading.forall₂_failures`: outcomes that are alike hold statements
  and errors that are alike;
* `Program.like_ofSource`: texts whose words are related and whose words are bad together are read
  alike.
-/

namespace AqaAssembly

/-- The errors have the same reasons: bad words of the same text, and syntax errors that say the same
of tokens that are related. -/
structure StaticErrors.Like (R : Token → Token → Prop) (e e' : StaticErrors) : Prop where
  lexical : e'.lexical.map (fun x => (x.cause, x.text)) = e.lexical.map fun x => (x.cause, x.text)
  syntactic : List.Forall₂ (SyntaxError.Like R) e.syntactic e'.syntactic

/-- The runs end in the same state, with the same number of statements executed, and with faults of
the same cause at operands that are written alike, if with any. -/
structure Machine.Outcome.Agrees (o o' : Outcome) : Prop where
  registers : o'.machine.registers = o.machine.registers
  memory : o'.machine.memory = o.machine.memory
  flags : o'.machine.flags = o.machine.flags
  pc : o'.machine.pc = o.machine.pc
  executed : o'.machine.executed = o.machine.executed
  halted : o'.machine.halted = o.machine.halted
  recorded : o'.machine.fault?.map (fun f => (f.cause, f.token.lexeme)) =
    o.machine.fault?.map fun f => (f.cause, f.token.lexeme)
  fault? : o'.fault?.map (fun f => (f.cause, f.token.lexeme)) =
    o.fault?.map fun f => (f.cause, f.token.lexeme)

variable {R : Token → Token → Prop}

/-! ## Reading -/

namespace Reading

theorem forall₂_statements {rs rs' : List (Except SyntaxError Statement)}
    (h : List.Forall₂ (LiftRel (SyntaxError.Like R) (Statement.Like R)) rs rs') :
    List.Forall₂ (Statement.Like R) (statements rs) (statements rs') := by
  refine List.rel_filterMap (fun r r' hr => ?_) h
  cases hr with
  | ok hs => exact .some hs
  | error he => exact .none

theorem forall₂_failures {rs rs' : List (Except SyntaxError Statement)}
    (h : List.Forall₂ (LiftRel (SyntaxError.Like R) (Statement.Like R)) rs rs') :
    List.Forall₂ (SyntaxError.Like R) (failures rs) (failures rs') := by
  refine List.rel_filterMap (fun r r' hr => ?_) h
  cases hr with
  | ok hs => exact .none
  | error he => exact .some he

end Reading

theorem StaticErrors.Like.isEmpty_eq {e e' : StaticErrors} (h : e.Like R e') :
    e'.isEmpty = e.isEmpty := by
  have hlexical : e'.lexical.length = e.lexical.length := by
    simpa only [List.length_map] using congrArg List.length h.lexical
  rw [Bool.eq_iff_iff, StaticErrors.isEmpty_iff, StaticErrors.isEmpty_iff]
  simp only [← List.length_eq_zero_iff, hlexical, h.syntactic.length_eq]

/-- Source texts with related words, whose other pieces are bad alike, are read alike. -/
theorem Program.like_ofSource (hR : R ≤ Token.Alike) (g : Grammar) {source source' : String}
    (hfinal : R (Source.finalToken source) (Source.finalToken source'))
    (hwords : List.Forall₂ R (Source.words source) (Source.words source'))
    (hlexical : (Source.lexicalErrors source').map (fun x => (x.cause, x.text)) =
      (Source.lexicalErrors source).map fun x => (x.cause, x.text)) :
    LiftRel (StaticErrors.Like R) (List.Forall₂ (Statement.Like R)) (ofSource g source)
      (ofSource g source') := by
  have houtcomes := Reading.like_outcomes hR g hfinal hwords
  have herrors : StaticErrors.Like R
      ⟨Source.lexicalErrors source, (Reading.ofTokens g (Source.tokens source)).errors⟩
      ⟨Source.lexicalErrors source', (Reading.ofTokens g (Source.tokens source')).errors⟩ := by
    refine ⟨hlexical, ?_⟩
    rw [Source.ofTokens_tokens, Source.ofTokens_tokens]
    exact Reading.forall₂_failures houtcomes
  have hprograms : List.Forall₂ (Statement.Like R)
      (Reading.ofTokens g (Source.tokens source)).program
      (Reading.ofTokens g (Source.tokens source')).program := by
    rw [Source.ofTokens_tokens, Source.ofTokens_tokens]
    exact Reading.forall₂_statements houtcomes
  simp only [ofSource, herrors.isEmpty_eq]
  split
  · exact .ok hprograms
  · exact .error herrors

/-- Programs that are alike, but for where their tokens stand, run alike on every machine. -/
theorem Machine.agrees_runFor {p q : Program} (h : List.Forall₂ (Statement.Like R) p q)
    (hR : ∀ t u, R t u → u.lexeme = t.lexeme) (config : Config) (n : Nat) :
    (runFor n (load p config)).Agrees (runFor n (load q config)) := by
  obtain ⟨hmachine, hfault⟩ := (like_load h config).runFor n
  have hsaid : ∀ {f f' : Option Fault}, Option.Rel (Fault.Like R) f f' →
      f'.map (fun f => (f.cause, f.token.lexeme)) = f.map fun f => (f.cause, f.token.lexeme) := by
    intro f f' hf
    cases hf with
    | none => rfl
    | some hf => exact congrArg some (Prod.ext hf.cause_eq.symm (hR _ _ hf.token))
  exact {
    registers := hmachine.registers_eq
    memory := hmachine.memory_eq
    flags := hmachine.flags_eq
    pc := hmachine.pc_eq
    executed := hmachine.executed_eq.trans (UInt64.add_zero _)
    halted := hmachine.halted_eq
    recorded := hsaid hmachine.fault?
    fault? := hsaid hfault }

namespace Source

theorem alike_displaced (place lines bytes : Nat) (t : Token) :
    t.Alike (t.displaced place lines bytes) := by
  unfold Token.displaced
  split
  · exact ⟨rfl, rfl, fun _ => rfl⟩
  · exact Token.Alike.refl t

theorem lexeme_displaced (place lines bytes : Nat) (t : Token) :
    (t.displaced place lines bytes).lexeme = t.lexeme := by
  unfold Token.displaced
  split
  · rfl
  · rfl

/-- Layout at a break does not change which words are bad, nor why. -/
theorem IsBreak.map_lexicalErrors_insert {source : String} {place : Nat}
    (h : IsBreak source place) (hne : source ≠ "") {w : List Char} (hw : IsLayout w) :
    (lexicalErrors (insert w place source)).map (fun x => (x.cause, x.text)) =
      (lexicalErrors source).map fun x => (x.cause, x.text) := by
  rw [h.lexicalErrors_insert hne hw, lexicalErrors, if_neg hne, List.map_filterMap,
    List.map_filterMap]
  refine congrArg (List.filterMap · _) (funext fun q => ?_)
  split
  · rw [Option.map_map]
    rfl
  · rfl

/-- Layout that is inserted at the beginning of a source text, or where one of its words ends, moves
the tokens and the errors behind it and changes nothing else about them.  Whatever the grammar, the
two texts are refused for the same reasons, at tokens that are moved likewise, or both are accepted;
then the programs are written alike, and they run alike on every machine for any number of
statements. -/
theorem layout_means_nothing {source : String} {place : Nat} {w : List Char} (hne : source ≠ "")
    (hbreak : IsBreak source place) (hw : IsLayout w) :
    let source' := insert w place source
    let move := Token.displaced place (w.count '\n') (Piece.byteSize w)
    tokens source' = (tokens source).map move ∧
    lexicalErrors source' = ((pieces source).filterMap fun q =>
      if place ≤ q.start then q.error?.map (LexicalError.moved (w.count '\n')) else q.error?) ∧
    ∀ g, LiftRel (StaticErrors.Like fun t u => u = move t)
      (fun p p' => p'.map Statement.text = p.map Statement.text ∧ ∀ config n,
        (Machine.runFor n (.load p config)).Agrees (Machine.runFor n (.load p' config)))
      (Program.ofSource g source) (Program.ofSource g source') := by
  intro source' move
  refine ⟨hbreak.tokens_insert hw, hbreak.lexicalErrors_insert hne hw, fun g => ?_⟩
  have hR : (fun t u => u = move t) ≤ Token.Alike := by
    rintro t _ rfl
    exact alike_displaced place _ _ t
  have hwords : List.Forall₂ (fun t u => u = move t) (words source) (words source') := by
    rw [hbreak.words_insert hw, List.forall₂_map_right_iff]
    exact List.forall₂_same.2 fun _ _ => rfl
  have hlike := Program.like_ofSource hR g (hbreak.finalToken_insert w) hwords
    (hbreak.map_lexicalErrors_insert hne hw)
  generalize Program.ofSource g source = r at hlike ⊢
  generalize Program.ofSource g source' = r' at hlike ⊢
  cases hlike with
  | error he => exact .error he
  | ok hp =>
    have hlexeme : ∀ t u, u = move t → u.lexeme = t.lexeme := by
      rintro t _ rfl
      exact lexeme_displaced place _ _ t
    exact .ok ⟨(Program.map_text_congr hp).symm, Machine.agrees_runFor hp hlexeme⟩

/-- A comment between a colon and the word that touches it changes nothing but places. -/
theorem layout_means_nothing_comment :
    let source := "a:MOV r1,#2"
    let w := [';', 'b', '\n']
    IsBreak source 2 ∧ IsLayout w ∧ insert w 2 source = "a:;b\nMOV r1,#2" ∧
    tokens "a:;b\nMOV r1,#2" = (tokens source).map (Token.displaced 2 1 3) ∧
    lexicalErrors "a:;b\nMOV r1,#2" = [] ∧
    ∃ p p', Program.ofSource .standard source = .ok p ∧
      Program.ofSource .standard "a:;b\nMOV r1,#2" = .ok p' ∧
      ∀ config n, (Machine.runFor n (.load p config)).Agrees
        (Machine.runFor n (.load p' config)) := by
  intro source w
  have hcolon : ⟨.colon, ":", none, 1, ⟨1, 2⟩⟩ ∈ tokens source := by decide +kernel
  have hbreak : IsBreak source 2 := .inr ⟨_, hcolon, by decide, rfl⟩
  have hbody : ∀ c ∈ ['b'], c ≠ '\n' := List.forall_mem_singleton.2 (by decide)
  have hw : IsLayout w := .comment hbody .nil
  have hinsert : insert w 2 source = "a:;b\nMOV r1,#2" := by decide +kernel
  obtain ⟨htokens, herrors, hread⟩ := layout_means_nothing (by decide) hbreak hw
  rw [hinsert] at htokens herrors hread
  refine ⟨hbreak, hw, hinsert, htokens, herrors.trans (by decide +kernel), ?_⟩
  have haccepted : (Program.ofSource .standard source).isOk := by decide +kernel
  have hstandard := hread .standard
  generalize Program.ofSource .standard source = r at haccepted hstandard ⊢
  generalize Program.ofSource .standard "a:;b\nMOV r1,#2" = r' at hstandard ⊢
  cases hstandard with
  | error _ => cases haccepted
  | ok hp => exact ⟨_, _, rfl, rfl, hp.2⟩

end Source

end AqaAssembly
