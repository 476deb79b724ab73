import AqaAssembly.Program.LabelTable
import AqaAssembly.Program.Parse
import Mathlib.Data.List.Forall2
import Mathlib.Order.Basic

/-!
# Programs that mean the same

Where a token stands, and how a numeral is written, is of no account for what a program means.  Two
tokens that agree in the rest are alike (`Token.Alike`).  Everything here is about an arbitrary
relation `R` between tokens that are alike, and follows it from the tokens to the statements and
errors that are read from them: they come in the same order and differ in their tokens alone, which
are related by `R`.

* `Reading.like_outcomes`: tokens that are related are read alike;
* `Statement.Like.text_eq`: statements that are alike are written alike;
* `LabelTable.ofProgram_congr`: programs that are alike have the same label table.
-/

namespace AqaAssembly

open Operand

/-- The tokens mean the same.  They may stand in different places, and numerals may be written
differently. -/
structure Token.Alike (t u : Token) : Prop where
  kind_eq : t.kind = u.kind
  literal_eq : t.literal = u.literal
  lexeme_eq : t.kind = .identifier → t.lexeme = u.lexeme

theorem Token.Alike.refl (t : Token) : t.Alike t := ⟨rfl, rfl, fun _ => rfl⟩

theorem Token.Alike.symm {t u : Token} (h : t.Alike u) : u.Alike t :=
  ⟨h.kind_eq.symm, h.literal_eq.symm, fun hu => (h.lexeme_eq (h.kind_eq.trans hu)).symm⟩

theorem Token.Alike.integer?_eq {t u : Token} (h : t.Alike u) : t.integer? = u.integer? := by
  rw [Token.integer?, Token.integer?, h.literal_eq]

/-- Either both are values that are related, or both are errors that are related. -/
inductive LiftRel {ε ζ α β : Type} (E : ε → ζ → Prop) (V : α → β → Prop) :
    Except ε α → Except ζ β → Prop
  | ok {a : α} {b : β} (h : V a b) : LiftRel E V (.ok a) (.ok b)
  | error {e : ε} {f : ζ} (h : E e f) : LiftRel E V (.error e) (.error f)

/-- Related computations that go on in a related way are related. -/
theorem LiftRel.bind {ε ζ α β α' β' : Type} {E : ε → ζ → Prop} {V : α → β → Prop}
    {W : α' → β' → Prop} {x : Except ε α} {y : Except ζ β} {k : α → Except ε α'}
    {l : β → Except ζ β'} (h : LiftRel E V x y) (hk : ∀ a b, V a b → LiftRel E W (k a) (l b)) :
    LiftRel E W (x >>= k) (y >>= l) := by
  cases h with
  | ok hv => exact hk _ _ hv
  | error he => exact .error he

section

variable (R : Token → Token → Prop)

/-! ## Likeness -/

/-- The operands have one value, and their tokens are related. -/
structure Operand.Number.Like {form : Numeral} (x y : Number form) : Prop where
  value_eq : x.value = y.value
  token : R x.token y.token

/-- The labels have one name, and their tokens are related. -/
structure Operand.Label.Like (l k : Label) : Prop where
  name_eq : l.name = k.name
  token : R l.token k.token

/-- Both operands are registers, or both are written values, and they are alike. -/
inductive Operand.Flexible.Like : Flexible → Flexible → Prop
  | immediate {i j : Immediate} (h : i.Like R j) : Like (.immediate i) (.immediate j)
  | register {r q : Register} (h : r.Like R q) : Like (.register r) (.register q)

/-- The instructions have one name, and their operands are alike. -/
inductive Instruction.Like : Instruction → Instruction → Prop
  | load {d d' : Register} {a a' : Address} (hd : d.Like R d') (ha : a.Like R a') :
    Like (.load d a) (.load d' a')
  | store {d d' : Register} {a a' : Address} (hd : d.Like R d') (ha : a.Like R a') :
    Like (.store d a) (.store d' a')
  | compute (op : Operation) {d d' l l' : Register} {r r' : Flexible} (hd : d.Like R d')
    (hl : l.Like R l') (hr : r.Like R r') : Like (.compute op d l r) (.compute op d' l' r')
  | shift (direction : Shift) {d d' v v' : Register} {n n' : Flexible} (hd : d.Like R d')
    (hv : v.Like R v') (hn : n.Like R n') :
    Like (.shift direction d v n) (.shift direction d' v' n')
  | move {d d' : Register} {s s' : Flexible} (hd : d.Like R d') (hs : s.Like R s') :
    Like (.move d s) (.move d' s')
  | complement {d d' : Register} {s s' : Flexible} (hd : d.Like R d') (hs : s.Like R s') :
    Like (.complement d s) (.complement d' s')
  | compare {l l' : Register} {r r' : Flexible} (hl : l.Like R l') (hr : r.Like R r') :
    Like (.compare l r) (.compare l' r')
  | branch (condition : Condition) {l l' : Label} (h : l.Like R l') :
    Like (.branch condition l) (.branch condition l')
  | halt : Like .halt .halt

/-- The statements are instructions that are alike, or declare labels that are alike. -/
inductive Statement.Like : Statement → Statement → Prop
  | instruction {i j : Instruction} (h : i.Like R j) : Like (.instruction i) (.instruction j)
  | label {l k : Label} (h : l.Like R k) : Like (.label l) (.label k)

/-- The errors say the same of tokens that are related. -/
structure SyntaxError.Like (e f : SyntaxError) : Prop where
  cause_eq : e.cause = f.cause
  message_eq : e.message = f.message
  token : R e.token f.token

/-- The slots were filled alike, or the same slot was missing. -/
inductive Filling.Like : Filling → Filling → Prop
  | complete {os os' ts ts' : List Token} (hos : List.Forall₂ R os os')
    (hts : List.Forall₂ R ts ts') : Like (.complete os ts) (.complete os' ts')
  | missing (slot : Slot) {ts ts' : List Token} (hts : List.Forall₂ R ts ts') :
    Like (.missing slot ts) (.missing slot ts')

/-- The attempts have outcomes that are alike, and leave tokens that are related. -/
inductive Attempt.Like : Attempt → Attempt → Prop
  | read {s s' : Statement} {ts ts' : List Token} (hs : s.Like R s')
    (hts : List.Forall₂ R ts ts') : Like (.read s ts) (.read s' ts')
  | failed {e e' : SyntaxError} {ts ts' : List Token} (he : e.Like R e')
    (hts : List.Forall₂ R ts ts') : Like (.failed e ts) (.failed e' ts')

end

variable {R : Token → Token → Prop}

/-! ## A statement is like itself -/

theorem Operand.Number.Like.refl (hR : ∀ t, R t t) {form : Numeral} (x : Number form) :
    x.Like R x :=
  ⟨rfl, hR _⟩

theorem Operand.Label.Like.refl (hR : ∀ t, R t t) (l : Label) : l.Like R l := ⟨rfl, hR _⟩

theorem Operand.Flexible.Like.refl (hR : ∀ t, R t t) (f : Flexible) : f.Like R f := by
  cases f with
  | immediate i => exact .immediate (.refl hR i)
  | register r => exact .register (.refl hR r)

theorem Instruction.Like.refl (hR : ∀ t, R t t) (i : Instruction) : i.Like R i := by
  cases i with
  | load d a => exact .load (.refl hR d) (.refl hR a)
  | store d a => exact .store (.refl hR d) (.refl hR a)
  | compute op d l r => exact .compute op (.refl hR d) (.refl hR l) (.refl hR r)
  | shift direction d v n => exact .shift direction (.refl hR d) (.refl hR v) (.refl hR n)
  | move d s => exact .move (.refl hR d) (.refl hR s)
  | complement d s => exact .complement (.refl hR d) (.refl hR s)
  | compare l r => exact .compare (.refl hR l) (.refl hR r)
  | branch condition l => exact .branch condition (.refl hR l)
  | halt => exact .halt

theorem Statement.Like.refl (hR : ∀ t, R t t) (s : Statement) : s.Like R s := by
  cases s with
  | instruction i => exact .instruction (.refl hR i)
  | label l => exact .label (.refl hR l)

/-! ## What is written -/

theorem Operand.Number.Like.text_eq {form : Numeral} {x y : Number form} (h : x.Like R y) :
    x.text = y.text := by
  rw [Number.text, Number.text, h.value_eq]

theorem Operand.Flexible.Like.text_eq {f g : Flexible} (h : f.Like R g) : f.text = g.text := by
  cases h with
  | immediate h => exact h.text_eq
  | register h => exact h.text_eq

theorem Operand.Flexible.Like.token {f g : Flexible} (h : f.Like R g) : R f.token g.token := by
  cases h with
  | immediate h => exact h.token
  | register h => exact h.token

theorem Instruction.Like.mnemonic_eq {i j : Instruction} (h : i.Like R j) :
    i.mnemonic = j.mnemonic := by
  cases h with
  | _ => rfl

theorem Instruction.Like.map_text_eq {i j : Instruction} (h : i.Like R j) :
    i.operands.map Operand.text = j.operands.map Operand.text := by
  cases h with
  | load hd ha => simp [operands, hd.text_eq, ha.text_eq]
  | store hd ha => simp [operands, hd.text_eq, ha.text_eq]
  | compute op hd hl hr => simp [operands, hd.text_eq, hl.text_eq, hr.text_eq]
  | shift direction hd hv hn => simp [operands, hd.text_eq, hv.text_eq, hn.text_eq]
  | move hd hs => simp [operands, hd.text_eq, hs.text_eq]
  | complement hd hs => simp [operands, hd.text_eq, hs.text_eq]
  | compare hl hr => simp [operands, hl.text_eq, hr.text_eq]
  | branch condition h => simp [operands, h.name_eq]
  | halt => rfl

/-- Instructions that are alike are written alike. -/
theorem Instruction.Like.text_eq {i j : Instruction} (h : i.Like R j) : i.text = j.text := by
  have hmnemonic := h.mnemonic_eq
  have htexts := h.map_text_eq
  unfold Instruction.text
  cases hi : i.operands with
  | nil =>
    rw [hi, List.map_nil, eq_comm, List.map_eq_nil_iff] at htexts
    rw [htexts, hmnemonic]
  | cons o os =>
    rw [hi] at htexts
    cases hj : j.operands with
    | nil => simp [hj] at htexts
    | cons o' os' =>
      rw [hj] at htexts
      simp only [hmnemonic, htexts]

/-- Statements that are alike are written alike. -/
theorem Statement.Like.text_eq {s t : Statement} (h : s.Like R t) : s.text = t.text := by
  cases h with
  | instruction h => exact h.text_eq
  | label h => exact congrArg (· ++ ":") h.name_eq

/-- Programs that are alike are written alike, statement by statement. -/
theorem Program.map_text_congr {p q : Program} (h : List.Forall₂ (Statement.Like R) p q) :
    p.map Statement.text = q.map Statement.text := by
  induction h with
  | nil => rfl
  | cons hs _ ih => rw [List.map_cons, List.map_cons, hs.text_eq, ih]

/-! ## What is declared -/

/-- Statements that are alike declare labels of the same name. -/
theorem Statement.Like.map_name_label?_eq {s t : Statement} (h : s.Like R t) :
    s.label?.map Label.name = t.label?.map Label.name := by
  cases h with
  | instruction h => rfl
  | label h => exact congrArg some h.name_eq

/-- The names that a program declares, with the places of their declarations. -/
theorem LabelTable.ofProgram_eq_foldl (p : Program) :
    ofProgram p = (p.zipIdx.filterMap fun d => (d.1.label?.map Label.name).map (·, d.2)).foldl
      (fun t d => t.declare d.1 d.2) empty := by
  have hmap : (p.zipIdx.filterMap fun d => (d.1.label?.map Label.name).map (·, d.2)) =
      (declarations p).map fun d => (d.1.name, d.2) := by
    rw [declarations, List.map_filterMap]
    refine List.filterMap_congr fun d _ => ?_
    simp only [Option.map_map, Function.comp_def]
  rw [hmap, List.foldl_map]
  rfl

/-- Programs that are alike have the same label table. -/
theorem LabelTable.ofProgram_congr {p q : Program} (h : List.Forall₂ (Statement.Like R) p q) :
    ofProgram p = ofProgram q := by
  have hplaces : ∀ k, ((p.zipIdx k).filterMap fun d => (d.1.label?.map Label.name).map (·, d.2)) =
      (q.zipIdx k).filterMap fun d => (d.1.label?.map Label.name).map (·, d.2) := by
    induction h with
    | nil => exact fun k => rfl
    | cons hs hp ih =>
      intro k
      simp only [List.zipIdx_cons, List.filterMap_cons, hs.map_name_label?_eq, ih (k + 1)]
  rw [ofProgram_eq_foldl, ofProgram_eq_foldl, hplaces]

/-! ## Operands -/

theorem Operand.Number.exists_like (hR : R ≤ Token.Alike) {form : Numeral} {x : Number form}
    {u : Token} (h : R x.token u) : ∃ y : Number form, y.token = u ∧ x.Like R y := by
  have hu := hR _ _ h
  exact ⟨⟨x.value, u, hu.kind_eq ▸ x.kind_token, hu.integer?_eq ▸ x.integer?_token⟩, rfl, rfl, h⟩

theorem Operand.Label.exists_like (hR : R ≤ Token.Alike) {l : Label} {u : Token}
    (h : R l.token u) : ∃ k : Label, k.token = u ∧ l.Like R k := by
  have hu := hR _ _ h
  refine ⟨⟨u, hu.kind_eq ▸ l.kind_token⟩, rfl, ?_, h⟩
  rw [Label.name, Label.name, hu.lexeme_eq l.kind_token, Token.name?, Token.name?, hu.literal_eq]

theorem Operand.Flexible.exists_like (hR : R ≤ Token.Alike) {f : Flexible} {u : Token}
    (h : R f.token u) : ∃ g : Flexible, g.token = u ∧ f.Like R g := by
  cases f with
  | immediate i =>
    obtain ⟨j, hj, hlike⟩ := Number.exists_like hR (x := i) h
    exact ⟨.immediate j, hj, .immediate hlike⟩
  | register r =>
    obtain ⟨q, hq, hlike⟩ := Number.exists_like hR (x := r) h
    exact ⟨.register q, hq, .register hlike⟩

/-! ## Instructions -/

/-- Tokens that are related to those of an instruction are the tokens of one that is like it. -/
theorem Instruction.exists_like (hR : R ≤ Token.Alike) {i : Instruction} {us : List Token}
    (h : List.Forall₂ R i.tokens us) : ∃ j : Instruction, j.tokens = us ∧ i.Like R j := by
  cases i with
  | load d a =>
    obtain _ | ⟨hd, _ | ⟨ha, ⟨⟩⟩⟩ := h
    obtain ⟨d', rfl, hd'⟩ := Number.exists_like hR hd
    obtain ⟨a', rfl, ha'⟩ := Number.exists_like hR ha
    exact ⟨.load d' a', rfl, .load hd' ha'⟩
  | store d a =>
    obtain _ | ⟨hd, _ | ⟨ha, ⟨⟩⟩⟩ := h
    obtain ⟨d', rfl, hd'⟩ := Number.exists_like hR hd
    obtain ⟨a', rfl, ha'⟩ := Number.exists_like hR ha
    exact ⟨.store d' a', rfl, .store hd' ha'⟩
  | compute op d l r =>
    obtain _ | ⟨hd, _ | ⟨hl, _ | ⟨hr, ⟨⟩⟩⟩⟩ := h
    obtain ⟨d', rfl, hd'⟩ := Number.exists_like hR hd
    obtain ⟨l', rfl, hl'⟩ := Number.exists_like hR hl
    obtain ⟨r', rfl, hr'⟩ := Flexible.exists_like hR (token_toOperand r ▸ hr)
    exact ⟨.compute op d' l' r', by simp [tokens, operands], .compute op hd' hl' hr'⟩
  | shift direction d v n =>
    obtain _ | ⟨hd, _ | ⟨hv, _ | ⟨hn, ⟨⟩⟩⟩⟩ := h
    obtain ⟨d', rfl, hd'⟩ := Number.exists_like hR hd
    obtain ⟨v', rfl, hv'⟩ := Number.exists_like hR hv
    obtain ⟨n', rfl, hn'⟩ := Flexible.exists_like hR (token_toOperand n ▸ hn)
    exact ⟨.shift direction d' v' n', by simp [tokens, operands], .shift direction hd' hv' hn'⟩
  | move d s =>
    obtain _ | ⟨hd, _ | ⟨hs, ⟨⟩⟩⟩ := h
    obtain ⟨d', rfl, hd'⟩ := Number.exists_like hR hd
    obtain ⟨s', rfl, hs'⟩ := Flexible.exists_like hR (token_toOperand s ▸ hs)
    exact ⟨.move d' s', by simp [tokens, operands], .move hd' hs'⟩
  | complement d s =>
    obtain _ | ⟨hd, _ | ⟨hs, ⟨⟩⟩⟩ := h
    obtain ⟨d', rfl, hd'⟩ := Number.exists_like hR hd
    obtain ⟨s', rfl, hs'⟩ := Flexible.exists_like hR (token_toOperand s ▸ hs)
    exact ⟨.complement d' s', by simp [tokens, operands], .complement hd' hs'⟩
  | compare l r =>
    obtain _ | ⟨hl, _ | ⟨hr, ⟨⟩⟩⟩ := h
    obtain ⟨l', rfl, hl'⟩ := Number.exists_like hR hl
    obtain ⟨r', rfl, hr'⟩ := Flexible.exists_like hR (token_toOperand r ▸ hr)
    exact ⟨.compare l' r', by simp [tokens, operands], .compare hl' hr'⟩
  | branch condition l =>
    obtain _ | ⟨hl, ⟨⟩⟩ := h
    obtain ⟨l', rfl, hl'⟩ := Label.exists_like hR hl
    exact ⟨.branch condition l', rfl, .branch condition hl'⟩
  | halt =>
    cases h
    exact ⟨.halt, rfl, .halt⟩

/-- What can be read from tokens can be read from related ones. -/
theorem Instruction.exists_ofTokens?_eq_some (hR : R ≤ Token.Alike) {ts us : List Token}
    (h : List.Forall₂ R ts us) {m : Mnemonic} {i : Instruction} (hi : ofTokens? m ts = some i) :
    ∃ j, ofTokens? m us = some j ∧ i.Like R j := by
  obtain ⟨hmnemonic, htokens⟩ := ofTokens?_eq_some_iff.1 hi
  obtain ⟨j, hj, hlike⟩ := exists_like hR (i := i) (htokens.symm ▸ h)
  exact ⟨j, ofTokens?_eq_some_iff.2 ⟨hlike.mnemonic_eq ▸ hmnemonic, hj⟩, hlike⟩

/-- What cannot be read from tokens cannot be read from related ones. -/
theorem Instruction.ofTokens?_eq_none (hR : R ≤ Token.Alike) {ts us : List Token}
    (h : List.Forall₂ R ts us) {m : Mnemonic} (hn : ofTokens? m ts = none) :
    ofTokens? m us = none := by
  cases hj : ofTokens? m us with
  | none => rfl
  | some j =>
    -- likeness is symmetric: what is read from `us` could also be read from `ts`
    have hflip : flip R ≤ Token.Alike := fun u t hu => (hR t u hu).symm
    obtain ⟨i, hi, -⟩ := exists_ofTokens?_eq_some hflip (List.Forall₂.flip (R := flip R) h) hj
    rw [hi] at hn
    cases hn

/-! ## Declarations -/

theorem Filling.Like.addOperand {f f' : Filling} {t t' : Token} (h : f.Like R f') (ht : R t t') :
    (f.addOperand t).Like R (f'.addOperand t') := by
  cases h with
  | complete hos hts => exact .complete (.cons ht hos) hts
  | missing slot hts => exact .missing slot hts

/-- Tokens that are related fill the slots alike. -/
theorem Filling.like_ofTokens (hR : R ≤ Token.Alike) {ts us : List Token}
    (h : List.Forall₂ R ts us) (slots : List Slot) :
    (ofTokens slots ts).Like R (ofTokens slots us) := by
  induction slots generalizing ts us with
  | nil => exact .complete .nil h
  | cons slot slots ih =>
    cases h with
    | nil => exact .missing slot .nil
    | @cons t u ts us ht hts =>
      rw [ofTokens, ofTokens, ← (hR _ _ ht).kind_eq]
      split
      · split
        · exact ih hts
        · exact (ih hts).addOperand ht
      · exact .missing slot (.cons ht hts)

namespace Attempt

variable {final final' : Token} {ts us : List Token}

theorem like_stop (hfinal : R final final') (h : List.Forall₂ R ts us) (cause : SyntaxError.Cause)
    (message : String) :
    (stop final cause message ts).Like R (stop final' cause message us) := by
  cases h with
  | nil => exact .failed ⟨rfl, rfl, hfinal⟩ .nil
  | cons ht hts => exact .failed ⟨rfl, rfl, ht⟩ (.cons ht hts)

theorem like_ofLabel (hR : R ≤ Token.Alike) (hfinal : R final final') {l k : Label}
    (hl : l.Like R k) (h : List.Forall₂ R ts us) :
    (ofLabel final l ts).Like R (ofLabel final' k us) := by
  cases h with
  | nil => exact like_stop hfinal .nil _ _
  | cons ht hts =>
    rw [ofLabel, ofLabel, ← (hR _ _ ht).kind_eq]
    split
    · exact .read (.label hl) hts
    · exact like_stop hfinal (.cons ht hts) _ _

theorem like_ofMnemonic (hR : R ≤ Token.Alike) (hfinal : R final final') {t u : Token}
    (ht : R t u) (h : List.Forall₂ R ts us) (m : Mnemonic) (slots : List Slot) :
    (ofMnemonic final m t slots ts).Like R (ofMnemonic final' m u slots us) := by
  have hfilling := Filling.like_ofTokens hR h slots
  unfold ofMnemonic
  generalize Filling.ofTokens slots ts = f at hfilling ⊢
  generalize Filling.ofTokens slots us = f' at hfilling ⊢
  cases hfilling with
  | missing slot hrest => exact like_stop hfinal hrest _ _
  | @complete os os' rest rest' hos hrest =>
    cases hread : Instruction.ofTokens? m os with
    | some i =>
      obtain ⟨j, hj, hlike⟩ := Instruction.exists_ofTokens?_eq_some hR hos hread
      simp only [hread, hj]
      exact .read (.instruction hlike) hrest
    | none =>
      have hnone := Instruction.ofTokens?_eq_none hR hos hread
      simp only [hread, hnone]
      exact .failed ⟨rfl, rfl, ht⟩ hrest

/-- Tokens that are related begin with declarations that are alike. -/
theorem like_ofTokens (hR : R ≤ Token.Alike) (g : Grammar) (hfinal : R final final') {t u : Token}
    (ht : R t u) (h : List.Forall₂ R ts us) :
    (ofTokens g final t ts).Like R (ofTokens g final' u us) := by
  have hkind := (hR _ _ ht).kind_eq
  by_cases hidentifier : t.kind = .identifier
  · rw [ofTokens_of_identifier g final ts hidentifier,
      ofTokens_of_identifier g final' us (hkind ▸ hidentifier)]
    obtain ⟨k, rfl, hlike⟩ := Label.exists_like hR (l := ⟨t, hidentifier⟩) ht
    exact like_ofLabel hR hfinal hlike h
  · cases hm : t.kind.mnemonic? with
    | none =>
      rw [ofTokens_of_ne g final ts hidentifier hm,
        ofTokens_of_ne g final' us (hkind ▸ hidentifier) (hkind ▸ hm)]
      exact like_stop hfinal (.cons ht h) _ _
    | some m =>
      have hmnemonic : t.kind = .mnemonic m := Token.Kind.mnemonic?_eq_some_iff.1 hm
      rw [ofTokens_of_mnemonic g final ts hmnemonic,
        ofTokens_of_mnemonic g final' us (hkind ▸ hmnemonic)]
      cases g.slots? m with
      | some slots => exact like_ofMnemonic hR hfinal ht h m slots
      | none => exact like_stop hfinal (.cons ht h) _ _

/-- Reading goes on with tokens that are related. -/
theorem forall₂_recover (hR : R ≤ Token.Alike) (h : List.Forall₂ R ts us) :
    List.Forall₂ R (recover ts) (recover us) := by
  have hdrop : List.Forall₂ R (ts.drop 1) (us.drop 1) := List.forall₂_drop 1 h
  unfold recover
  generalize ts.drop 1 = ts at hdrop ⊢
  generalize us.drop 1 = us at hdrop ⊢
  induction hdrop with
  | nil => exact .nil
  | @cons t u ts us ht hts ih =>
    rw [List.dropWhile_cons, List.dropWhile_cons, ← (hR _ _ ht).kind_eq]
    split
    · exact ih
    · exact .cons ht hts

theorem Like.forall₂_next (hR : R ≤ Token.Alike) {a b : Attempt} (h : a.Like R b) :
    List.Forall₂ R a.next b.next := by
  cases h with
  | read hs hts => exact hts
  | failed he hts => exact forall₂_recover hR hts

theorem Like.outcome {a b : Attempt} (h : a.Like R b) :
    LiftRel (SyntaxError.Like R) (Statement.Like R) a.outcome b.outcome := by
  cases h with
  | read hs hts => exact .ok hs
  | failed he hts => exact .error he

end Attempt

/-! ## Reading -/

namespace Reading

/-- Tokens that are related are read alike. -/
theorem like_outcomes (hR : R ≤ Token.Alike) (g : Grammar) {final final' : Token}
    (hfinal : R final final') {ts us : List Token} (h : List.Forall₂ R ts us) :
    List.Forall₂ (LiftRel (SyntaxError.Like R) (Statement.Like R))
      (outcomes g final ts) (outcomes g final' us) := by
  fun_induction outcomes g final ts generalizing us with
  | case1 =>
    cases h
    rw [outcomes_nil]
    exact .nil
  | case2 t ts attempt =>
    rename_i ih
    cases h with
    | @cons _ u _ us ht hts =>
      have hattempt := Attempt.like_ofTokens hR g hfinal ht hts
      rw [outcomes_cons]
      exact .cons hattempt.outcome (ih (hattempt.forall₂_next hR))

/-- Programs that are read alike and without an error are alike. -/
theorem exists_forall₂_of_map_ok {p : Program} {rs : List (Except SyntaxError Statement)}
    (h : List.Forall₂ (LiftRel (SyntaxError.Like R) (Statement.Like R)) (p.map .ok) rs) :
    ∃ q : Program, rs = q.map .ok ∧ List.Forall₂ (Statement.Like R) p q := by
  induction p generalizing rs with
  | nil =>
    cases h
    exact ⟨[], rfl, .nil⟩
  | cons s p ih =>
    cases h with
    | cons hs hp =>
      cases hs with
      | @ok _ t hst =>
        obtain ⟨q, rfl, hq⟩ := ih hp
        exact ⟨t :: q, rfl, .cons hst hq⟩

end Reading

end AqaAssembly
