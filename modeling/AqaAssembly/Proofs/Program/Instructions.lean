import AqaAssembly.Statement
import Mathlib.Data.List.Forall2

/-!
# Instructions and their tokens

An instruction demands as many tokens as it has operands, and of each of them that it is of a
certain kind and, if it is a numeral, that it carries its number (`Mnemonic.demands`).

* `tokens_met`: the operands of an instruction were written as what it demands;
* `exists_ofTokens?_of_met`: whatever meets the demands is read as the operands.

Nothing else decides whether an instruction is read, and nothing is lost on the way: the main result
is `Statement.made_of_name_and_tokens`.
-/

namespace AqaAssembly

open Operand

namespace Operand

/-- What an instruction demands of one of its tokens. -/
inductive Demand
  /-- A numeral of the form. -/
  | number (form : Numeral)
  /-- A register or a value written out. -/
  | flexible
  /-- The name of a label. -/
  | label
  deriving DecidableEq

/-- Is the token what is demanded?  A numeral must carry a number. -/
def Demand.Met : Demand → Token → Prop
  | number form, t => t.kind = form.kind ∧ ∃ n, t.literal = some (.integer n)
  | flexible, t =>
    (t.kind = .register ∨ t.kind = .immediate) ∧ ∃ n, t.literal = some (.integer n)
  | label, t => t.kind = .identifier

/-- The operand is what its token says: a numeral of its kind with the number that it carries, or a
label. -/
inductive WrittenAs : Operand → Token → Prop
  | number {form : Numeral} {x : Number form} {t : Token} (htoken : x.token = t)
    (hkind : t.kind = form.kind) (hliteral : t.literal = some (.integer x.value)) :
    WrittenAs (.number x) t
  | label {l : Label} {t : Token} (htoken : l.token = t) (hkind : t.kind = .identifier) :
    WrittenAs (.label l) t

end Operand

/-- What the instruction of the name demands of its tokens, in order. -/
def Mnemonic.demands : Mnemonic → List Demand
  | ldr | str => [.number .register, .number .address]
  | add | sub | and | orr | eor | lsl | lsr => [.number .register, .number .register, .flexible]
  | mov | cmp | mvn => [.number .register, .flexible]
  | b | beq | bne | bgt | blt => [.label]
  | halt => []

/-- The statement that begins with a token of some kind and has the operand tokens.  Only the name
of an instruction begins one. -/
def Statement.ofTokens? (kind : Token.Kind) (ts : List Token) : Option Statement :=
  (kind.mnemonic?.bind (Instruction.ofTokens? · ts)).map instruction

/-! ## Operands -/

namespace Operand

theorem writtenAs_token (o : Operand) : o.WrittenAs o.token := by
  cases o with
  | number x => exact .number rfl x.kind_token (Token.literal_of_integer? x.integer?_token)
  | label l => exact .label rfl l.kind_token

theorem Number.met_token {form : Numeral} (x : Number form) :
    (Demand.number form).Met x.token :=
  ⟨x.kind_token, x.value, Token.literal_of_integer? x.integer?_token⟩

theorem Flexible.met_token (f : Flexible) : Demand.flexible.Met f.token := by
  cases f with
  | immediate i => exact ⟨.inr i.kind_token, i.met_token.2⟩
  | register r => exact ⟨.inl r.kind_token, r.met_token.2⟩

theorem Label.met_token (l : Label) : Demand.label.Met l.token := l.kind_token

variable {t : Token}

/-- A token that carries a number of the form is such an operand. -/
theorem Number.exists_token_eq_of_met {form : Numeral} (h : (Demand.number form).Met t) :
    ∃ x : Number form, x.token = t := by
  obtain ⟨hkind, n, hn⟩ := h
  exact ⟨⟨n, t, hkind, by simp [Token.integer?, hn]⟩, rfl⟩

theorem Flexible.exists_token_eq_of_met (h : Demand.flexible.Met t) :
    ∃ f : Flexible, f.token = t := by
  obtain ⟨hkind | hkind, hn⟩ := h
  · obtain ⟨r, hr⟩ : ∃ r : Register, r.token = t := Number.exists_token_eq_of_met ⟨hkind, hn⟩
    exact ⟨.register r, hr⟩
  · obtain ⟨i, hi⟩ : ∃ i : Immediate, i.token = t := Number.exists_token_eq_of_met ⟨hkind, hn⟩
    exact ⟨.immediate i, hi⟩

theorem Label.exists_token_eq_of_met (h : Demand.label.Met t) : ∃ l : Label, l.token = t :=
  ⟨⟨t, h⟩, rfl⟩

end Operand

/-! ## Instructions -/

namespace Instruction

variable {ts : List Token}

/-- The operands of an instruction were written as what it demands. -/
theorem tokens_met (i : Instruction) : List.Forall₂ Demand.Met i.mnemonic.demands i.tokens := by
  cases i with
  | load r a => exact .cons r.met_token (.cons a.met_token .nil)
  | store r a => exact .cons r.met_token (.cons a.met_token .nil)
  | compute op d l r =>
    have hr := r.met_token
    cases op <;>
      simpa [tokens, operands, mnemonic, Operation.mnemonic, Mnemonic.demands, hr]
        using ⟨d.met_token, l.met_token⟩
  | shift direction d v n =>
    have hn := n.met_token
    cases direction <;>
      simpa [tokens, operands, mnemonic, Shift.mnemonic, Mnemonic.demands, hn]
        using ⟨d.met_token, v.met_token⟩
  | move d s =>
    have hs := s.met_token
    simpa [tokens, operands, mnemonic, Mnemonic.demands, hs] using d.met_token
  | complement d s =>
    have hs := s.met_token
    simpa [tokens, operands, mnemonic, Mnemonic.demands, hs] using d.met_token
  | compare l r =>
    have hr := r.met_token
    simpa [tokens, operands, mnemonic, Mnemonic.demands, hr] using l.met_token
  | branch condition l => cases condition <;> exact .cons l.met_token .nil
  | halt => exact .nil

theorem exists_readTransfer (make : Register → Address → Instruction)
    (h : List.Forall₂ Demand.Met [.number .register, .number .address] ts) :
    ∃ i, readTransfer make ts = some i := by
  obtain _ | ⟨hr, _ | ⟨ha, _ | _⟩⟩ := h
  obtain ⟨r, rfl⟩ := Number.exists_token_eq_of_met hr
  obtain ⟨a, rfl⟩ := Number.exists_token_eq_of_met ha
  exact ⟨make r a, by simp [readTransfer]⟩

theorem exists_readTriple (make : Register → Register → Flexible → Instruction)
    (h : List.Forall₂ Demand.Met [.number .register, .number .register, .flexible] ts) :
    ∃ i, readTriple make ts = some i := by
  obtain _ | ⟨hd, _ | ⟨hl, _ | ⟨hr, _ | _⟩⟩⟩ := h
  obtain ⟨d, rfl⟩ := Number.exists_token_eq_of_met hd
  obtain ⟨l, rfl⟩ := Number.exists_token_eq_of_met hl
  obtain ⟨r, rfl⟩ := Flexible.exists_token_eq_of_met hr
  exact ⟨make d l r, by simp [readTriple]⟩

theorem exists_readPair (make : Register → Flexible → Instruction)
    (h : List.Forall₂ Demand.Met [.number .register, .flexible] ts) :
    ∃ i, readPair make ts = some i := by
  obtain _ | ⟨hd, _ | ⟨hs, _ | _⟩⟩ := h
  obtain ⟨d, rfl⟩ := Number.exists_token_eq_of_met hd
  obtain ⟨s, rfl⟩ := Flexible.exists_token_eq_of_met hs
  exact ⟨make d s, by simp [readPair]⟩

theorem exists_readTarget (make : Label → Instruction)
    (h : List.Forall₂ Demand.Met [.label] ts) : ∃ i, readTarget make ts = some i := by
  obtain _ | ⟨hl, _ | _⟩ := h
  obtain ⟨l, rfl⟩ := Label.exists_token_eq_of_met hl
  exact ⟨make l, by simp [readTarget]⟩

/-- Tokens that meet the demands of an instruction are its operands. -/
theorem exists_ofTokens?_of_met {m : Mnemonic} (h : List.Forall₂ Demand.Met m.demands ts) :
    ∃ i, ofTokens? m ts = some i := by
  cases m with
  | ldr | str => exact exists_readTransfer _ h
  | add | sub | and | orr | eor | lsl | lsr => exact exists_readTriple _ h
  | mov | cmp | mvn => exact exists_readPair _ h
  | b | beq | bne | bgt | blt => exact exists_readTarget _ h
  | halt =>
    cases h
    exact ⟨halt, rfl⟩

/-- An instruction is read from tokens exactly if they are what it demands. -/
theorem ofTokens?_isSome_iff {m : Mnemonic} :
    (ofTokens? m ts).isSome ↔ List.Forall₂ Demand.Met m.demands ts := by
  rw [Option.isSome_iff_exists]
  constructor
  · rintro ⟨i, hi⟩
    obtain ⟨rfl, rfl⟩ := ofTokens?_eq_some_iff.1 hi
    exact i.tokens_met
  · exact exists_ofTokens?_of_met

end Instruction

/-! ## Statements -/

namespace Statement

variable {kind : Token.Kind} {ts : List Token} {s : Statement}

theorem ofTokens?_eq_some_iff :
    ofTokens? kind ts = some s ↔
      ∃ i, s = .instruction i ∧ kind = .mnemonic i.mnemonic ∧ i.tokens = ts := by
  simp only [ofTokens?, Option.map_eq_some_iff, Option.bind_eq_some_iff,
    Token.Kind.mnemonic?_eq_some_iff, Instruction.ofTokens?_eq_some_iff]
  constructor
  · rintro ⟨i, ⟨m, rfl, rfl, rfl⟩, rfl⟩
    exact ⟨i, rfl, rfl, rfl⟩
  · rintro ⟨i, rfl, rfl, rfl⟩
    exact ⟨i, ⟨i.mnemonic, rfl, rfl, rfl⟩, rfl⟩

theorem ofTokens?_isSome_iff :
    (ofTokens? kind ts).isSome ↔
      ∃ m, kind = .mnemonic m ∧ List.Forall₂ Demand.Met m.demands ts := by
  rw [ofTokens?, Option.isSome_map]
  cases hkind : kind.mnemonic? with
  | none =>
    have hother : ∀ m, kind ≠ .mnemonic m := by
      rintro m rfl
      cases hkind
    simp [hother]
  | some m =>
    obtain rfl := Token.Kind.mnemonic?_eq_some_iff.1 hkind
    simp [Instruction.ofTokens?_isSome_iff]

theorem forall₂_writtenAs (s : Statement) : List.Forall₂ WrittenAs s.operands s.tokens := by
  rw [tokens, List.forall₂_map_right_iff, List.forall₂_same]
  intro o _
  exact o.writtenAs_token

/-- Only a `HALT` has no operand to take a line from. -/
theorem line?_instruction_eq_none_iff (i : Instruction) :
    (instruction i).line? = none ↔ i.mnemonic = .halt := by
  have htokens : (instruction i).tokens = i.tokens := rfl
  have hmet := i.tokens_met
  rw [line?, htokens, Option.map_eq_none_iff, List.head?_eq_none_iff]
  constructor
  · intro hnil
    rw [hnil, List.forall₂_nil_right_iff] at hmet
    cases hm : i.mnemonic <;> simp [hm, Mnemonic.demands] at hmet ⊢
  · intro hhalt
    rwa [hhalt, Mnemonic.demands, List.forall₂_nil_left_iff] at hmet

/-- A kind of token and the tokens behind it make a statement exactly if the kind is the name of an
instruction and the tokens are as many as it demands, each of them what is demanded in its place.
Then the statement is the instruction of that name, its operands are the tokens in their order, each
number is the one that its token carries, and its line is that of the first of them; only a `HALT`
has no line.  Every statement that declares no label is made in this way, of its name and the tokens
of its operands, and of nothing else. -/
theorem made_of_name_and_tokens :
    (∀ kind ts, (ofTokens? kind ts).isSome ↔
      ∃ m, kind = .mnemonic m ∧ List.Forall₂ Demand.Met m.demands ts) ∧
    (∀ kind ts s, ofTokens? kind ts = some s →
      s.mnemonic?.map .mnemonic = some kind ∧ s.tokens = ts ∧
      List.Forall₂ WrittenAs s.operands ts ∧
      s.line? = ts.head?.map Token.line ∧ (s.line? = none ↔ kind = .mnemonic .halt)) ∧
    (∀ s : Statement, s.label? = none →
      ∃ m, s.mnemonic? = some m ∧ ofTokens? (.mnemonic m) s.tokens = some s) ∧
    (∀ kind ts kind' ts' s, ofTokens? kind ts = some s → ofTokens? kind' ts' = some s →
      kind = kind' ∧ ts = ts') := by
  refine ⟨fun kind ts => ofTokens?_isSome_iff, ?_, ?_, ?_⟩
  · intro kind ts s h
    obtain ⟨i, rfl, rfl, rfl⟩ := ofTokens?_eq_some_iff.1 h
    refine ⟨rfl, rfl, forall₂_writtenAs _, rfl, ?_⟩
    rw [line?_instruction_eq_none_iff, Token.Kind.mnemonic.injEq]
  · intro s hlabel
    cases s with
    | instruction i => exact ⟨i.mnemonic, rfl, ofTokens?_eq_some_iff.2 ⟨i, rfl, rfl, rfl⟩⟩
    | label l => cases hlabel
  · intro kind ts kind' ts' s h h'
    obtain ⟨i, rfl, rfl, rfl⟩ := ofTokens?_eq_some_iff.1 h
    obtain ⟨j, hj, rfl, rfl⟩ := ofTokens?_eq_some_iff.1 h'
    cases hj
    exact ⟨rfl, rfl⟩

/-- A `MOV` on the third line.  Without the number of its value it is no statement. -/
theorem made_of_name_and_tokens_move :
    let register : Token := ⟨.register, "r1", some (.integer 1), 3, ⟨6, 8⟩⟩
    let five : Token := ⟨.immediate, "#5", some (.integer 5), 3, ⟨10, 12⟩⟩
    let bare : Token := ⟨.immediate, "#", none, 3, ⟨10, 11⟩⟩
    (∃ s, ofTokens? (.mnemonic .mov) [register, five] = some s ∧
      s.mnemonic?.map Token.Kind.mnemonic = some (.mnemonic .mov) ∧ s.tokens = [register, five] ∧
      s.line? = some 3 ∧ s.label? = none ∧
      (∃ m, s.mnemonic? = some m ∧ ofTokens? (.mnemonic m) s.tokens = some s) ∧
      ∀ kind ts, ofTokens? kind ts = some s → .mnemonic .mov = kind ∧ [register, five] = ts) ∧
    ¬ (ofTokens? (.mnemonic .mov) [register, bare]).isSome := by
  intro register five bare
  obtain ⟨hmade, hparts, hagain, hunique⟩ := made_of_name_and_tokens
  have hregister : (Demand.number .register).Met register := ⟨rfl, 1, rfl⟩
  have hfive : Demand.flexible.Met five := ⟨.inr rfl, 5, rfl⟩
  have hmov : (ofTokens? (.mnemonic .mov) [register, five]).isSome :=
    (hmade _ _).2 ⟨.mov, rfl, .cons hregister (.cons hfive .nil)⟩
  obtain ⟨s, hs⟩ := Option.isSome_iff_exists.1 hmov
  obtain ⟨hname, htokens, -, hline, -⟩ := hparts _ _ _ hs
  have hlabel : s.label? = none := by
    cases s with
    | instruction i => rfl
    | label l => cases hname
  refine ⟨⟨s, hs, hname, htokens, hline, hlabel, hagain s hlabel,
    fun kind ts h => hunique _ _ kind ts s hs h⟩, fun hbare => ?_⟩
  obtain ⟨m, hm, hmet⟩ := (hmade _ _).1 hbare
  cases hm
  obtain _ | ⟨-, _ | ⟨⟨-, n, hn⟩, -⟩⟩ := hmet
  cases hn

end Statement

end AqaAssembly
