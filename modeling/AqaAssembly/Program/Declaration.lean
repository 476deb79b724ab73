import AqaAssembly.Grammar.Basic
import AqaAssembly.Program.SyntaxError
import AqaAssembly.Statement

/-!
# Reading one declaration

A declaration is a label with its colon, or an instruction: a mnemonic that the grammar knows and
the tokens that its slots ask for.  Commas only separate; the other tokens are the operands of the
instruction.

When a declaration cannot be read, the token at which reading stopped is given up, and after it
every token that could only continue a statement.  What follows may begin the next declaration.
Whatever happens, at least one token is used up (`Attempt.length_next_lt`).

The functions work on the tokens in front of the end of a program; `final` is the token that stands
for that end, at which an error is reported when the tokens run out.
-/

namespace AqaAssembly

/-- What became of the slots of an instruction. -/
inductive Filling
  /-- Every slot found its token.  The operands are the tokens other than commas. -/
  | complete (operands rest : List Token)
  /-- The slot did not find its token at the beginning of `rest`. -/
  | missing (slot : Slot) (rest : List Token)

namespace Filling

/-- One more token in front of the operands. -/
def addOperand (t : Token) : Filling → Filling
  | complete operands rest => complete (t :: operands) rest
  | missing slot rest => missing slot rest

/-- Gives the tokens to the slots, one each. -/
def ofTokens : List Slot → List Token → Filling
  | [], ts => complete [] ts
  | slot :: _, [] => missing slot []
  | slot :: slots, t :: ts =>
    if slot.admits t.kind then
      if slot.kind = .comma then ofTokens slots ts else (ofTokens slots ts).addOperand t
    else missing slot (t :: ts)

/-- The tokens that were not given to a slot. -/
def rest : Filling → List Token
  | complete _ rest => rest
  | missing _ rest => rest

@[simp] theorem rest_addOperand (t : Token) (f : Filling) : (f.addOperand t).rest = f.rest := by
  cases f <;> rfl

theorem length_rest_le (slots : List Slot) (ts : List Token) :
    (ofTokens slots ts).rest.length ≤ ts.length := by
  fun_induction ofTokens slots ts with
  | case1 => exact Nat.le_refl _
  | case2 => exact Nat.le_refl _
  | case3 slot slots t ts _ _ ih => exact Nat.le_succ_of_le ih
  | case4 slot slots t ts _ _ ih =>
    rw [rest_addOperand]
    exact Nat.le_succ_of_le ih
  | case5 => exact Nat.le_refl _

end Filling

/-- What became of the attempt to read a declaration. -/
inductive Attempt
  /-- It was read, and `rest` follows it. -/
  | read (statement : Statement) (rest : List Token)
  /-- It was not; reading stopped in front of `rest`. -/
  | failed (error : SyntaxError) (rest : List Token)

namespace Attempt

/-- Can a token of this kind only continue a statement, and never begin one? -/
def onlyContinues : Token.Kind → Bool
  | .register | .immediate | .address | .operand | .colon | .comma => true
  | .identifier | .mnemonic _ | .endOfText => false

/-- Where reading goes on after it has stopped in front of some tokens. -/
def recover (ts : List Token) : List Token :=
  (ts.drop 1).dropWhile fun t => onlyContinues t.kind

/-- The statement or the error. -/
def outcome : Attempt → Except SyntaxError Statement
  | read statement _ => .ok statement
  | failed error _ => .error error

/-- Where the next declaration is looked for. -/
def next : Attempt → List Token
  | read _ rest => rest
  | failed _ rest => recover rest

/-- The failure to read on in front of `rest`. -/
def stop (final : Token) (cause : SyntaxError.Cause) (message : String) (rest : List Token) :
    Attempt :=
  failed ⟨cause, rest.headD final, message⟩ rest

/-- Reads the declaration of a label after the label itself. -/
def ofLabel (final : Token) (l : Operand.Label) : List Token → Attempt
  | t :: ts =>
    if t.kind = .colon then read (.label l) ts
    else stop final .expectedColon "Expect colon after label identifier" (t :: ts)
  | [] => stop final .expectedColon "Expect colon after label identifier" []

/-- Reads an instruction after its mnemonic, which is given with its token. -/
def ofMnemonic (final : Token) (m : Mnemonic) (t : Token) (slots : List Slot) (ts : List Token) :
    Attempt :=
  match Filling.ofTokens slots ts with
  | .missing slot rest => stop final (.expectedSlot slot.kind) slot.message rest
  | .complete operands rest =>
    match Instruction.ofTokens? m operands with
    | some i => read (.instruction i) rest
    | none => failed ⟨.unfitRule (.mnemonic m), t, "malformed syntax table entry"⟩ rest

/-- Reads the declaration at the beginning of `t :: ts`. -/
def ofTokens (g : Grammar) (final t : Token) (ts : List Token) : Attempt :=
  match Operand.Label.ofToken? t, t.kind with
  | some l, _ => ofLabel final l ts
  | none, .mnemonic m =>
    match g.slots? m with
    | some slots => ofMnemonic final m t slots ts
    | none => stop final .unexpectedToken "Unexpected token" (t :: ts)
  | none, _ => stop final .unexpectedToken "Unexpected token" (t :: ts)

/-! ## How a declaration begins -/

theorem ofTokens_of_identifier (g : Grammar) (final : Token) {t : Token} (ts : List Token)
    (ht : t.kind = .identifier) : ofTokens g final t ts = ofLabel final ⟨t, ht⟩ ts := by
  simp only [ofTokens, Operand.Label.ofToken?, dif_pos ht]

theorem ofTokens_of_mnemonic (g : Grammar) (final : Token) {t : Token} {m : Mnemonic}
    (ts : List Token) (ht : t.kind = .mnemonic m) :
    ofTokens g final t ts =
      match g.slots? m with
      | some slots => ofMnemonic final m t slots ts
      | none => stop final .unexpectedToken "Unexpected token" (t :: ts) := by
  have hlabel : Operand.Label.ofToken? t = none := by simp [Operand.Label.ofToken?, ht]
  simp only [ofTokens, hlabel, ht]

theorem ofTokens_of_ne (g : Grammar) (final : Token) {t : Token} (ts : List Token)
    (ht : t.kind ≠ .identifier) (hm : t.kind.mnemonic? = none) :
    ofTokens g final t ts = stop final .unexpectedToken "Unexpected token" (t :: ts) := by
  unfold ofTokens
  split
  · rename_i l hl
    simp [Operand.Label.ofToken?, ht] at hl
  · rename_i hkind
    rw [hkind] at hm
    cases hm
  · rfl

/-! ## Something is always used up -/

theorem length_recover_le (ts : List Token) : (recover ts).length ≤ ts.length - 1 := by
  simpa [recover] using
    ((ts.drop 1).dropWhile_sublist fun t => onlyContinues t.kind).length_le

theorem length_recover_lt {rest ts : List Token} {t : Token}
    (h : rest.length ≤ (t :: ts).length) : (recover rest).length < (t :: ts).length := by
  have := length_recover_le rest
  simp only [List.length_cons] at h ⊢
  omega

theorem length_next_ofLabel_lt (final t : Token) (l : Operand.Label) (ts : List Token) :
    (ofLabel final l ts).next.length < (t :: ts).length := by
  unfold ofLabel
  split
  · split
    · exact Nat.lt_succ_of_lt (Nat.lt_succ_self _)
    · exact length_recover_lt (Nat.le_succ _)
  · exact length_recover_lt (Nat.zero_le _)

theorem length_next_ofMnemonic_lt (final : Token) (m : Mnemonic) (t : Token) (slots : List Slot)
    (ts : List Token) : (ofMnemonic final m t slots ts).next.length < (t :: ts).length := by
  have h := Filling.length_rest_le slots ts
  unfold ofMnemonic
  split
  · rename_i slot rest hf
    rw [hf] at h
    exact length_recover_lt (Nat.le_succ_of_le h)
  · rename_i operands rest hf
    rw [hf] at h
    split
    · exact Nat.lt_succ_of_le h
    · exact length_recover_lt (Nat.le_succ_of_le h)

/-- Reading or failing to read a declaration uses up at least one token. -/
theorem length_next_lt (g : Grammar) (final t : Token) (ts : List Token) :
    (ofTokens g final t ts).next.length < (t :: ts).length := by
  unfold ofTokens
  split
  · exact length_next_ofLabel_lt ..
  · split
    · exact length_next_ofMnemonic_lt ..
    · exact length_recover_lt (Nat.le_refl _)
  · exact length_recover_lt (Nat.le_refl _)

end Attempt

end AqaAssembly
