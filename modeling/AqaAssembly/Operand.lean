import AqaAssembly.Decimal
import AqaAssembly.Numeral

/-!
# Operands

What an instruction works on.  Every operand keeps the token that it was written as, so that a fault
during execution can point back at the source; its value is the value of that token, by
construction.

A register operand is only well formed as a token.  Whether the machine has that register, or that
memory cell, is for the machine to say.

An operand is determined by its token: reading the token of an operand gives the operand back
(`Number.ofToken?_token`, `Flexible.ofToken?_token`, `Label.ofToken?_token`).
-/

namespace AqaAssembly

namespace Operand

/-- An operand written as a numeral of the given form. -/
structure Number (form : Numeral) where
  /-- The number. -/
  value : Int64
  /-- The token it was written as. -/
  token : Token
  kind_token : token.kind = form.kind
  integer?_token : token.integer? = some value
  deriving DecidableEq

/-- A register, by its number: the value of `r3` is 3. -/
abbrev Register := Number .register

/-- A memory cell, by its address. -/
abbrev Address := Number .address

/-- A value written out in the program. -/
abbrev Immediate := Number .immediate

/-- The flexible last operand of most instructions: a value written out, or a register that holds
it. -/
inductive Flexible
  | immediate (i : Immediate)
  | register (r : Register)
  deriving DecidableEq

/-- The name of a place in the program, where the place is declared or where it is branched to. -/
structure Label where
  /-- The token it was written as. -/
  token : Token
  kind_token : token.kind = .identifier
  deriving DecidableEq

/-! ## Reading operands -/

/-- The operand of the given form that a token stands for. -/
def Number.ofToken? {form : Numeral} (t : Token) : Option (Number form) :=
  if hk : t.kind = form.kind then
    match hn : t.integer? with
    | some n => some ⟨n, t, hk, hn⟩
    | none => none
  else none

/-- The flexible operand that a token stands for. -/
def Flexible.ofToken? (t : Token) : Option Flexible :=
  if t.kind = .immediate then (Number.ofToken? t).map .immediate
  else (Number.ofToken? t).map .register

/-- The label that a token names. -/
def Label.ofToken? (t : Token) : Option Label :=
  if h : t.kind = .identifier then some ⟨t, h⟩ else none

/-! ## Writing operands -/

/-- The operand as it is written in a program, with no leading zeros. -/
def Number.text {form : Numeral} (x : Number form) : String :=
  String.ofList form.mark ++ Decimal.text x.value.toInt

/-- The operand with the given value, written as it would be at the beginning of a text. -/
def Number.ofValue (form : Numeral) (value : Int64) : Number form where
  value := value
  token :=
    let text := String.ofList form.mark ++ Decimal.text value.toInt
    ⟨form.kind, text, some (.integer value), 1, ⟨0, text.utf8ByteSize⟩⟩
  kind_token := rfl
  integer?_token := rfl

/-- The token that the operand was written as. -/
def Flexible.token : Flexible → Token
  | immediate i => i.token
  | register r => r.token

/-- The operand as it is written in a program. -/
def Flexible.text : Flexible → String
  | immediate i => i.text
  | register r => r.text

/-- The name of the label: the letters of its token, or failing those its text. -/
def Label.name (l : Label) : String := l.token.name?.getD l.token.lexeme

end Operand

/-- An operand of any sort. -/
inductive Operand
  | number {form : Numeral} (x : Operand.Number form)
  | label (l : Operand.Label)

namespace Operand

/-- The token that the operand was written as. -/
def token : Operand → Token
  | number x => x.token
  | label l => l.token

/-- The operand as it is written in a program. -/
def text : Operand → String
  | number x => x.text
  | label l => l.name

/-- The register or the written value that a flexible operand is. -/
def Flexible.toOperand : Flexible → Operand
  | immediate i => .number i
  | register r => .number r

@[simp] theorem token_number {form : Numeral} (x : Number form) : (number x).token = x.token := rfl

@[simp] theorem token_label (l : Label) : (label l).token = l.token := rfl

@[simp] theorem text_number {form : Numeral} (x : Number form) : (number x).text = x.text := rfl

@[simp] theorem text_label (l : Label) : (label l).text = l.name := rfl

@[simp] theorem token_toOperand (f : Flexible) : f.toOperand.token = f.token := by cases f <;> rfl

@[simp] theorem text_toOperand (f : Flexible) : f.toOperand.text = f.text := by cases f <;> rfl

/-! ## An operand is its token -/

theorem Number.ofToken?_eq_some_iff {form : Numeral} {t : Token} {x : Number form} :
    Number.ofToken? t = some x ↔ x.token = t := by
  unfold Number.ofToken?
  constructor
  · intro h
    split at h
    · split at h <;> cases h
      rfl
    · cases h
  · rintro rfl
    rw [dif_pos x.kind_token]
    have hx := x.integer?_token
    split
    · rename_i n hn
      rw [hx] at hn
      cases hn
      rfl
    · rename_i hn
      simp [hx] at hn

@[simp] theorem Number.ofToken?_token {form : Numeral} (x : Number form) :
    Number.ofToken? x.token = some x :=
  Number.ofToken?_eq_some_iff.2 rfl

@[simp] theorem Flexible.ofToken?_token (f : Flexible) : Flexible.ofToken? f.token = some f := by
  cases f with
  | immediate i => simp [Flexible.ofToken?, Flexible.token, i.kind_token, Numeral.kind]
  | register r => simp [Flexible.ofToken?, Flexible.token, r.kind_token, Numeral.kind]

theorem Flexible.ofToken?_eq_some_iff {t : Token} {f : Flexible} :
    Flexible.ofToken? t = some f ↔ f.token = t := by
  constructor
  · intro h
    unfold Flexible.ofToken? at h
    split at h
    · obtain ⟨i, hi, rfl⟩ := Option.map_eq_some_iff.1 h
      exact Number.ofToken?_eq_some_iff.1 hi
    · obtain ⟨r, hr, rfl⟩ := Option.map_eq_some_iff.1 h
      exact Number.ofToken?_eq_some_iff.1 hr
  · rintro rfl
    exact Flexible.ofToken?_token f

@[simp] theorem Label.ofToken?_token (l : Label) : Label.ofToken? l.token = some l := by
  simp [Label.ofToken?, l.kind_token]

theorem Label.ofToken?_eq_some_iff {t : Token} {l : Label} :
    Label.ofToken? t = some l ↔ l.token = t := by
  constructor
  · intro h
    unfold Label.ofToken? at h
    split at h
    · cases h
      rfl
    · cases h
  · rintro rfl
    exact Label.ofToken?_token l

end Operand

end AqaAssembly
