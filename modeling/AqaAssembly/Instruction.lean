import AqaAssembly.Operand

/-!
# Instructions

The instructions of the machine with their operands.  They fall into a few families that differ
only in what is computed: five operations on two values, two shifts, and five branches.

An instruction is written as a mnemonic with a fixed list of operand tokens.  Reading those tokens
undoes taking them (`ofTokens?_tokens`).
-/

namespace AqaAssembly

open Operand

/-- The operations on two values. -/
inductive Operation
  | add | subtract | and | or | exclusiveOr
  deriving DecidableEq, Repr

/-- The directions in which a value is shifted. -/
inductive Shift
  | left | right
  deriving DecidableEq, Repr

/-- When a branch is taken: always, or by the outcome of the last comparison. -/
inductive Condition
  | always | equal | notEqual | greaterThan | lessThan
  deriving DecidableEq, Repr

/-- An instruction with its operands. -/
inductive Instruction
  /-- Copy a memory cell into a register. -/
  | load (target : Register) (source : Address)
  /-- Copy a register into a memory cell. -/
  | store (source : Register) (target : Address)
  /-- Combine two values into a register. -/
  | compute (op : Operation) (target left : Register) (right : Flexible)
  /-- Shift a register by a number of bits into a register. -/
  | shift (direction : Shift) (target value : Register) (amount : Flexible)
  /-- Copy a value into a register. -/
  | move (target : Register) (source : Flexible)
  /-- Put a value with all its bits inverted into a register. -/
  | complement (target : Register) (source : Flexible)
  /-- Compare two values and set the flags. -/
  | compare (left : Register) (right : Flexible)
  /-- Go on at a label if the condition holds. -/
  | branch (condition : Condition) (label : Label)
  /-- Stop. -/
  | halt
  deriving DecidableEq

/-! ## Names -/

/-- The name of the operation. -/
def Operation.mnemonic : Operation → Mnemonic
  | add => .add
  | subtract => .sub
  | and => .and
  | or => .orr
  | exclusiveOr => .eor

/-- The name of the shift. -/
def Shift.mnemonic : Shift → Mnemonic
  | left => .lsl
  | right => .lsr

/-- The name of the branch with the given condition. -/
def Condition.mnemonic : Condition → Mnemonic
  | always => .b
  | equal => .beq
  | notEqual => .bne
  | greaterThan => .bgt
  | lessThan => .blt

namespace Instruction

/-- The name of the instruction. -/
def mnemonic : Instruction → Mnemonic
  | load .. => .ldr
  | store .. => .str
  | compute op .. => op.mnemonic
  | shift direction .. => direction.mnemonic
  | move .. => .mov
  | complement .. => .mvn
  | compare .. => .cmp
  | branch condition _ => condition.mnemonic
  | halt => .halt

/-- The operands of the instruction, in the order in which they are written. -/
def operands : Instruction → List Operand
  | load r a => [.number r, .number a]
  | store r a => [.number r, .number a]
  | compute _ d l r => [.number d, .number l, r.toOperand]
  | shift _ d v n => [.number d, .number v, n.toOperand]
  | move d s => [.number d, s.toOperand]
  | complement d s => [.number d, s.toOperand]
  | compare l r => [.number l, r.toOperand]
  | branch _ l => [.label l]
  | halt => []

/-- The tokens of the operands. -/
def tokens (i : Instruction) : List Token := i.operands.map Operand.token

/-- The instruction as it is written in a program. -/
def text (i : Instruction) : String :=
  match i.operands with
  | [] => i.mnemonic.name
  | os => i.mnemonic.name ++ " " ++ ", ".intercalate (os.map Operand.text)

/-! ## Reading instructions -/

/-- Reads a register and an address. -/
def readTransfer (make : Register → Address → Instruction) : List Token → Option Instruction
  | [r, a] => do return make (← Number.ofToken? r) (← Number.ofToken? a)
  | _ => none

/-- Reads two registers and a flexible operand. -/
def readTriple (make : Register → Register → Flexible → Instruction) :
    List Token → Option Instruction
  | [d, l, r] => do
    return make (← Number.ofToken? d) (← Number.ofToken? l) (← Flexible.ofToken? r)
  | _ => none

/-- Reads a register and a flexible operand. -/
def readPair (make : Register → Flexible → Instruction) : List Token → Option Instruction
  | [d, s] => do return make (← Number.ofToken? d) (← Flexible.ofToken? s)
  | _ => none

/-- Reads a label. -/
def readTarget (make : Label → Instruction) : List Token → Option Instruction
  | [l] => do return make (← Label.ofToken? l)
  | _ => none

/-- The instruction of the given name with the given operand tokens, if they are as many and of the
kinds that the instruction takes. -/
def ofTokens? : Mnemonic → List Token → Option Instruction
  | .ldr => readTransfer load
  | .str => readTransfer store
  | .add => readTriple (compute .add)
  | .sub => readTriple (compute .subtract)
  | .mov => readPair move
  | .cmp => readPair compare
  | .b => readTarget (branch .always)
  | .beq => readTarget (branch .equal)
  | .bne => readTarget (branch .notEqual)
  | .bgt => readTarget (branch .greaterThan)
  | .blt => readTarget (branch .lessThan)
  | .and => readTriple (compute .and)
  | .orr => readTriple (compute .or)
  | .eor => readTriple (compute .exclusiveOr)
  | .mvn => readPair complement
  | .lsl => readTriple (shift .left)
  | .lsr => readTriple (shift .right)
  | .halt => fun ts => if ts = [] then some halt else none

/-! ## Reading undoes taking the tokens -/

theorem ofTokens?_tokens (i : Instruction) : ofTokens? i.mnemonic i.tokens = some i := by
  cases i with
  | compute op =>
    cases op <;> simp [mnemonic, Operation.mnemonic, tokens, operands, ofTokens?, readTriple]
  | shift direction =>
    cases direction <;>
      simp [mnemonic, Shift.mnemonic, tokens, operands, ofTokens?, readTriple]
  | branch condition =>
    cases condition <;>
      simp [mnemonic, Condition.mnemonic, tokens, operands, ofTokens?, readTarget]
  | _ =>
    simp [mnemonic, tokens, operands, ofTokens?, readTransfer, readPair]

/-! ## Taking the tokens undoes reading -/

theorem readTransfer_eq_some {make : Register → Address → Instruction} {ts : List Token}
    {i : Instruction} (h : readTransfer make ts = some i) :
    ∃ r a, make r a = i ∧ [r.token, a.token] = ts := by
  unfold readTransfer at h
  split at h
  · simp only [Option.bind_eq_bind, Option.bind_eq_some_iff, Option.pure_def,
      Option.some.injEq, Number.ofToken?_eq_some_iff] at h
    obtain ⟨r, rfl, a, rfl, rfl⟩ := h
    exact ⟨r, a, rfl, rfl⟩
  · cases h

theorem readTriple_eq_some {make : Register → Register → Flexible → Instruction}
    {ts : List Token} {i : Instruction} (h : readTriple make ts = some i) :
    ∃ d l r, make d l r = i ∧ [d.token, l.token, r.token] = ts := by
  unfold readTriple at h
  split at h
  · simp only [Option.bind_eq_bind, Option.bind_eq_some_iff, Option.pure_def,
      Option.some.injEq, Number.ofToken?_eq_some_iff, Flexible.ofToken?_eq_some_iff] at h
    obtain ⟨d, rfl, l, rfl, r, rfl, rfl⟩ := h
    exact ⟨d, l, r, rfl, rfl⟩
  · cases h

theorem readPair_eq_some {make : Register → Flexible → Instruction} {ts : List Token}
    {i : Instruction} (h : readPair make ts = some i) :
    ∃ d s, make d s = i ∧ [d.token, s.token] = ts := by
  unfold readPair at h
  split at h
  · simp only [Option.bind_eq_bind, Option.bind_eq_some_iff, Option.pure_def,
      Option.some.injEq, Number.ofToken?_eq_some_iff, Flexible.ofToken?_eq_some_iff] at h
    obtain ⟨d, rfl, s, rfl, rfl⟩ := h
    exact ⟨d, s, rfl, rfl⟩
  · cases h

theorem readTarget_eq_some {make : Label → Instruction} {ts : List Token} {i : Instruction}
    (h : readTarget make ts = some i) : ∃ l, make l = i ∧ [l.token] = ts := by
  unfold readTarget at h
  split at h
  · simp only [Option.bind_eq_bind, Option.bind_eq_some_iff, Option.pure_def,
      Option.some.injEq, Label.ofToken?_eq_some_iff] at h
    obtain ⟨l, rfl, rfl⟩ := h
    exact ⟨l, rfl, rfl⟩
  · cases h

/-- The instruction that is read has the name and the tokens that it was read from. -/
theorem ofTokens?_eq_some_iff {m : Mnemonic} {ts : List Token} {i : Instruction} :
    ofTokens? m ts = some i ↔ i.mnemonic = m ∧ i.tokens = ts := by
  constructor
  · intro h
    cases m with
    | ldr | str =>
      obtain ⟨r, a, rfl, rfl⟩ := readTransfer_eq_some h
      exact ⟨rfl, rfl⟩
    | add | sub | and | orr | eor | lsl | lsr =>
      obtain ⟨d, l, r, rfl, rfl⟩ := readTriple_eq_some h
      exact ⟨rfl, by simp [tokens, operands]⟩
    | mov | cmp | mvn =>
      obtain ⟨d, s, rfl, rfl⟩ := readPair_eq_some h
      exact ⟨rfl, by simp [tokens, operands]⟩
    | b | beq | bne | bgt | blt =>
      obtain ⟨l, rfl, rfl⟩ := readTarget_eq_some h
      exact ⟨rfl, rfl⟩
    | halt =>
      simp only [ofTokens?] at h
      split at h
      · rename_i hts
        cases h
        exact ⟨rfl, hts.symm⟩
      · cases h
  · rintro ⟨rfl, rfl⟩
    exact ofTokens?_tokens i

end Instruction

end AqaAssembly
