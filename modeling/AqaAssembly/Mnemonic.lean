/-!
# Mnemonics

The names of the instructions.  A mnemonic is written in capitals: `ADD` names an instruction and
`add` does not.  A name stands for at most one instruction, and reading a name undoes writing it
(`ofName?_eq_some_iff`).
-/

namespace AqaAssembly

/-- The instructions of the machine, by name. -/
inductive Mnemonic
  | ldr | str | add | sub | mov | cmp | b | beq | bne | bgt | blt | and | orr | eor | mvn | lsl
  | lsr | halt
  deriving DecidableEq, Repr

namespace Mnemonic

/-- How the mnemonic is written. -/
def name : Mnemonic → String
  | ldr => "LDR"
  | str => "STR"
  | add => "ADD"
  | sub => "SUB"
  | mov => "MOV"
  | cmp => "CMP"
  | b => "B"
  | beq => "BEQ"
  | bne => "BNE"
  | bgt => "BGT"
  | blt => "BLT"
  | and => "AND"
  | orr => "ORR"
  | eor => "EOR"
  | mvn => "MVN"
  | lsl => "LSL"
  | lsr => "LSR"
  | halt => "HALT"

/-- All mnemonics, in the order in which tables of them are listed. -/
def all : List Mnemonic :=
  [ldr, str, add, sub, mov, cmp, b, beq, bne, bgt, blt, and, orr, eor, mvn, lsl, lsr, halt]

/-- The mnemonic with the given name. -/
def ofName? (name : String) : Option Mnemonic := all.find? (·.name == name)

@[simp] theorem mem_all (m : Mnemonic) : m ∈ all := by cases m <;> decide

theorem name_injective {m n : Mnemonic} (h : m.name = n.name) : m = n := by
  revert h
  cases m <;> cases n <;> decide

@[simp] theorem ofName?_name (m : Mnemonic) : ofName? m.name = some m := by cases m <;> decide

theorem ofName?_eq_some_iff {s : String} {m : Mnemonic} : ofName? s = some m ↔ m.name = s := by
  constructor
  · intro h
    simpa using List.find?_some h
  · rintro rfl
    exact ofName?_name m

end Mnemonic

end AqaAssembly
