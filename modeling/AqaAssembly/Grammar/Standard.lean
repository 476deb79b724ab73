import AqaAssembly.Grammar.Basic

/-!
# The standard grammar

How the instructions are written unless a program comes with a grammar of its own: the operands in
order, with commas between them.
-/

namespace AqaAssembly.Grammar

/-- A register and an address. -/
def transferSlots (m : Mnemonic) : List Slot :=
  [⟨.register, "Expect register after " ++ m.name⟩,
   ⟨.comma, "Expect comma after register"⟩,
   ⟨.address, "Expect direct address (memory reference) after comma"⟩]

/-- A register and a flexible operand. -/
def pairSlots (m : Mnemonic) : List Slot :=
  [⟨.register, "Expect register d after " ++ m.name⟩,
   ⟨.comma, "Expect comma after register d"⟩,
   ⟨.operand, "Expect operand 2 (register or immediate value) after comma"⟩]

/-- Two registers and a flexible operand. -/
def tripleSlots (m : Mnemonic) : List Slot :=
  [⟨.register, "Expect register d after " ++ m.name⟩,
   ⟨.comma, "Expect comma after register d"⟩,
   ⟨.register, "Expect register n after comma"⟩,
   ⟨.comma, "Expect comma after register n"⟩,
   ⟨.operand, "Expect operand 2 (register or immediate value) after comma"⟩]

/-- A label. -/
def branchSlots (m : Mnemonic) : List Slot :=
  [⟨.identifier, "Expect label identifier after " ++ m.name⟩]

/-- The slots of each instruction. -/
def standardSlots (m : Mnemonic) : List Slot :=
  match m with
  | .ldr | .str => transferSlots m
  | .mov | .cmp | .mvn => pairSlots m
  | .add | .sub | .and | .orr | .eor | .lsl | .lsr => tripleSlots m
  | .b | .beq | .bne | .bgt | .blt => branchSlots m
  | .halt => []

/-- The grammar in which every instruction is written in the usual way. -/
def standard : Grammar where
  slots? m := some (standardSlots m)
  kind_ne_endOfText m slots h := by
    cases h
    cases m <;> simp [standardSlots, transferSlots, pairSlots, tripleSlots, branchSlots]

end AqaAssembly.Grammar
