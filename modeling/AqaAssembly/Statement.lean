import AqaAssembly.Instruction

/-!
# Statements

A program is a list of statements, and a statement is an instruction or the declaration of a label.
Declarations keep their places in the program: a branch to a label goes to its declaration, and
executing a declaration does nothing.
-/

namespace AqaAssembly

/-- A statement of a program. -/
inductive Statement
  /-- Something to execute. -/
  | instruction (i : Instruction)
  /-- A place to branch to. -/
  | label (l : Operand.Label)
  deriving DecidableEq

/-- A program is a list of statements. -/
abbrev Program := List Statement

namespace Statement

/-- The name of the instruction, if the statement is one. -/
def mnemonic? : Statement → Option Mnemonic
  | instruction i => some i.mnemonic
  | label _ => none

/-- The label that the statement declares, if it declares one. -/
def label? : Statement → Option Operand.Label
  | instruction _ => none
  | label l => some l

/-- The operands of an instruction, or the label that is declared. -/
def operands : Statement → List Operand
  | instruction i => i.operands
  | label l => [.label l]

/-- The tokens of the operands. -/
def tokens (s : Statement) : List Token := s.operands.map Operand.token

/-- The line of the first operand.  A statement without operands does not know its line. -/
def line? (s : Statement) : Option Nat := s.tokens.head?.map Token.line

/-- The statement as it is written in a program. -/
def text : Statement → String
  | instruction i => i.text
  | label l => l.name ++ ":"

end Statement

end AqaAssembly
