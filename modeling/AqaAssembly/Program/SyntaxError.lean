import AqaAssembly.Decimal
import AqaAssembly.Diagnostic
import AqaAssembly.Text.Quoted
import AqaAssembly.Token

/-!
# Syntax errors

What can be wrong with the order of the words of a program.  Each error names the token at which
reading stopped.
-/

namespace AqaAssembly

namespace SyntaxError

/-- Why the tokens make no statement. -/
inductive Cause
  /-- No statement begins with the token. -/
  | unexpectedToken
  /-- A label was named and no colon follows. -/
  | expectedColon
  /-- The token is not of the kind that the grammar asks for here. -/
  | expectedSlot (kind : Token.Kind)
  /-- What the grammar asks for is not what the instruction takes. -/
  | unfitRule (kind : Token.Kind)
  deriving DecidableEq, Repr

end SyntaxError

/-- A place where the tokens of a program make no statement. -/
structure SyntaxError where
  /-- Why they make none. -/
  cause : SyntaxError.Cause
  /-- The token at fault. -/
  token : Token
  /-- What to say about it. -/
  message : String
  deriving DecidableEq

namespace SyntaxError

/-- The error in one line. -/
def text (e : SyntaxError) : String :=
  "[line " ++ Decimal.textNat e.token.line ++ "] " ++ e.message ++
    if e.token.kind = .endOfText then " at end of file" else " at " ++ Text.quote e.token.lexeme

/-- How to mend the error. -/
def advice (e : SyntaxError) : String :=
  match e.cause with
  | .unexpectedToken => "a statement starts with an instruction mnemonic or a label identifier"
  | .expectedColon => "label declarations are written as `label:`"
  | .expectedSlot .operand =>
    "operand 2 is a register (e.g., r1) or an immediate value (e.g., #1)"
  | .expectedSlot kind =>
    "expected " ++ kind.description ++ ", found " ++ e.token.kind.description
  | .unfitRule kind =>
    "the syntax table entry for " ++ kind.description ++ " does not match the operands of " ++
      kind.description

instance : Diagnostic SyntaxError where
  message := text
  line? e := some e.token.line
  help? e := some e.advice

end SyntaxError

end AqaAssembly
