import AqaAssembly.Decimal
import AqaAssembly.Diagnostic
import AqaAssembly.Text.Quoted

/-!
# Lexical errors

What can be wrong with the words of a source text.  Each error names the line it stands on and the
piece of text at fault.
-/

namespace AqaAssembly

namespace LexicalError

/-- What is wrong with a piece of source text. -/
inductive Cause
  /-- The source has no characters at all. -/
  | emptySource
  /-- A numeral is wrong. -/
  | numeral (problem : Decimal.Problem)
  /-- The character begins no word. -/
  | unexpectedCharacter
  deriving DecidableEq, Repr

/-- The cause in words. -/
def Cause.description : Cause → String
  | emptySource => "source is empty"
  | numeral .empty => "invalid integer format"
  | numeral .notADigit => "invalid integer format"
  | numeral .tooLarge => "integer is too large"
  | unexpectedCharacter => "unexpected character"

/-- What to do about it. -/
def Cause.advice : Cause → String
  | emptySource => "write at least one instruction, such as HALT"
  | numeral .empty => "there should be digits (0-9) here"
  | numeral .notADigit => "an integer only consists of digits 0-9"
  | numeral .tooLarge =>
    "integers are limited to at most " ++ Decimal.textNat Decimal.maxValue
  | unexpectedCharacter => "this character does not occur in any token of AQA assembly"

end LexicalError

/-- A piece of source text that makes no word. -/
structure LexicalError where
  /-- What is wrong. -/
  cause : LexicalError.Cause
  /-- The line it stands on, counted from 1. -/
  line : Nat
  /-- The piece of text at fault. -/
  text : String
  deriving DecidableEq, Repr

namespace LexicalError

/-- The error in one line.  An empty source has no text to quote. -/
def message (e : LexicalError) : String :=
  "[line " ++ Decimal.textNat e.line ++ "] " ++ e.cause.description ++
    if e.cause = .emptySource then "" else " at " ++ Text.quote e.text

instance : Diagnostic LexicalError where
  message := message
  line? e := some e.line
  help? e := some e.cause.advice

end LexicalError

end AqaAssembly
