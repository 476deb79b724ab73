import AqaAssembly.Program.Declaration
import AqaAssembly.Source.Scan

/-!
# Reading a program

A program is read declaration by declaration up to the end of its text.  Errors do not stop the
reading: each declaration that cannot be read is reported and left out.

A program is only accepted when nothing is wrong with its words or their order
(`Program.ofSource`); otherwise every problem is told at once.
-/

namespace AqaAssembly

/-- The statements that could be read from a list of tokens, and the errors in between. -/
structure Reading where
  program : Program
  errors : List SyntaxError

namespace Reading

/-- The token at which a list of tokens ends: the first one that stands for the end of the text, or
else one behind the last token. -/
def finalToken (ts : List Token) : Token :=
  match ts.find? (·.kind = .endOfText), ts.getLast? with
  | some t, _ => t
  | none, some t => .endOfText t.line t.span.stop
  | none, none => .endOfText 1 0

/-- The outcome of every declaration, in order. -/
def outcomes (g : Grammar) (final : Token) : List Token → List (Except SyntaxError Statement)
  | [] => []
  | t :: ts =>
    let attempt := Attempt.ofTokens g final t ts
    attempt.outcome :: outcomes g final attempt.next
termination_by ts => ts.length
decreasing_by exact Attempt.length_next_lt g final t ts

/-- The statements among some outcomes. -/
def statements (rs : List (Except SyntaxError Statement)) : Program :=
  rs.filterMap Except.toOption

/-- The errors among some outcomes. -/
def failures (rs : List (Except SyntaxError Statement)) : List SyntaxError :=
  rs.filterMap fun | .ok _ => none | .error e => some e

/-- Reads the tokens up to the first that stands for the end of the text. -/
def ofTokens (g : Grammar) (ts : List Token) : Reading :=
  let rs := outcomes g (finalToken ts) (ts.takeWhile (·.kind ≠ .endOfText))
  ⟨statements rs, failures rs⟩

@[simp] theorem outcomes_nil (g : Grammar) (final : Token) : outcomes g final [] = [] := by
  rw [outcomes]

theorem outcomes_cons (g : Grammar) (final t : Token) (ts : List Token) :
    outcomes g final (t :: ts) =
      (Attempt.ofTokens g final t ts).outcome ::
        outcomes g final (Attempt.ofTokens g final t ts).next := by
  rw [outcomes]

end Reading

/-- Everything that is wrong with a source text before it is executed. -/
structure StaticErrors where
  /-- What is wrong with its words. -/
  lexical : List LexicalError
  /-- What is wrong with their order. -/
  syntactic : List SyntaxError
  deriving DecidableEq

namespace StaticErrors

/-- The number of errors. -/
def length (e : StaticErrors) : Nat := e.lexical.length + e.syntactic.length

/-- Is nothing wrong? -/
def isEmpty (e : StaticErrors) : Bool := e.lexical.isEmpty && e.syntactic.isEmpty

theorem isEmpty_iff {e : StaticErrors} : e.isEmpty ↔ e.lexical = [] ∧ e.syntactic = [] := by
  rw [isEmpty, Bool.and_eq_true, List.isEmpty_iff, List.isEmpty_iff]

/-- The lines of the errors. -/
def lines (e : StaticErrors) : List Nat :=
  e.lexical.map LexicalError.line ++ e.syntactic.map fun s => s.token.line

/-- The reports of the errors, those about words first. -/
def reports (e : StaticErrors) : List String :=
  Diagnostic.reports e.lexical ++ Diagnostic.reports e.syntactic

instance : Diagnostic StaticErrors where
  message e := "\n".intercalate e.reports
  line? e := e.lines.min?
  help? _ := none

end StaticErrors

/-- The program that a source text stands for, or everything that is wrong with it. -/
def Program.ofSource (g : Grammar) (source : String) : Except StaticErrors Program :=
  let reading := Reading.ofTokens g (Source.tokens source)
  let errors : StaticErrors := ⟨Source.lexicalErrors source, reading.errors⟩
  if errors.isEmpty then .ok reading.program else .error errors

end AqaAssembly
