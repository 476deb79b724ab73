/-!
# Reading JSON: the cursor

Grammars and machine configurations are written in JSON.  Such a text is read from left to right in
one pass: the reader knows at every place what it expects there, and the first thing that is wrong
ends the reading, be it the form of the text or its meaning.

A failure has one of three categories and tells the line on which reading stopped.  A line end counts
once it has been passed.
-/

namespace AqaAssembly.Json

/-- The ways in which reading fails. -/
inductive Category
  /-- The text ends too early. -/
  | incomplete
  /-- The text is not JSON. -/
  | malformed
  /-- The text may be JSON but it is not what is asked for. -/
  | mismatched
  deriving DecidableEq, Repr

/-- Where and how reading failed. -/
structure Failure where
  category : Category
  /-- The line on which reading stopped, counted from 1. -/
  line : Nat
  deriving DecidableEq, Repr

/-- How messages mention a text that cannot be read.  What is wrong with it is told by the category
and the line of the failure. -/
def Failure.mention : String := "<json>"

/-- A place in a text: the characters that follow it and the line that it is on. -/
structure Cursor where
  rest : List Char
  line : Nat
  deriving DecidableEq, Repr

/-- The place in front of a text. -/
def Cursor.start (text : String) : Cursor := ⟨text.toList, 1⟩

/-- The place behind the next character. -/
def Cursor.advance : Cursor → Cursor
  | ⟨[], line⟩ => ⟨[], line⟩
  | ⟨c :: rest, line⟩ => ⟨rest, if c = '\n' then line + 1 else line⟩

/-- A computation that reads on from a place. -/
abbrev Reader := StateT Cursor (Except Failure)

namespace Reader

variable {α σ : Type}

/-- Fails at the present place. -/
def fail (category : Category) : Reader α := do throw ⟨category, (← get).line⟩

/-- The next character. -/
def peek? : Reader (Option Char) := do return (← get).rest.head?

/-- Passes the next character. -/
def skip : Reader Unit := modify Cursor.advance

/-- Passes the next character and gives it. -/
def next? : Reader (Option Char) := do
  let c ← peek?
  skip
  return c

/-- Fails as if the next character had been passed. -/
def failPast (category : Category) : Reader α := do
  skip
  fail category

/-- May the character stand between the parts of a JSON text? -/
def isBlank (c : Char) : Bool := c = ' ' || c = '\n' || c = '\t' || c = '\r'

/-- The place behind any blanks. -/
def skipBlanks (rest : List Char) (line : Nat) : Cursor :=
  match rest with
  | [] => ⟨[], line⟩
  | c :: cs =>
    if isBlank c then skipBlanks cs (if c = '\n' then line + 1 else line) else ⟨c :: cs, line⟩

/-- The next character that is no blank. -/
def ahead? : Reader (Option Char) := do
  modify fun c => skipBlanks c.rest c.line
  peek?

/-- The next character that is no blank; there has to be one. -/
def ahead : Reader Char := do
  match ← ahead? with
  | some c => return c
  | none => fail .incomplete

/-- Repeats a round of reading, at most so many times, until it gives a result. -/
def rounds (round : σ → Reader (σ ⊕ α)) : Nat → σ → Cursor → Except Failure (α × Cursor)
  | 0, _, place => .error ⟨.malformed, place.line⟩
  | n + 1, s, place =>
    match round s place with
    | .error e => .error e
    | .ok (.inr a, there) => .ok (a, there)
    | .ok (.inl s, there) => rounds round n s there

/-- Repeats a round of reading until it gives a result.  Every round has to use up a character, so
there are no more of them than characters. -/
def loop (round : σ → Reader (σ ⊕ α)) (s : σ) : Reader α := fun place =>
  rounds round (place.rest.length + 1) s place

/-- Nothing but blanks may follow. -/
def finish : Reader Unit := do
  if (← ahead?).isSome then fail .malformed

/-- Reads a whole text. -/
def run (reader : Reader α) (text : String) : Except Failure α :=
  (do let a ← reader; finish; return a : Reader α).run' (Cursor.start text)

end Reader

end AqaAssembly.Json
