import AqaAssembly.Mnemonic

/-!
# Tokens

The words of assembly code.  A token has a kind, the text it was written as, a decoded value where
there is one, and its place: a line, counted from 1, and the range of bytes of the source that it
occupies.

The kinds are listed in a fixed order (`Token.Kind.all`): the identifier, the mnemonics, the kinds
of operand, the punctuation and the end of the text.  The kind `operand` is the kind of no token of
a source text; it stands in a grammar for "a register or an immediate value".
-/

namespace AqaAssembly

namespace Token

/-- The kinds of token. -/
inductive Kind
  /-- A name given by the author of the program: a label. -/
  | identifier
  /-- The name of an instruction. -/
  | mnemonic (m : Mnemonic)
  /-- A register, such as `r1`. -/
  | register
  /-- A value written out, such as `#10`. -/
  | immediate
  /-- A memory address, such as `100`. -/
  | address
  /-- Either a register or an immediate value. -/
  | operand
  /-- The colon after a declared label. -/
  | colon
  /-- The comma between operands. -/
  | comma
  /-- The end of the program's text. -/
  | endOfText
  deriving DecidableEq, Repr

namespace Kind

/-- All kinds in order. -/
def all : List Kind :=
  identifier :: Mnemonic.all.map mnemonic ++
    [register, immediate, address, operand, colon, comma, endOfText]

/-- The kind as messages call it. -/
def description : Kind → String
  | identifier => "identifier"
  | mnemonic m => m.name
  | register => "register"
  | immediate => "immediate value"
  | address => "direct address"
  | operand => "operand"
  | colon => "':'"
  | comma => "','"
  | endOfText => "end of file"

/-- The kind as written grammars call it. -/
def name : Kind → String
  | identifier => "Identifier"
  | mnemonic m => m.name
  | register => "Register"
  | immediate => "Immediate"
  | address => "DirectAddress"
  | operand => "Operand"
  | colon => "Colon"
  | comma => "Comma"
  | endOfText => "Eof"

/-- The kind that written grammars call by the given name. -/
def ofName? (name : String) : Option Kind := all.find? (·.name == name)

/-- The mnemonic of a kind that names an instruction. -/
def mnemonic? : Kind → Option Mnemonic
  | mnemonic m => some m
  | _ => none

theorem mnemonic?_eq_some_iff {k : Kind} {m : Mnemonic} : k.mnemonic? = some m ↔ k = mnemonic m := by
  cases k with
  | mnemonic n => rw [mnemonic?, Option.some.injEq, mnemonic.injEq]
  | _ => exact ⟨nofun, nofun⟩

@[simp] theorem mem_all (k : Kind) : k ∈ all := by cases k <;> simp [all]

@[simp] theorem ofName?_name (k : Kind) : ofName? k.name = some k := by
  cases k with
  | mnemonic m => cases m <;> decide
  | _ => decide

end Kind

/-- The decoded value of a token. -/
inductive Literal
  /-- The number of a register, an immediate value or an address. -/
  | integer (n : Int64)
  /-- The letters of an identifier or a mnemonic. -/
  | name (s : String)
  deriving DecidableEq

/-- A range of bytes of a source text: `start` belongs to it and `stop` does not. -/
structure Span where
  start : Nat
  stop : Nat
  deriving DecidableEq, Repr

end Token

/-- A word of assembly code. -/
structure Token where
  /-- What sort of word it is. -/
  kind : Token.Kind
  /-- The text it was written as. -/
  lexeme : String
  /-- Its decoded value. -/
  literal : Option Token.Literal
  /-- The line it stands on, counted from 1. -/
  line : Nat
  /-- The bytes it occupies. -/
  span : Token.Span
  deriving DecidableEq

namespace Token

/-- The number that the token stands for. -/
def integer? (t : Token) : Option Int64 :=
  match t.literal with
  | some (.integer n) => some n
  | _ => none

theorem literal_of_integer? {t : Token} {n : Int64} (h : t.integer? = some n) :
    t.literal = some (.integer n) := by
  unfold integer? at h
  split at h
  · rename_i k hk
    cases h
    exact hk
  · cases h

/-- The name that the token spells. -/
def name? (t : Token) : Option String :=
  match t.literal with
  | some (.name s) => some s
  | _ => none

/-- The token after the last word of a text. -/
def endOfText (line start : Nat) : Token := ⟨.endOfText, "", none, line, ⟨start, start⟩⟩

end Token

end AqaAssembly
