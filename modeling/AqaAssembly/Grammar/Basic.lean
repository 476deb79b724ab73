import AqaAssembly.Diagnostic
import AqaAssembly.Text.Quoted
import AqaAssembly.Token

/-!
# Grammars

How the operands of each instruction are written is not fixed: a grammar says it.  For each mnemonic
that it knows, a grammar has a list of slots, and a slot asks for one token of some kind and carries
the message for the case that it is not there.  No slot asks for the end of the text.

A grammar is made from a list of rules (`Grammar.ofRules`).  Of several rules for one instruction
the last counts, and their order matters in no other way.
-/

namespace AqaAssembly

/-- The demand for one token after a mnemonic. -/
structure Slot where
  /-- The kind that is asked for; `operand` asks for a register or an immediate value. -/
  kind : Token.Kind
  /-- What to say when the token is not there. -/
  message : String
  deriving DecidableEq, Repr

/-- Does a token of the given kind satisfy the slot? -/
def Slot.admits (slot : Slot) (kind : Token.Kind) : Bool :=
  match slot.kind with
  | .operand => kind = .register || kind = .immediate
  | k => kind = k

/-- For each instruction that is known, the tokens that follow its mnemonic. -/
structure Grammar where
  /-- The slots of an instruction, if it is known. -/
  slots? : Mnemonic → Option (List Slot)
  /-- The end of the text is never an operand. -/
  kind_ne_endOfText : ∀ m slots, slots? m = some slots → ∀ s ∈ slots, s.kind ≠ .endOfText

namespace Grammar

/-- The grammars differ only in their slots. -/
theorem ext_slots? {g h : Grammar} (eq : ∀ m, g.slots? m = h.slots? m) : g = h := by
  cases g
  cases h
  congr
  exact funext eq

/-- The instructions that the grammar knows, in order. -/
def instructions (g : Grammar) : List Mnemonic := Mnemonic.all.filter fun m => (g.slots? m).isSome

/-- The slots that follow a token of the given kind, if an instruction begins with it. -/
def slotsAfter? (g : Grammar) (kind : Token.Kind) : Option (List Slot) :=
  kind.mnemonic?.bind g.slots?

/-- Do two grammars agree on every instruction? -/
def agrees (g h : Grammar) : Bool := Mnemonic.all.all fun m => g.slots? m = h.slots? m

/-! ## Making a grammar from rules -/

/-- A rule: what follows a token of some kind. -/
abbrev Rule := Token.Kind × List Slot

/-- What is wrong with a grammar. -/
inductive Problem
  /-- The name stands for no instruction. -/
  | unknownInstruction (name : String)
  /-- A slot of the instruction asks for the end of the text. -/
  | endOfTextSlot (m : Mnemonic)
  deriving DecidableEq, Repr

/-- The slots that the last rule for a kind gives. -/
def latest? (rules : List Rule) (kind : Token.Kind) : Option (List Slot) :=
  rules.reverse.lookup kind

/-- What is wrong with the rule that counts for a kind. -/
def problemAt? (rules : List Rule) (kind : Token.Kind) : Option Problem :=
  match latest? rules kind, kind.mnemonic? with
  | none, _ => none
  | some _, none => some (.unknownInstruction kind.description)
  | some slots, some m =>
    if slots.any (·.kind = .endOfText) then some (.endOfTextSlot m) else none

/-- What is wrong with the rules.  The first kind at fault, in the order of kinds, is reported. -/
def problem? (rules : List Rule) : Option Problem := Token.Kind.all.findSome? (problemAt? rules)

theorem kind_ne_endOfText_of_problem? {rules : List Rule} (h : problem? rules = none)
    (m : Mnemonic) (slots : List Slot) (hm : latest? rules (.mnemonic m) = some slots) :
    ∀ s ∈ slots, s.kind ≠ .endOfText := by
  have hp := List.findSome?_eq_none_iff.1 h (.mnemonic m) (Token.Kind.mem_all _)
  simpa [problemAt?, hm, Token.Kind.mnemonic?] using hp

/-- The grammar with the given rules, of which the last for each instruction counts. -/
def ofRules (rules : List Rule) : Except Problem Grammar :=
  match h : problem? rules with
  | some problem => .error problem
  | none => .ok ⟨fun m => latest? rules (.mnemonic m), kind_ne_endOfText_of_problem? h⟩

end Grammar

end AqaAssembly
