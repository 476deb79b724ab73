import AqaAssembly.Grammar.Named
import AqaAssembly.Json.Value

/-!
# Written grammars

A grammar is written as an object that maps the name of each instruction to the list of its slots:

    "B": [ { "kind": "Identifier", "error": "Expect label identifier after B" } ]

A slot may also be written as the array of its two fields, and its kind as an object whose only
member has the name of the kind and no value.
-/

namespace AqaAssembly

namespace Grammar

open Json Json.Reader

/-! ## Reading -/

/-- The kind with the name that was read. -/
def kindNamed (name : String) : Reader Token.Kind :=
  match Token.Kind.ofName? name with
  | some kind => return kind
  | none => fail .mismatched

/-- A kind of token. -/
def readKind : Reader Token.Kind := do
  match ← ahead with
  | '"' => do
    skip
    kindNamed (← stringRest)
  | '\x7b' => do
    skip
    let kind ← kindNamed (← string)
    colon
    null
    if (← ahead) = '\x7d' then skip else fail .malformed
    return kind
  | _ => fail .malformed

/-- A slot written as an array. -/
def readSlotArray : Reader Slot := do
  let some kind ← element? true readKind | fail .mismatched
  let some message ← element? false string | fail .mismatched
  return ⟨kind, message⟩

/-- A slot written as an object. -/
def readSlotObject : Reader Slot := do
  let (kind?, message?) ← members (fun (kind?, message?) name => do
    match name with
    | "kind" => return (← once kind? readKind, message?)
    | "error" => return (kind?, ← once message? string)
    | _ => do ignored; return (kind?, message?)) (none, none)
  match kind?, message? with
  | some kind, some message => return ⟨kind, message⟩
  | _, _ => fail .mismatched

/-- A slot. -/
def readSlot : Reader Slot := record readSlotArray readSlotObject

/-- The slots of each instruction. -/
def readEntries : Reader (List Entry) := entries (array readSlot)

/-- Why a written grammar cannot be used. -/
inductive WrittenError
  /-- The text cannot be read. -/
  | unreadable (failure : Failure)
  /-- The rules make no grammar. -/
  | unusable (problem : Problem)
  deriving DecidableEq, Repr

/-- The grammar that a text describes. -/
def read (text : String) : Except WrittenError Grammar :=
  match readEntries.run text with
  | .error failure => .error (.unreadable failure)
  | .ok entries => (ofEntries entries).mapError .unusable

/-! ## Telling what is wrong -/

/-- What is wrong with a grammar, in words. -/
def Problem.message : Problem → String
  | unknownInstruction name =>
    "syntax table entry " ++ Text.quote name ++ " is not an instruction mnemonic"
  | endOfTextSlot m =>
    "syntax table entry " ++ m.name ++ " cannot expect " ++
      Token.Kind.description .endOfText

/-- How to mend a grammar. -/
def Problem.advice : Problem → String
  | unknownInstruction _ => "mnemonics are upper case (e.g., ADD, HALT)"
  | endOfTextSlot _ => "the end of file cannot be an operand"

instance : Diagnostic Problem where
  message := Problem.message
  line? _ := none
  help? e := some e.advice

instance : Diagnostic WrittenError where
  message
    | .unreadable _ => "could not read syntax table: " ++ Failure.mention
    | .unusable problem => problem.message
  line?
    | .unreadable failure => some failure.line
    | .unusable problem => Diagnostic.line? problem
  help?
    | .unreadable _ =>
      some "the table should map each mnemonic to a list of \x7b\"kind\", \"error\"\x7d objects"
    | .unusable problem => some problem.advice

end Grammar

end AqaAssembly
