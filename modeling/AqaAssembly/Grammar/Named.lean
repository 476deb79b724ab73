import AqaAssembly.Grammar.Basic

/-!
# Grammars by name

A written grammar names its instructions.  A name that stands for no instruction is reported before
anything else that may be wrong with the rules, and of several such names the least.
-/

namespace AqaAssembly.Grammar

/-- A rule under the name of its instruction. -/
abbrev Entry := String × List Slot

/-- The least of some names. -/
def leastName? : List String → Option String
  | [] => none
  | name :: names =>
    match leastName? names with
    | none => some name
    | some least => if least < name then some least else some name

/-- The names that stand for no instruction. -/
def unknownNames (entries : List Entry) : List String :=
  (entries.map Prod.fst).filter fun name => (Mnemonic.ofName? name).isNone

/-- The rules whose names stand for instructions. -/
def knownRules (entries : List Entry) : List Rule :=
  entries.filterMap fun (name, slots) => (Mnemonic.ofName? name).map fun m => (.mnemonic m, slots)

/-- The grammar with the given entries, of which the last for each name counts. -/
def ofEntries (entries : List Entry) : Except Problem Grammar :=
  match leastName? (unknownNames entries) with
  | some name => .error (.unknownInstruction name)
  | none => ofRules (knownRules entries)

end AqaAssembly.Grammar
