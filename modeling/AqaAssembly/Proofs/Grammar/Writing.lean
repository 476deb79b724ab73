import AqaAssembly.Grammar.StandardText
import AqaAssembly.Proofs.Json.Reading

/-!
# Writing grammars

A grammar can be written down as a text, with a line for each field of a slot (`Grammar.text`).  It
is read back from this text, provided that no character of a message has to be escaped in a string
(`Grammar.read_text`).
-/

namespace AqaAssembly.Grammar

open Json Json.Reader

variable {α : Type}

/-! ## Lines -/

/-- Elements one after another, with a comma on the last line of each but the last. -/
def listed (lines : String → α → List String) : List α → List String
  | [] => []
  | [a] => lines "" a
  | a :: b :: as => lines "," a ++ listed lines (b :: as)

/-- The lines of a slot, of which the last ends with the given text. -/
def slotLines (last : String) (slot : Slot) : List String :=
  ["        \x7b",
   "            \"kind\": \"" ++ slot.kind.name ++ "\",",
   "            \"error\": \"" ++ slot.message ++ "\"",
   "        \x7d" ++ last]

/-- The lines of an entry, of which the last ends with the given text. -/
def entryLines (last : String) : Entry → List String
  | (name, []) => ["    \"" ++ name ++ "\": []" ++ last]
  | (name, slot :: slots) =>
    ["    \"" ++ name ++ "\": ["] ++ listed slotLines (slot :: slots) ++ ["    ]" ++ last]

/-- The lines of a grammar with the given entries. -/
def linesOf (es : List Entry) : List String := ["\x7b"] ++ listed entryLines es ++ ["\x7d"]

/-! ## Characters -/

/-- The characters of some lines. -/
def charsOf (lines : List String) : List Char := lines.flatMap fun l => l.toList ++ ['\n']

theorem toList_textOfLines (lines : List String) : (textOfLines lines).toList = charsOf lines := by
  rw [textOfLines, String.toList_join, List.flatMap_map]
  simp [charsOf]

theorem charsOf_append (ls ms : List String) : charsOf (ls ++ ms) = charsOf ls ++ charsOf ms :=
  List.flatMap_append

/-- The end of a line, and the beginning of the next. -/
def lineBreak (indent : Nat) : List Char := '\n' :: List.replicate indent ' '

/-- The characters of a slot. -/
def slotChars (slot : Slot) : List Char :=
  '\x7b' :: (separated (memberText (lineBreak 12) fun text => ' ' :: quoted text)
    [("kind", slot.kind.name), ("error", slot.message)] ++ (lineBreak 8 ++ ['\x7d']))

theorem charsOf_slotLines (last : String) (slot : Slot) :
    '\n' :: charsOf (slotLines last slot) =
      lineBreak 8 ++ slotChars slot ++ (last.toList ++ ['\n']) := by
  simp [charsOf, slotLines, lineBreak, slotChars, separated, memberText, quoted]

theorem separated_cons_cons (part : α → List Char) (a b : α) (as : List α) :
    separated part (a :: b :: as) = part a ++ ',' :: separated part (b :: as) := rfl

/-- What stands on the lines of elements one after another. -/
theorem charsOf_listed {lines : String → α → List String} {part : α → List Char}
    (h : ∀ last a, '\n' :: charsOf (lines last a) = part a ++ (last.toList ++ ['\n'])) (a : α)
    (as : List α) :
    '\n' :: charsOf (listed lines (a :: as)) = separated part (a :: as) ++ ['\n'] := by
  induction as generalizing a with
  | nil => exact (h "" a).trans (by simp [separated])
  | cons b as ih =>
    calc '\n' :: charsOf (listed lines (a :: b :: as))
      _ = '\n' :: charsOf (lines "," a) ++ charsOf (listed lines (b :: as)) := by
        rw [listed, charsOf_append, List.cons_append]
      _ = part a ++ ',' :: '\n' :: charsOf (listed lines (b :: as)) := by
        rw [h]
        simp
      _ = part a ++ ',' :: (separated part (b :: as) ++ ['\n']) := by rw [ih]
      _ = separated part (a :: b :: as) ++ ['\n'] := by
        rw [separated_cons_cons, List.append_assoc, List.cons_append]

/-- The characters of the slots of an instruction, from behind the colon. -/
def slotsChars : List Slot → List Char
  | [] => [' ', '[', ']']
  | slot :: slots =>
    ' ' :: '[' :: (separated (fun s => lineBreak 8 ++ slotChars s) (slot :: slots) ++
      (lineBreak 4 ++ [']']))

theorem charsOf_entryLines (last : String) (e : Entry) :
    '\n' :: charsOf (entryLines last e) =
      memberText (lineBreak 4) slotsChars e ++ (last.toList ++ ['\n']) := by
  obtain ⟨name, slots⟩ := e
  cases slots with
  | nil => simp [charsOf, entryLines, lineBreak, memberText, quoted, slotsChars]
  | cons slot slots =>
    have hslots := charsOf_listed charsOf_slotLines slot slots
    calc '\n' :: charsOf (entryLines last (name, slot :: slots))
      _ = lineBreak 4 ++ quoted name ++ ':' :: ' ' :: '[' ::
          ('\n' :: charsOf (listed slotLines (slot :: slots)) ++ charsOf ["    ]" ++ last]) := by
        simp [charsOf, entryLines, lineBreak, quoted]
      _ = lineBreak 4 ++ quoted name ++ ':' :: ' ' :: '[' ::
          (separated (fun s => lineBreak 8 ++ slotChars s) (slot :: slots) ++ ['\n'] ++
            charsOf ["    ]" ++ last]) := by
        rw [hslots]
      _ = memberText (lineBreak 4) slotsChars (name, slot :: slots) ++ (last.toList ++ ['\n']) := by
        simp [charsOf, lineBreak, memberText, slotsChars]

/-- The characters of a grammar with the given entries. -/
theorem charsOf_linesOf (es : List Entry) :
    charsOf (linesOf es) =
      '\x7b' :: (separated (memberText (lineBreak 4) slotsChars) es ++ (['\n'] ++ ['\x7d'])) ++
        ['\n'] := by
  cases es with
  | nil => simp [charsOf, linesOf, listed, separated]
  | cons e es =>
    calc charsOf (linesOf (e :: es))
      _ = '\x7b' :: ('\n' :: charsOf (listed entryLines (e :: es)) ++ ['\x7d', '\n']) := by
        simp [charsOf, linesOf]
      _ = _ := by
        rw [charsOf_listed charsOf_entryLines e es]
        simp

/-! ## Reading what was written -/

theorem blank_lineBreak (indent : Nat) : Blank (lineBreak indent) := by
  intro c hc
  rcases List.mem_cons.1 hc with rfl | hc
  · decide
  · rw [List.eq_of_mem_replicate hc]
    decide

theorem plain_name (k : Token.Kind) : Plain k.name := by
  have hall : ∀ k ∈ Token.Kind.all, Plain k.name := by decide +kernel
  exact hall k (Token.Kind.mem_all k)

/-- One member of a slot. -/
def slotMember (fields : Option Token.Kind × Option String) (name : String) :
    Reader (Option Token.Kind × Option String) := do
  let (kind?, message?) := fields
  match name with
  | "kind" => return (← once kind? readKind, message?)
  | "error" => return (kind?, ← once message? string)
  | _ => do ignored; return (kind?, message?)

theorem readSlotObject_eq : readSlotObject = (do
    let (kind?, message?) ← members slotMember (none, none)
    match kind?, message? with
    | some kind, some message => return ⟨kind, message⟩
    | _, _ => fail .mismatched) := rfl

theorem reads_once {read : Reader α} {cs : List Char} {a : α} (h : Reads read cs a) :
    Reads (once none read) (':' :: cs) (some a) := by
  unfold once
  rw [if_neg (by simp)]
  exact reads_colon.bind (h.bind_nil (.pure _))

theorem blank_space : Blank [' '] := by simp [Blank, isBlank]

theorem reads_kind (k : Token.Kind) : Reads readKind (' ' :: quoted k.name) k := by
  have hname := reads_stringRest (plain_name k)
  refine .ahead blank_space isBlank_quote (.skip '"' (hname.bind_nil ?_))
  unfold kindNamed
  rw [Token.Kind.ofName?_name]
  exact .pure k

theorem plain_kind : Plain "kind" := by decide +kernel

theorem plain_error : Plain "error" := by decide +kernel

/-- A slot is read back. -/
theorem reads_slot {slot : Slot} (h : Plain slot.message) :
    Reads readSlot (slotChars slot) slot := by
  have hkind : Reads (slotMember (none, none) "kind") (':' :: ' ' :: quoted slot.kind.name)
      (some slot.kind, none) :=
    (reads_once (reads_kind slot.kind)).bind_nil (.pure _)
  have hmessage : Reads (slotMember (some slot.kind, none) "error")
      (':' :: ' ' :: quoted slot.message) (some slot.kind, some slot.message) :=
    (reads_once (reads_string blank_space h)).bind_nil (.pure _)
  have hend : Reads (loop (memberRound slotMember) (false, some slot.kind, some slot.message))
      (lineBreak 8 ++ ['\x7d']) (some slot.kind, some slot.message) :=
    reads_members_end (blank_lineBreak 8) false _
  have hrest := Reads.member (reads_next_name (blank_lineBreak 12) plain_error)
    (List.cons_ne_nil _ _) hmessage hend
  have hmembers := Reads.member (reads_first_name (blank_lineBreak 12) plain_kind)
    (List.cons_ne_nil _ _) hkind hrest
  have hfields : Reads (members slotMember (none, none))
      (separated (memberText (lineBreak 12) fun text => ' ' :: quoted text)
        [("kind", slot.kind.name), ("error", slot.message)] ++ (lineBreak 8 ++ ['\x7d']))
      (some slot.kind, some slot.message) := by
    simpa [members_eq, separated, memberText] using hmembers
  refine .ahead blank_nil (by decide) (.skip '\x7b' ?_)
  rw [readSlotObject_eq]
  exact hfields.bind_nil (.pure slot)

/-- The slots of an instruction are read back. -/
theorem reads_slots {slots : List Slot} (h : ∀ slot ∈ slots, Plain slot.message) :
    Reads (array readSlot) (slotsChars slots) slots := by
  have hpart : ∀ slot ∈ slots, IsElement readSlot (lineBreak 8 ++ slotChars slot) slot := by
    intro slot hslot
    exact ⟨lineBreak 8, '\x7b', _, rfl, blank_lineBreak 8, by decide, by decide,
      reads_slot (h slot hslot)⟩
  cases slots with
  | nil => exact reads_array hpart blank_space blank_nil
  | cons slot slots => exact reads_array hpart blank_space (blank_lineBreak 4)

/-- The text of a grammar with the given entries. -/
def text (es : List Entry) : String := textOfLines (linesOf es)

/-- The entries of a grammar are read back. -/
theorem run_readEntries_text {es : List Entry}
    (h : ∀ e ∈ es, Plain e.1 ∧ ∀ slot ∈ e.2, Plain slot.message) :
    readEntries.run (text es) = .ok es := by
  have hentries := reads_entries (fun e he => ⟨(h e he).1, reads_slots (h e he).2⟩)
    (blank_lineBreak 4) (blank_lineBreak 0)
  refine hentries.run (blank_lineBreak 0) ?_
  rw [text, toList_textOfLines, charsOf_linesOf]
  rfl

/-! ## Grammars -/

/-- The entries of a grammar, in the order of its instructions. -/
def entriesOf (g : Grammar) : List Entry :=
  Mnemonic.all.filterMap fun m => (g.slots? m).map fun slots => (m.name, slots)

/-- The rules of a grammar for some instructions. -/
def rulesOf (g : Grammar) (ms : List Mnemonic) : List Rule :=
  ms.filterMap fun m => (g.slots? m).map fun slots => (.mnemonic m, slots)

theorem mem_entriesOf {g : Grammar} {e : Entry} :
    e ∈ entriesOf g ↔ ∃ m, g.slots? m = some e.2 ∧ m.name = e.1 := by
  rw [entriesOf, List.mem_filterMap]
  constructor
  · rintro ⟨m, -, he⟩
    obtain ⟨slots, hslots, rfl⟩ := Option.map_eq_some_iff.1 he
    exact ⟨m, hslots, rfl⟩
  · rintro ⟨m, hslots, hname⟩
    refine ⟨m, Mnemonic.mem_all m, ?_⟩
    rw [hslots, Option.map_some, hname]

theorem unknownNames_entriesOf (g : Grammar) : unknownNames (entriesOf g) = [] := by
  rw [unknownNames, List.filter_eq_nil_iff]
  intro name hname
  obtain ⟨e, he, rfl⟩ := List.mem_map.1 hname
  obtain ⟨m, -, hm⟩ := mem_entriesOf.1 he
  rw [← hm, Mnemonic.ofName?_name]
  exact Bool.false_ne_true

theorem knownRules_entriesOf (g : Grammar) : knownRules (entriesOf g) = rulesOf g Mnemonic.all := by
  rw [knownRules, entriesOf, List.filterMap_filterMap, rulesOf]
  congr 1
  funext m
  cases g.slots? m with
  | none => rfl
  | some slots => simp

/-- Among the rules for some instructions are the slots of each of these, and no others. -/
theorem lookup_rulesOf (g : Grammar) (ms : List Mnemonic) (kind : Token.Kind) :
    (rulesOf g ms).lookup kind =
      kind.mnemonic?.bind fun m => if m ∈ ms then g.slots? m else none := by
  induction ms with
  | nil => simp [rulesOf]
  | cons m ms ih =>
    by_cases hkind : kind = .mnemonic m
    · subst hkind
      cases hslots : g.slots? m with
      | none =>
        rw [rulesOf, List.filterMap_cons_none (by rw [hslots]; rfl)]
        refine Eq.trans ih ?_
        simp [Token.Kind.mnemonic?, hslots]
      | some slots =>
        rw [rulesOf, List.filterMap_cons_some (by rw [hslots]; rfl), List.lookup_cons_self]
        simp [Token.Kind.mnemonic?, hslots]
    · have hother : (rulesOf g (m :: ms)).lookup kind = (rulesOf g ms).lookup kind := by
        cases hslots : g.slots? m with
        | none => rw [rulesOf, List.filterMap_cons_none (by rw [hslots]; rfl), rulesOf]
        | some slots =>
          rw [rulesOf, List.filterMap_cons_some (by rw [hslots]; rfl), List.lookup_cons,
            beq_false_of_ne hkind, rulesOf]
      rw [hother, ih]
      refine Option.bind_congr fun n hn => ?_
      have hne : n ≠ m := by
        rintro rfl
        exact hkind (Token.Kind.mnemonic?_eq_some_iff.1 hn)
      simp [hne]

theorem latest?_rulesOf (g : Grammar) (kind : Token.Kind) :
    latest? (rulesOf g Mnemonic.all) kind = g.slotsAfter? kind := by
  have hreverse : (rulesOf g Mnemonic.all).reverse = rulesOf g Mnemonic.all.reverse :=
    List.filterMap_reverse.symm
  rw [latest?, hreverse, lookup_rulesOf, slotsAfter?]
  simp

theorem problem?_rulesOf (g : Grammar) : problem? (rulesOf g Mnemonic.all) = none := by
  refine List.findSome?_eq_none_iff.2 fun kind _ => ?_
  rw [problemAt?, latest?_rulesOf, slotsAfter?]
  cases hm : kind.mnemonic? with
  | none => rfl
  | some m =>
    rw [Option.bind_some]
    cases hslots : g.slots? m with
    | none => rfl
    | some slots =>
      have hany : slots.any (·.kind = .endOfText) = false := by
        simpa using g.kind_ne_endOfText m slots hslots
      simp [hany]

theorem ofRules_of_problem? {rules : List Rule} (h : problem? rules = none) :
    ofRules rules =
      .ok ⟨fun m => latest? rules (.mnemonic m), kind_ne_endOfText_of_problem? h⟩ := by
  unfold ofRules
  split
  · rename_i problem hproblem
    rw [h] at hproblem
    cases hproblem
  · rfl

/-- A grammar is determined by its entries. -/
theorem ofEntries_entriesOf (g : Grammar) : ofEntries (entriesOf g) = .ok g := by
  rw [ofEntries, unknownNames_entriesOf, knownRules_entriesOf]
  show ofRules (rulesOf g Mnemonic.all) = _
  rw [ofRules_of_problem? (problem?_rulesOf g)]
  exact congrArg Except.ok (ext_slots? fun m => latest?_rulesOf g (.mnemonic m))

/-- A grammar that is written down is read back. -/
theorem read_text (g : Grammar)
    (h : ∀ m slots, g.slots? m = some slots → ∀ slot ∈ slots, Plain slot.message) :
    read (text (entriesOf g)) = .ok g := by
  have hplain : ∀ e ∈ entriesOf g, Plain e.1 ∧ ∀ slot ∈ e.2, Plain slot.message := by
    intro e he
    obtain ⟨m, hslots, hname⟩ := mem_entriesOf.1 he
    rw [← hname]
    exact ⟨plain_name (.mnemonic m), h m e.2 hslots⟩
  rw [read, run_readEntries_text hplain]
  show (ofEntries (entriesOf g)).mapError _ = _
  rw [ofEntries_entriesOf]
  rfl

end AqaAssembly.Grammar
