import AqaAssembly.Proofs.Grammar.Rules
import AqaAssembly.Proofs.Text.Bytes
import Mathlib.Data.List.Forall2
import Mathlib.Order.Bounds.Defs

/-!
# The entries of a grammar

A written grammar has names for keys.  The first name, byte by byte, that stands for no instruction
is reported, whatever else is wrong (`ofEntries_of_unknown`).  With no such name the entries are
rules, of which the last for each name counts (`ofEntries_of_known`).  Together with the laws of
rules these say what becomes of any list of rules and of any text that can be read
(`last_rules_decide`).
-/

namespace AqaAssembly.Grammar

variable {entries pairs : List Entry} {rules : List Rule} {name : String} {names : List String}
  {kind : Token.Kind} {slots : List Slot}

/-! ## Names of no instruction -/

/-- A name in some entries that stands for no instruction. -/
def Unknown (entries : List Entry) (name : String) : Prop :=
  (∃ slots, (name, slots) ∈ entries) ∧ ∀ m : Mnemonic, m.name ≠ name

/-- The first such name, byte by byte. -/
def FirstUnknown (entries : List Entry) (name : String) : Prop :=
  Unknown entries name ∧ ∀ other, Unknown entries other → Text.bytes name ≤ Text.bytes other

theorem ofName?_eq_none_iff : Mnemonic.ofName? name = none ↔ ∀ m : Mnemonic, m.name ≠ name := by
  rw [Option.eq_none_iff_forall_ne_some]
  exact forall_congr' fun m => not_congr Mnemonic.ofName?_eq_some_iff

theorem mem_unknownNames_iff : name ∈ unknownNames entries ↔ Unknown entries name := by
  rw [unknownNames, List.mem_filter, Option.isNone_iff_eq_none, ofName?_eq_none_iff, Unknown,
    List.mem_map]
  constructor
  · rintro ⟨⟨⟨_, slots⟩, hmem, rfl⟩, hname⟩
    exact ⟨⟨slots, hmem⟩, hname⟩
  · rintro ⟨⟨slots, hmem⟩, hname⟩
    exact ⟨⟨(name, slots), hmem, rfl⟩, hname⟩

theorem leastName?_eq_none_iff : leastName? names = none ↔ names = [] := by
  cases names with
  | nil => simp [leastName?]
  | cons name names =>
    refine iff_of_false (fun h => ?_) (List.cons_ne_nil _ _)
    unfold leastName? at h
    split at h
    · cases h
    · split_ifs at h

theorem isLeast_leastName? {least : String} (h : leastName? names = some least) :
    IsLeast {name | name ∈ names} least := by
  induction names generalizing least with
  | nil => cases h
  | cons name names ih =>
    unfold leastName? at h
    split at h
    · rename_i hnone
      cases h
      rw [leastName?_eq_none_iff.1 hnone]
      exact ⟨List.mem_singleton_self _, fun other hother => (List.mem_singleton.1 hother).ge⟩
    · rename_i least' hleast
      obtain ⟨hmem, hle⟩ := ih hleast
      split_ifs at h with hlt
      · cases h
        refine ⟨List.mem_cons_of_mem _ hmem, fun other hother => ?_⟩
        rcases List.mem_cons.1 hother with rfl | hother
        · exact hlt.le
        · exact hle hother
      · cases h
        refine ⟨List.mem_cons_self, fun other hother => ?_⟩
        rcases List.mem_cons.1 hother with rfl | hother
        · exact le_rfl
        · exact (not_lt.1 hlt).trans (hle hother)

/-- The first name that stands for no instruction is reported. -/
theorem ofEntries_of_unknown (h : Unknown entries name) :
    ∃ first, FirstUnknown entries first ∧
      ofEntries entries = .error (.unknownInstruction first) := by
  cases hleast : leastName? (unknownNames entries) with
  | none =>
    have hmem := mem_unknownNames_iff.2 h
    rw [leastName?_eq_none_iff.1 hleast] at hmem
    cases hmem
  | some first =>
    obtain ⟨hmem, hle⟩ := isLeast_leastName? hleast
    refine ⟨first, ⟨mem_unknownNames_iff.1 hmem, fun other hother => ?_⟩, ?_⟩
    · exact Text.bytes_le_iff.2 (hle (mem_unknownNames_iff.2 hother))
    · rw [ofEntries, hleast]

/-! ## Names of instructions -/

/-- The rule has the instruction with the entry's name for its key. -/
inductive IsRuleOf : Entry → Rule → Prop
  | intro (m : Mnemonic) (slots : List Slot) : IsRuleOf (m.name, slots) (.mnemonic m, slots)

theorem forall_key_ne_iff (h : List.Forall₂ IsRuleOf pairs rules) (m : Mnemonic) :
    (∀ r ∈ rules, r.1 ≠ .mnemonic m) ↔ ∀ e ∈ pairs, e.1 ≠ m.name := by
  induction h with
  | nil => simp
  | cons hrule _ ih =>
    obtain ⟨n, slots⟩ := hrule
    have hname : n.name = m.name ↔ n = m := ⟨Mnemonic.name_injective, congrArg _⟩
    rw [List.forall_mem_cons, List.forall_mem_cons, ih, ne_eq, ne_eq, hname,
      Token.Kind.mnemonic.injEq]

/-- Of the rules those remain whose entries do. -/
theorem remains_iff_of_forall₂ (h : List.Forall₂ IsRuleOf pairs rules) :
    Remains rules kind slots ↔ ∃ m, kind = .mnemonic m ∧ Remains pairs m.name slots := by
  induction h with
  | nil => simp [not_remains_nil]
  | cons hrule hrest ih =>
    obtain ⟨n, ss⟩ := hrule
    rw [remains_cons, ih]
    constructor
    · rintro (⟨m, hm, hremains⟩ | ⟨heq, hkeys⟩)
      · exact ⟨m, hm, remains_cons.2 (.inl hremains)⟩
      · cases heq
        exact ⟨n, rfl, remains_cons.2 (.inr ⟨rfl, (forall_key_ne_iff hrest n).1 hkeys⟩)⟩
    · rintro ⟨m, rfl, hremains⟩
      rcases remains_cons.1 hremains with hremains | ⟨heq, hnames⟩
      · exact .inl ⟨m, rfl, hremains⟩
      · obtain ⟨hname, rfl⟩ := Prod.mk.inj heq
        obtain rfl := Mnemonic.name_injective hname
        exact .inr ⟨rfl, (forall_key_ne_iff hrest n).2 hnames⟩

theorem forall₂_knownRules (h : ∀ name, ¬ Unknown entries name) :
    List.Forall₂ IsRuleOf entries (knownRules entries) := by
  induction entries with
  | nil => exact .nil
  | cons e es ih =>
    obtain ⟨name, slots⟩ := e
    have hes : ∀ name, ¬ Unknown es name := fun other ⟨⟨ss, hmem⟩, hother⟩ =>
      h other ⟨⟨ss, List.mem_cons_of_mem _ hmem⟩, hother⟩
    cases hname : Mnemonic.ofName? name with
    | none => exact absurd ⟨⟨slots, List.mem_cons_self⟩, ofName?_eq_none_iff.1 hname⟩ (h name)
    | some m =>
      have hrules : knownRules ((name, slots) :: es) = (.mnemonic m, slots) :: knownRules es := by
        simp [knownRules, hname]
      obtain rfl := Mnemonic.ofName?_eq_some_iff.1 hname
      rw [hrules]
      exact .cons (.intro m slots) (ih hes)

/-- If all names stand for instructions then the entries that remain are rules. -/
theorem ofEntries_of_known (h : ∀ name, ¬ Unknown entries name)
    (hpairs : ∀ name slots, Remains pairs name slots ↔ Remains entries name slots) :
    ∃ rules, List.Forall₂ IsRuleOf pairs rules ∧ ofEntries entries = ofRules rules := by
  have hknown : ∀ name, ¬ Unknown pairs name := by
    rintro name ⟨⟨slots, hmem⟩, hname⟩
    obtain ⟨last, hlast⟩ := exists_remains hmem
    exact h name ⟨⟨last, ((hpairs name last).1 hlast).mem⟩, hname⟩
  refine ⟨knownRules pairs, forall₂_knownRules hknown, ?_⟩
  have hnone : unknownNames entries = [] :=
    List.eq_nil_iff_forall_not_mem.2 fun name hname => h name (mem_unknownNames_iff.1 hname)
  rw [ofEntries, hnone]
  refine ofRules_congr fun kind => Option.ext fun slots => ?_
  rw [latest?_eq_some_iff, latest?_eq_some_iff, remains_iff_of_forall₂ (forall₂_knownRules h),
    remains_iff_of_forall₂ (forall₂_knownRules hknown)]
  simp only [hpairs]

/-! ## Grammars of rules and of texts -/

theorem read_of_readEntries {text : String} (h : readEntries.run text = .ok entries) :
    read text = (ofEntries entries).mapError .unusable := by
  rw [read, h]

/-- The last rules for each key decide what becomes of a list of rules, and the last entries for
each name what becomes of a text. -/
theorem last_rules_decide :
    (∀ rules : List Rule,
      ((∃ g, ofRules rules = .ok g) ↔ Usable rules) ∧
      (∀ g, ofRules rules = .ok g → HasRules g rules) ∧
      (∀ problem, ofRules rules = .error problem ↔ FirstOffence rules problem) ∧
      ∀ others, rules.Perm others → (rules.map Prod.fst).Nodup →
        ofRules rules = ofRules others) ∧
    ∀ (text : String) (entries : List Entry), readEntries.run text = .ok entries →
      ((∃ name, Unknown entries name) → ∃ first, FirstUnknown entries first ∧
        read text = .error (.unusable (.unknownInstruction first))) ∧
      ((∀ name, ¬ Unknown entries name) →
        ∀ pairs, (∀ name slots, Remains pairs name slots ↔ Remains entries name slots) →
          ∃ rules, List.Forall₂ IsRuleOf pairs rules ∧
            read text = (ofRules rules).mapError .unusable) := by
  constructor
  · intro rules
    exact ⟨exists_ofRules_eq_ok_iff, fun _ => hasRules_of_ofRules, fun _ => ofRules_eq_error_iff,
      fun _ => ofRules_perm⟩
  · intro text entries hread
    rw [read_of_readEntries hread]
    constructor
    · rintro ⟨name, hname⟩
      obtain ⟨first, hfirst, herror⟩ := ofEntries_of_unknown hname
      exact ⟨first, hfirst, by rw [herror]; rfl⟩
    · intro hknown pairs hpairs
      obtain ⟨rules, hrules, heq⟩ := ofEntries_of_known hknown hpairs
      exact ⟨rules, hrules, by rw [heq]⟩

/-- Entries of which the last replaces the first, where a slot asks for the end of the text. -/
def overwriting : List Entry :=
  [("B", [⟨.endOfText, "late"⟩]), ("HALT", []), ("B", [⟨.identifier, "label"⟩])]

/-- What remains of these entries. -/
def overwritten : List Entry := [("B", [⟨.identifier, "label"⟩]), ("HALT", [])]

/-- Entries with two names that stand for no instruction, and a slot for the end of the text. -/
def misspelling : List Entry := [("halt", []), ("B", [⟨.endOfText, "late"⟩]), ("NOP", [])]

theorem remains_overwritten (name : String) (slots : List Slot) :
    Remains overwritten name slots ↔ Remains overwriting name slots := by
  by_cases hname : "B" = name
  · subst hname
    simp [overwritten, overwriting, remains_cons, not_remains_nil]
  · simp [overwritten, overwriting, remains_cons, not_remains_nil, hname]

theorem not_unknown_overwriting (name : String) : ¬ Unknown overwriting name := by
  have hnone : unknownNames overwriting = [] := by decide +kernel
  rw [← mem_unknownNames_iff, hnone]
  exact List.not_mem_nil

/-- Capital letters come before small ones. -/
theorem firstUnknown_misspelling (h : FirstUnknown misspelling name) : name = "NOP" := by
  have hnames : unknownNames misspelling = ["halt", "NOP"] := by decide +kernel
  have hnop : Unknown misspelling "NOP" := mem_unknownNames_iff.1 (by rw [hnames]; decide)
  have hmem : name ∈ ["halt", "NOP"] := hnames ▸ mem_unknownNames_iff.2 h.1
  rcases List.mem_pair.1 hmem with rfl | rfl
  · exact absurd (Text.bytes_le_iff.1 (h.2 "NOP" hnop)) (by decide +kernel)
  · rfl

theorem last_rules_decide_overwriting :
    (∃ g, ofRules (knownRules overwriting) = .ok g ∧
      g.slotsAfter? (.mnemonic .b) = some [⟨.identifier, "label"⟩]) ∧
    ofRules (knownRules overwritten) = ofRules (knownRules overwritten).reverse ∧
    (∃ rules, List.Forall₂ IsRuleOf overwritten rules ∧
      read (text overwriting) = (ofRules rules).mapError .unusable) ∧
    read (text misspelling) = .error (.unusable (.unknownInstruction "NOP")) := by
  obtain ⟨hrules, htexts⟩ := last_rules_decide
  have husable : Usable (knownRules overwriting) := problem?_eq_none_iff.1 (by decide +kernel)
  obtain ⟨g, hg⟩ := (hrules _).1.2 husable
  have hslots := ((hrules _).2.1 g hg).slotsAfter?_eq_some_iff (.mnemonic .b)
  have hoverwriting : readEntries.run (text overwriting) = .ok overwriting :=
    run_readEntries_text (by decide +kernel)
  have hmisspelling : readEntries.run (text misspelling) = .ok misspelling :=
    run_readEntries_text (by decide +kernel)
  obtain ⟨first, hfirst, herror⟩ := (htexts _ _ hmisspelling).1
    ⟨"NOP", mem_unknownNames_iff.1 (by decide +kernel)⟩
  rw [firstUnknown_misspelling hfirst] at herror
  exact ⟨⟨g, hg, (hslots _).2 (latest?_eq_some_iff.1 (by decide +kernel))⟩,
    (hrules _).2.2.2 _ (List.reverse_perm _).symm (by decide +kernel),
    (htexts _ _ hoverwriting).2 not_unknown_overwriting _ remains_overwritten, herror⟩

end AqaAssembly.Grammar
