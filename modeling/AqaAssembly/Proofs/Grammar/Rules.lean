import AqaAssembly.Proofs.Grammar.Writing
import Mathlib.Data.List.Basic
import Mathlib.Tactic.ByContra
import Mathlib.Tactic.SplitIfs

/-!
# The rules of a grammar

Which rules make a grammar, and which grammar they make.  Of several rules for a key the last one
remains (`Remains`), and nothing else matters (`ofRules_congr`).  The rules that remain have to be
for instructions and may not ask for the end of the text (`exists_ofRules_eq_ok_iff`).  They are
then the rules of the grammar (`hasRules_of_ofRules`); otherwise the first key at fault is reported
(`ofRules_eq_error_iff`).
-/

namespace AqaAssembly

/-! ## The order of kinds -/

namespace Token.Kind

/-- The place of a kind in the order of kinds. -/
def place (k : Kind) : Nat := all.idxOf k

theorem place_injective {k l : Kind} (h : k.place = l.place) : k = l :=
  (List.idxOf_inj (mem_all k)).1 h

theorem pairwise_place_mnemonics :
    (Mnemonic.all.map mnemonic).Pairwise fun k l => k.place < l.place := by decide

variable {β : Type} {f : Kind → Option β} {b : β}

theorem place_le_of_findSome? (h : all.findSome? f = some b) :
    ∃ k, f k = some b ∧ ∀ l, (f l).isSome → k.place ≤ l.place := by
  obtain ⟨front, k, back, hall, hk, hfront⟩ := List.findSome?_eq_some_iff.1 h
  have hplace (l : Kind) (hl : (f l).isSome) : l.place = front.length + (k :: back).idxOf l := by
    have hmem : l ∉ front := by
      intro hl'
      rw [hfront l hl'] at hl
      cases hl
    rw [place, hall, List.idxOf_append_of_notMem hmem]
  refine ⟨k, hk, fun l hl => ?_⟩
  rw [hplace l hl, hplace k (by rw [hk]; rfl), List.idxOf_cons_self]
  omega

/-- The first value along the kinds is that of the first kind with a value. -/
theorem findSome?_all_eq_some_iff :
    all.findSome? f = some b ↔ ∃ k, f k = some b ∧ ∀ l, (f l).isSome → k.place ≤ l.place := by
  refine ⟨place_le_of_findSome?, ?_⟩
  rintro ⟨k, hk, hleast⟩
  have hsome : (all.findSome? f).isSome := by
    rw [List.findSome?_isSome_iff]
    exact ⟨k, mem_all k, by rw [hk]; rfl⟩
  obtain ⟨c, hc⟩ := Option.isSome_iff_exists.1 hsome
  obtain ⟨l, hl, hfirst⟩ := place_le_of_findSome? hc
  have hkl : k.place = l.place :=
    Nat.le_antisymm (hleast l (by rw [hl]; rfl)) (hfirst k (by rw [hk]; rfl))
  rw [place_injective hkl, hl] at hk
  rw [hc, hk]

end Token.Kind

namespace Grammar

/-! ## What remains of pairs -/

section Pairs

variable {κ α : Type} {pairs : List (κ × α)} {key : κ} {value : α}

/-- The value remains for the key when each pair has replaced the earlier ones with its key. -/
def Remains (pairs : List (κ × α)) (key : κ) (value : α) : Prop :=
  ∃ front back, pairs = front ++ (key, value) :: back ∧ ∀ p ∈ back, p.1 ≠ key

theorem Remains.mem (h : Remains pairs key value) : (key, value) ∈ pairs := by
  obtain ⟨front, back, rfl, -⟩ := h
  simp

theorem not_remains_nil : ¬ Remains ([] : List (κ × α)) key value := by
  rintro ⟨front, back, heq, -⟩
  cases front <;> cases heq

theorem remains_cons {p : κ × α} :
    Remains (p :: pairs) key value ↔
      Remains pairs key value ∨ p = (key, value) ∧ ∀ q ∈ pairs, q.1 ≠ key := by
  constructor
  · rintro ⟨front, back, heq, hback⟩
    cases front with
    | nil =>
      obtain ⟨rfl, rfl⟩ := List.cons.inj heq
      exact .inr ⟨rfl, hback⟩
    | cons _ front =>
      obtain ⟨-, rfl⟩ := List.cons.inj heq
      exact .inl ⟨front, back, rfl, hback⟩
  · rintro (⟨front, back, rfl, hback⟩ | ⟨rfl, hpairs⟩)
    · exact ⟨p :: front, back, rfl, hback⟩
    · exact ⟨[], pairs, rfl, hpairs⟩

/-- Among pairs with the key some value remains for it. -/
theorem exists_remains (h : (key, value) ∈ pairs) : ∃ last, Remains pairs key last := by
  induction pairs generalizing value with
  | nil => cases h
  | cons p pairs ih =>
    by_cases hrest : ∃ other, (key, other) ∈ pairs
    · obtain ⟨other, hother⟩ := hrest
      obtain ⟨last, hlast⟩ := ih hother
      exact ⟨last, remains_cons.2 (.inl hlast)⟩
    · rcases List.mem_cons.1 h with hp | hmem
      · refine ⟨value, remains_cons.2 (.inr ⟨hp.symm, ?_⟩)⟩
        rintro ⟨_, other⟩ hother rfl
        exact hrest ⟨other, hother⟩
      · exact absurd ⟨value, hmem⟩ hrest

/-- Of pairs with different keys all remain. -/
theorem remains_iff_mem (h : (pairs.map Prod.fst).Nodup) :
    Remains pairs key value ↔ (key, value) ∈ pairs := by
  refine ⟨Remains.mem, fun hmem => ?_⟩
  obtain ⟨front, back, rfl⟩ := List.append_of_mem hmem
  refine ⟨front, back, rfl, fun p hp heq => ?_⟩
  rw [List.map_append, List.map_cons] at h
  have hback : key ∉ back.map Prod.fst := (List.nodup_cons.1 (List.nodup_append.1 h).2.1).1
  exact hback (List.mem_map.2 ⟨p, hp, heq⟩)

theorem lookup_reverse_eq_some_iff [DecidableEq κ] :
    pairs.reverse.lookup key = some value ↔ Remains pairs key value := by
  rw [List.lookup_eq_some_iff]
  constructor
  · rintro ⟨back, front, heq, hback⟩
    refine ⟨front.reverse, back.reverse, ?_, ?_⟩
    · simpa using congrArg List.reverse heq
    · intro p hp
      exact (bne_iff_ne.1 (hback p (List.mem_reverse.1 hp))).symm
  · rintro ⟨front, back, rfl, hback⟩
    refine ⟨back.reverse, front.reverse, by simp, ?_⟩
    intro p hp
    exact bne_iff_ne.2 (hback p (List.mem_reverse.1 hp)).symm

end Pairs

/-! ## Rules at fault -/

variable {rules others : List Rule} {kind : Token.Kind} {slots : List Slot} {problem : Problem}
  {g : Grammar}

theorem latest?_eq_some_iff : latest? rules kind = some slots ↔ Remains rules kind slots :=
  lookup_reverse_eq_some_iff

/-- A key whose rule cannot stand in a grammar, and what is wrong with it. -/
inductive Offends (rules : List Rule) : Token.Kind → Problem → Prop
  /-- The key is no instruction. -/
  | key {kind : Token.Kind} {slots : List Slot} (remains : Remains rules kind slots)
      (other : ∀ m, kind ≠ .mnemonic m) : Offends rules kind (.unknownInstruction kind.description)
  /-- A slot of the instruction asks for the end of the text. -/
  | slot {m : Mnemonic} {slots : List Slot} {s : Slot} (remains : Remains rules (.mnemonic m) slots)
      (mem : s ∈ slots) (kind_eq : s.kind = .endOfText) :
      Offends rules (.mnemonic m) (.endOfTextSlot m)

/-- The first key at fault, in the order of kinds, is at fault for the given reason. -/
def FirstOffence (rules : List Rule) (problem : Problem) : Prop :=
  ∃ kind, Offends rules kind problem ∧ ∀ l q, Offends rules l q → kind.place ≤ l.place

/-- Every key that remains is an instruction, none of whose slots asks for the end of the text. -/
def Usable (rules : List Rule) : Prop :=
  ∀ kind slots, Remains rules kind slots →
    (∃ m, kind = .mnemonic m) ∧ ∀ s ∈ slots, s.kind ≠ .endOfText

theorem problemAt?_eq_some_iff :
    problemAt? rules kind = some problem ↔ Offends rules kind problem := by
  constructor
  · intro h
    unfold problemAt? at h
    split at h
    · cases h
    · rename_i slots hslots hkind
      cases h
      refine .key (latest?_eq_some_iff.1 hslots) fun m hm => ?_
      rw [Token.Kind.mnemonic?_eq_some_iff.2 hm] at hkind
      cases hkind
    · rename_i slots m hslots hkind
      obtain rfl := Token.Kind.mnemonic?_eq_some_iff.1 hkind
      split_ifs at h with hany
      cases h
      obtain ⟨s, hs, heof⟩ := List.any_eq_true.1 hany
      exact .slot (latest?_eq_some_iff.1 hslots) hs (of_decide_eq_true heof)
  · rintro (⟨remains, other⟩ | ⟨remains, mem, heof⟩)
    · have hkind : kind.mnemonic? = none := by
        rw [Option.eq_none_iff_forall_ne_some]
        exact fun m hm => other m (Token.Kind.mnemonic?_eq_some_iff.1 hm)
      rw [problemAt?, latest?_eq_some_iff.2 remains, hkind]
    · rename_i m slots s
      have hany : slots.any (·.kind = .endOfText) = true :=
        List.any_eq_true.2 ⟨s, mem, decide_eq_true heof⟩
      simp only [problemAt?, latest?_eq_some_iff.2 remains, Token.Kind.mnemonic?, hany, if_true]

theorem problem?_eq_some_iff :
    problem? rules = some problem ↔ FirstOffence rules problem := by
  simp only [FirstOffence, problem?, Token.Kind.findSome?_all_eq_some_iff, Option.isSome_iff_exists,
    problemAt?_eq_some_iff, forall_exists_index]

theorem problem?_eq_none_iff : problem? rules = none ↔ Usable rules := by
  constructor
  · intro h kind slots hremains
    have hnone : ∀ q, ¬ Offends rules kind q := by
      intro q hq
      rw [← problemAt?_eq_some_iff, List.findSome?_eq_none_iff.1 h kind (Token.Kind.mem_all kind)]
        at hq
      cases hq
    have hkind : ∃ m, kind = .mnemonic m := by
      by_contra hother
      exact hnone _ (.key hremains fun m hm => hother ⟨m, hm⟩)
    obtain ⟨m, rfl⟩ := hkind
    exact ⟨⟨m, rfl⟩, fun s hs heof => hnone _ (.slot hremains hs heof)⟩
  · intro h
    rw [Option.eq_none_iff_forall_ne_some]
    intro problem hproblem
    obtain ⟨kind, hoffends, -⟩ := problem?_eq_some_iff.1 hproblem
    rcases hoffends with ⟨hremains, hother⟩ | ⟨hremains, hs, heof⟩
    · obtain ⟨⟨m, hm⟩, -⟩ := h _ _ hremains
      exact hother m hm
    · exact (h _ _ hremains).2 _ hs heof

/-! ## The grammar with the rules -/

theorem ofRules_of_problem?_eq_some (h : problem? rules = some problem) :
    ofRules rules = .error problem := by
  unfold ofRules
  split
  · rename_i other hother
    rw [h] at hother
    cases hother
    rfl
  · rename_i hnone
    rw [h] at hnone
    cases hnone

/-- The first key at fault is reported. -/
theorem ofRules_eq_error_iff : ofRules rules = .error problem ↔ FirstOffence rules problem := by
  rw [← problem?_eq_some_iff]
  refine ⟨fun h => ?_, ofRules_of_problem?_eq_some⟩
  cases hproblem : problem? rules with
  | none =>
    rw [ofRules_of_problem? hproblem] at h
    cases h
  | some other =>
    rw [ofRules_of_problem?_eq_some hproblem] at h
    cases h
    rfl

theorem ofRules_eq_ok_iff :
    ofRules rules = .ok g ↔ Usable rules ∧ ∀ m, g.slots? m = latest? rules (.mnemonic m) := by
  rw [← problem?_eq_none_iff]
  cases hproblem : problem? rules with
  | some problem => simp [ofRules_of_problem?_eq_some hproblem]
  | none =>
    rw [ofRules_of_problem? hproblem, Except.ok.injEq]
    constructor
    · rintro rfl
      exact ⟨rfl, fun m => rfl⟩
    · rintro ⟨-, h⟩
      exact ext_slots? fun m => (h m).symm

theorem exists_ofRules_eq_ok_iff : (∃ g, ofRules rules = .ok g) ↔ Usable rules := by
  constructor
  · rintro ⟨g, hg⟩
    exact (ofRules_eq_ok_iff.1 hg).1
  · intro h
    exact ⟨_, ofRules_of_problem? (problem?_eq_none_iff.2 h)⟩

/-- Only the last rule for each key matters. -/
theorem ofRules_congr (h : ∀ kind, latest? rules kind = latest? others kind) :
    ofRules rules = ofRules others := by
  have hproblem : problem? rules = problem? others := by
    rw [problem?, problem?]
    congr 1
    funext kind
    rw [problemAt?, problemAt?, h]
  cases hothers : problem? others with
  | some problem =>
    rw [ofRules_of_problem?_eq_some (hproblem.trans hothers), ofRules_of_problem?_eq_some hothers]
  | none =>
    rw [ofRules_of_problem? (hproblem.trans hothers), ofRules_of_problem? hothers]
    exact congrArg Except.ok (ext_slots? fun m => h (.mnemonic m))

/-- The grammar has the rules that remain, and lists their keys in order. -/
structure HasRules (g : Grammar) (rules : List Rule) : Prop where
  slotsAfter?_eq_some_iff : ∀ kind slots, g.slotsAfter? kind = some slots ↔ Remains rules kind slots
  mem_instructions_iff :
    ∀ kind, kind ∈ g.instructions.map .mnemonic ↔ ∃ slots, Remains rules kind slots
  increasing : (g.instructions.map Token.Kind.mnemonic).Pairwise fun k l => k.place < l.place

theorem slotsAfter?_of_ofRules (h : ofRules rules = .ok g) :
    g.slotsAfter? kind = some slots ↔ Remains rules kind slots := by
  obtain ⟨husable, hslots⟩ := ofRules_eq_ok_iff.1 h
  rw [slotsAfter?, Option.bind_eq_some_iff]
  constructor
  · rintro ⟨m, hm, hg⟩
    rw [Token.Kind.mnemonic?_eq_some_iff.1 hm, ← latest?_eq_some_iff, ← hslots m, hg]
  · intro hremains
    obtain ⟨⟨m, rfl⟩, -⟩ := husable _ _ hremains
    exact ⟨m, rfl, by rw [hslots m, latest?_eq_some_iff.2 hremains]⟩

theorem mem_instructions : kind ∈ g.instructions.map .mnemonic ↔ (g.slotsAfter? kind).isSome := by
  rw [List.mem_map, slotsAfter?]
  constructor
  · rintro ⟨m, hm, rfl⟩
    exact (List.mem_filter.1 hm).2
  · intro h
    cases hkind : kind.mnemonic? with
    | none =>
      rw [hkind] at h
      cases h
    | some m =>
      rw [hkind] at h
      exact ⟨m, List.mem_filter.2 ⟨Mnemonic.mem_all m, h⟩,
        (Token.Kind.mnemonic?_eq_some_iff.1 hkind).symm⟩

theorem hasRules_of_ofRules (h : ofRules rules = .ok g) : HasRules g rules where
  slotsAfter?_eq_some_iff _ _ := slotsAfter?_of_ofRules h
  mem_instructions_iff kind := by
    rw [mem_instructions, Option.isSome_iff_exists]
    exact exists_congr fun _ => slotsAfter?_of_ofRules h
  increasing := Token.Kind.pairwise_place_mnemonics.sublist (List.filter_sublist.map _)

/-- Rules with different keys can be put in any order. -/
theorem ofRules_perm (h : rules.Perm others) (hkeys : (rules.map Prod.fst).Nodup) :
    ofRules rules = ofRules others := by
  have hothers : (others.map Prod.fst).Nodup := (h.map Prod.fst).nodup_iff.1 hkeys
  refine ofRules_congr fun kind => Option.ext fun slots => ?_
  rw [latest?_eq_some_iff, latest?_eq_some_iff, remains_iff_mem hkeys, remains_iff_mem hothers,
    h.mem_iff]

end Grammar

end AqaAssembly
