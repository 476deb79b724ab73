import AqaAssembly.Proofs.Machine.Steps
import Mathlib.Data.Finset.Card
import Mathlib.Data.List.Induction
import Mathlib.Order.Bounds.Basic

/-!
# What a label stands for

A label may be declared at several places of a program, and it stands for the last of them.  The
table of a program is followed here statement by statement, from the first to the last:

* `lookup?_ofProgram_eq_some_iff`: a name stands for the greatest place that declares it;
* `mem_entries_iff`, `length_ofProgram`: the table has one entry for each name that is declared;
* `redeclarations_eq`, `length_repeated_add_length`: there is one warning for each declaration of a
  name that was declared before;
* `isGreatest_pc_step`: a branch that is taken leads to the last declaration of its label.

The main result is `labels_stand_for_last_declaration`.
-/

namespace AqaAssembly

open Operand

/-- The statement at this place of the program declares a label of this name. -/
def Program.Declares (p : Program) (name : String) (i : Nat) : Prop :=
  ∃ l : Label, p[i]? = some (.label l) ∧ l.name = name

namespace Program

variable {p : Program} {name : String} {i : Nat}

theorem declares_iff :
    p.Declares name i ↔ (p[i]?.bind Statement.label?).map Label.name = some name := by
  unfold Declares
  cases hi : p[i]? with
  | none => simp
  | some s => cases s <;> simp [Statement.label?]

instance : Decidable (p.Declares name i) := decidable_of_iff _ declares_iff.symm

theorem Declares.lt_length (h : p.Declares name i) : i < p.length := by
  obtain ⟨l, hl, -⟩ := h
  exact (List.getElem?_eq_some_iff.1 hl).1

/-- One more instruction declares nothing. -/
theorem declares_concat_instruction {k : Instruction} :
    Declares (p ++ [.instruction k]) name i ↔ p.Declares name i := by
  unfold Declares
  rcases lt_trichotomy i p.length with hlt | rfl | hgt
  · rw [List.getElem?_append_left hlt]
  · simp
  · rw [List.getElem?_eq_none (by simp; omega), List.getElem?_eq_none hgt.le]

/-- One more label is declared behind the others. -/
theorem declares_concat_label {l : Label} :
    Declares (p ++ [.label l]) name i ↔ p.Declares name i ∨ (i = p.length ∧ l.name = name) := by
  unfold Declares
  rcases lt_trichotomy i p.length with hlt | rfl | hgt
  · rw [List.getElem?_append_left hlt]
    simp [hlt.ne]
  · simp
  · rw [List.getElem?_eq_none (by simp; omega), List.getElem?_eq_none hgt.le]
    simp [hgt.ne']

theorem mem_declaredNames_iff : name ∈ p.declaredNames ↔ ∃ i, p.Declares name i := by
  unfold declaredNames Declares
  rw [List.mem_filterMap]
  constructor
  · rintro ⟨s, hs, hname⟩
    obtain ⟨i, hi⟩ := List.mem_iff_getElem?.1 hs
    cases s with
    | instruction k => cases hname
    | label l => exact ⟨i, l, hi, Option.some.inj hname⟩
  · rintro ⟨i, l, hl, rfl⟩
    exact ⟨.label l, List.mem_of_getElem? hl, rfl⟩

end Program

namespace LabelTable

variable {p : Program} {name : String} {i : Nat}

/-! ## One more statement -/

theorem declarations_concat (p : Program) (s : Statement) :
    declarations (p ++ [s]) = declarations p ++ (s.label?.map fun l => (l, p.length)).toList := by
  unfold declarations
  rw [List.zipIdx_append, List.filterMap_append]
  cases s <;> simp [Statement.label?]

theorem ofProgram_concat_instruction (p : Program) (k : Instruction) :
    ofProgram (p ++ [.instruction k]) = ofProgram p := by
  rw [ofProgram, declarations_concat]
  exact congrArg _ (List.append_nil _)

theorem ofProgram_concat_label (p : Program) (l : Label) :
    ofProgram (p ++ [.label l]) = (ofProgram p).declare l.name p.length := by
  rw [ofProgram, declarations_concat]
  exact List.foldl_append ..

/-! ## The last declaration -/

/-- A name stands for the last place that declares it. -/
theorem lookup?_ofProgram_eq_some_iff :
    (ofProgram p).lookup? name = some i ↔ IsGreatest {j | p.Declares name j} i := by
  induction p using List.reverseRecOn with
  | nil =>
    constructor
    · intro h
      cases h
    · rintro ⟨⟨l, hl, -⟩, -⟩
      cases hl
  | append_singleton p s ih =>
    cases s with
    | instruction k =>
      simp only [ofProgram_concat_instruction, Program.declares_concat_instruction, ih]
    | label l =>
      rw [ofProgram_concat_label, lookup?_declare]
      simp only [Program.declares_concat_label]
      -- the new place is behind all others, so it is the last if it declares the name at all
      by_cases hname : name = l.name
      · have hlast : IsGreatest {j | Program.Declares p name j ∨ (j = p.length ∧ l.name = name)}
            p.length := by
          refine ⟨.inr ⟨rfl, hname.symm⟩, ?_⟩
          rintro j (hj | ⟨rfl, -⟩)
          · exact hj.lt_length.le
          · exact le_rfl
        rw [if_pos hname, Option.some.injEq]
        constructor
        · rintro rfl
          exact hlast
        · exact fun hi => IsGreatest.unique hlast hi
      · have hother : ¬ l.name = name := fun h => hname h.symm
        simp only [if_neg hname, hother, and_false, or_false]
        exact ih

/-- A name stands for nothing exactly if no place declares it. -/
theorem lookup?_ofProgram_eq_none_iff_forall :
    (ofProgram p).lookup? name = none ↔ ∀ i, ¬ p.Declares name i := by
  rw [lookup?_ofProgram_eq_none_iff]
  constructor
  · rintro h i ⟨l, hl, hname⟩
    exact h l (List.mem_of_getElem? hl) hname
  · intro h l hl hname
    obtain ⟨i, hi⟩ := List.mem_iff_getElem?.1 hl
    exact h i ⟨l, hi, hname⟩

/-! ## The entries -/

/-- The entries of a table are what can be looked up in it. -/
theorem mem_entries_iff (t : LabelTable) : (name, i) ∈ t.entries ↔ t.lookup? name = some i := by
  rw [lookup?, List.lookup_eq_some_iff]
  constructor
  · intro h
    obtain ⟨front, back, hsplit⟩ := List.append_of_mem h
    refine ⟨front, back, hsplit, fun e he => ?_⟩
    have hnodup := t.nodup
    rw [hsplit, List.map_append, List.map_cons, List.nodup_middle, List.nodup_cons] at hnodup
    have hname : name ∉ front.map Prod.fst := fun hmem =>
      hnodup.1 (List.mem_append_left _ hmem)
    rw [bne_iff_ne]
    rintro rfl
    exact hname (List.mem_map_of_mem he)
  · rintro ⟨front, back, hsplit, -⟩
    rw [hsplit]
    exact List.mem_append_right _ List.mem_cons_self

/-- The names in the table of a program are those that it declares. -/
theorem mem_names_ofProgram_iff :
    name ∈ (ofProgram p).entries.map Prod.fst ↔ name ∈ p.declaredNames := by
  rw [Program.mem_declaredNames_iff, List.mem_map]
  constructor
  · rintro ⟨⟨n, i⟩, hmem, rfl⟩
    exact ⟨i, (lookup?_ofProgram_eq_some_iff.1 ((mem_entries_iff _).1 hmem)).1⟩
  · rintro ⟨i, hi⟩
    have hsome : (ofProgram p).lookup? name ≠ none := fun hnone =>
      lookup?_ofProgram_eq_none_iff_forall.1 hnone i hi
    obtain ⟨j, hj⟩ := Option.ne_none_iff_exists'.1 hsome
    exact ⟨(name, j), (mem_entries_iff _).2 hj, rfl⟩

/-- The table has one entry for each name that is declared. -/
theorem length_ofProgram (p : Program) :
    (ofProgram p).length = p.declaredNames.toFinset.card := by
  have hnames : ((ofProgram p).entries.map Prod.fst).toFinset = p.declaredNames.toFinset := by
    ext name
    rw [List.mem_toFinset, List.mem_toFinset, mem_names_ofProgram_iff]
  rw [← hnames, List.toFinset_card_of_nodup (ofProgram p).nodup, List.length_map]
  rfl

/-! ## Warnings -/

/-- The declarations of a program whose name was declared before. -/
def repeated (p : Program) : List (Label × Nat) :=
  (declarations p).filter fun d => ∃ j < d.2, p.Declares d.1.name j

theorem redeclarations_concat (seen : List String) (ls : List Label) (l : Label) :
    redeclarations seen (ls ++ [l]) =
      redeclarations seen ls ++ if l.name ∈ seen ∨ l.name ∈ ls.map Label.name then [l] else [] := by
  induction ls generalizing seen with
  | nil => simp [redeclarations]
  | cons k ls ih =>
    rw [List.cons_append, redeclarations, redeclarations]
    by_cases hk : k.name ∈ seen
    · rw [if_pos hk, if_pos hk, ih, List.cons_append]
      by_cases hl : l.name = k.name
      · simp [hl, hk]
      · simp [hl]
    · rw [if_neg hk, if_neg hk, ih]
      simp [or_assoc, or_left_comm]

theorem repeated_concat_instruction (p : Program) (k : Instruction) :
    repeated (p ++ [.instruction k]) = repeated p := by
  unfold repeated
  rw [declarations_concat]
  simp only [Program.declares_concat_instruction]
  exact congrArg _ (List.append_nil _)

theorem repeated_concat_label (p : Program) (l : Label) :
    repeated (p ++ [.label l]) =
      repeated p ++ if l.name ∈ p.declaredNames then [(l, p.length)] else [] := by
  unfold repeated
  rw [declarations_concat, List.filter_append]
  congr 1
  · -- one more declaration at the end is no earlier declaration for the others
    refine List.filter_congr fun d hd => ?_
    have hplace : d.2 < p.length :=
      (List.getElem?_eq_some_iff.1 (mem_declarations (l := d.1).1 hd)).1
    rw [decide_eq_decide]
    refine exists_congr fun j => and_congr_right fun hj => ?_
    have hne : j ≠ p.length := (hj.trans hplace).ne
    simp [Program.declares_concat_label, hne]
  · have hbefore : (∃ j < p.length, Program.Declares (p ++ [.label l]) l.name j) ↔
        l.name ∈ p.declaredNames := by
      rw [Program.mem_declaredNames_iff]
      refine exists_congr fun j => ?_
      rw [Program.declares_concat_label]
      constructor
      · rintro ⟨hj, hold | ⟨rfl, -⟩⟩
        · exact hold
        · exact absurd hj (lt_irrefl _)
      · intro hold
        exact ⟨hold.lt_length, .inl hold⟩
    simp [Statement.label?, List.filter_singleton, hbefore]

/-- The labels that are worth a warning are those that were declared before. -/
theorem redeclarations_eq (p : Program) :
    redeclarations [] (p.filterMap Statement.label?) = (repeated p).map Prod.fst := by
  induction p using List.reverseRecOn with
  | nil => rfl
  | append_singleton p s ih =>
    rw [List.filterMap_append]
    cases s with
    | instruction k =>
      rw [repeated_concat_instruction, ← ih]
      exact congrArg _ (List.append_nil _)
    | label l =>
      have hnames : l.name ∈ (p.filterMap Statement.label?).map Label.name ↔
          l.name ∈ Program.declaredNames p := by
        rw [Program.declaredNames, List.map_filterMap]
      have hone : [Statement.label l].filterMap Statement.label? = [l] := rfl
      rw [hone, redeclarations_concat, ih, repeated_concat_label, List.map_append]
      by_cases hmem : l.name ∈ Program.declaredNames p
      · simp [hnames, hmem]
      · simp [hnames, hmem]

/-- Each declaration adds an entry to the table or is a repeated one. -/
theorem length_repeated_add_length (p : Program) :
    (repeated p).length + (ofProgram p).length = (declarations p).length := by
  induction p using List.reverseRecOn with
  | nil => rfl
  | append_singleton p s ih =>
    cases s with
    | instruction k =>
      rw [repeated_concat_instruction, ofProgram_concat_instruction, ih, declarations_concat]
      exact (congrArg _ (List.append_nil _)).symm
    | label l =>
      have hnames : Program.declaredNames (p ++ [.label l]) = Program.declaredNames p ++ [l.name] :=
        List.filterMap_append
      have hset : (Program.declaredNames (p ++ [.label l])).toFinset =
          insert l.name (Program.declaredNames p).toFinset := by
        ext name
        simp [hnames, or_comm]
      have hone : (declarations (p ++ [.label l])).length = (declarations p).length + 1 := by
        rw [declarations_concat, List.length_append]
        rfl
      rw [length_ofProgram] at ih
      rw [length_ofProgram, repeated_concat_label, hone, hset, ← ih, List.length_append]
      by_cases hmem : l.name ∈ Program.declaredNames p
      · rw [if_pos hmem, Finset.insert_eq_of_mem (List.mem_toFinset.2 hmem), List.length_singleton]
        exact Nat.add_right_comm _ _ _
      · have hnew : l.name ∉ (Program.declaredNames p).toFinset := fun h =>
          hmem (List.mem_toFinset.1 h)
        rw [if_neg hmem, Finset.card_insert_of_notMem hnew]
        rfl

/-- There is one warning for each repeated declaration. -/
theorem warnings_records (p : Program) :
    ((records p).filter fun r => r.level = .warning) =
      (repeated p).map fun d => .redeclared d.1.name d.1.token.line := by
  rw [records, List.filter_append, redeclarations_eq, List.map_map]
  have hall : ∀ r ∈ (repeated p).map
      ((fun l : Label => LogRecord.redeclared l.name l.token.line) ∘ Prod.fst),
      decide (r.level = .warning) = true := by
    intro r hr
    obtain ⟨d, -, rfl⟩ := List.mem_map.1 hr
    rfl
  rw [List.filter_eq_self.2 hall]
  exact List.append_nil _

end LabelTable

/-! ## Branches -/

namespace Machine

/-- A branch that is taken leads to the last declaration of its label. -/
theorem isGreatest_pc_step {m : Machine} {condition : Condition} {l : Label}
    (hs : m.current? = some (.instruction (.branch condition l)))
    (hholds : condition.holds m.flags) (hfault : m.step.fault? = none) :
    IsGreatest {i | m.program.Declares l.name i} m.step.machine.pc := by
  have hstep := m.happens_step
  generalize m.step = o at hstep hfault ⊢
  cases hstep with
  | nothing hdone =>
    rw [isDone, hs] at hdone
    cases hdone
  | executed hs' _ hasks hafter =>
    rw [hs] at hs'
    cases hs'
    rw [(hafter.1.complete _ _).pc]
    obtain ⟨-, place, declared, rfl⟩ | ⟨fails, -⟩ := asks_branch_iff.1 hasks
    · rw [m.labels_eq] at declared
      exact LabelTable.lookup?_ofProgram_eq_some_iff.1 declared
    · rw [hholds] at fails
      cases fails
  | faulted _ _ => cases hfault

end Machine

/-- In the label table of a program a name stands for a place exactly if that place is the last to
declare it, and for nothing exactly if no place declares it.  The table is as long as there are
names that are declared, each of them has one entry, and the entries are what can be looked up.
There is one warning for each declaration of a name that an earlier place declares, in order, so
that the warnings and the entries together are as many as the declarations.  When a machine executes
the program, from any state and after any number of steps, and takes a branch without a fault, the
next statement is the last declaration of the label, wherever the branch stands. -/
theorem labels_stand_for_last_declaration (p : Program) :
    let t := LabelTable.ofProgram p
    let warnings := (LabelTable.records p).filter fun r => r.level = .warning
    (∀ name i, t.lookup? name = some i ↔ IsGreatest {j | p.Declares name j} i) ∧
    (∀ name, t.lookup? name = none ↔ ∀ i, ¬ p.Declares name i) ∧
    t.length = p.declaredNames.toFinset.card ∧
    (∀ name, (t.entries.map Prod.fst).count name = if name ∈ p.declaredNames then 1 else 0) ∧
    (∀ name i, (name, i) ∈ t.entries ↔ t.lookup? name = some i) ∧
    (warnings = ((LabelTable.declarations p).filter fun d => ∃ j < d.2, p.Declares d.1.name j).map
      fun d => .redeclared d.1.name d.1.token.line) ∧
    warnings.length + t.length = (LabelTable.declarations p).length ∧
    ∀ m : Machine, m.program = p → ∀ n condition l,
      let before := m.steps n
      let after := m.steps (n + 1)
      before.current? = some (.instruction (.branch condition l)) →
      condition.holds before.flags → before.step.fault? = none →
      after.pc < p.length ∧ IsGreatest {j | p.Declares l.name j} after.pc := by
  intro t warnings
  have hwarnings : warnings =
      (LabelTable.repeated p).map fun d => .redeclared d.1.name d.1.token.line :=
    LabelTable.warnings_records p
  refine ⟨fun name i => LabelTable.lookup?_ofProgram_eq_some_iff,
    fun name => LabelTable.lookup?_ofProgram_eq_none_iff_forall, LabelTable.length_ofProgram p,
    fun name => ?_, fun name i => LabelTable.mem_entries_iff t, hwarnings, ?_,
    fun m hm n condition l => ?_⟩
  · rw [t.nodup.count]
    exact if_congr LabelTable.mem_names_ofProgram_iff rfl rfl
  · rw [hwarnings, List.length_map]
    exact LabelTable.length_repeated_add_length p
  · intro before after hs hholds hfault
    have hgreatest := Machine.isGreatest_pc_step hs hholds hfault
    rw [Machine.program_steps, hm] at hgreatest
    have hafter : after = before.step.machine := m.steps_succ_last n
    rw [hafter]
    exact ⟨hgreatest.1.lt_length, hgreatest⟩

/-- Branches ahead to `dup`, which is declared before and behind the statement that halts. -/
def jumpingAhead : Program :=
  let label (name : String) : Label := ⟨⟨.identifier, name, some (.name name), 1, ⟨0, 3⟩⟩, rfl⟩
  [.instruction (.branch .always (label "dup")), .label (label "dup"), .instruction .halt,
    .label (label "dup")]

theorem labels_stand_for_last_declaration_jumpingAhead :
    (LabelTable.ofProgram jumpingAhead).lookup? "dup" = some 3 ∧
    IsGreatest {j | jumpingAhead.Declares "dup" j} 3 ∧
    (LabelTable.ofProgram jumpingAhead).length = 1 ∧
    ((LabelTable.records jumpingAhead).filter fun r => r.level = .warning).length = 1 ∧
    ((Machine.load jumpingAhead ⟨1, 16, false⟩).steps 1).pc = 3 := by
  obtain ⟨hlast, -, hlength, -, -, -, hwarnings, hbranch⟩ :=
    labels_stand_for_last_declaration jumpingAhead
  have hlookup : (LabelTable.ofProgram jumpingAhead).lookup? "dup" = some 3 := by decide
  have hnames : (LabelTable.ofProgram jumpingAhead).length = 1 := by
    rw [hlength]
    decide
  have hgreatest := (hlast "dup" 3).1 hlookup
  have htaken := hbranch (Machine.load jumpingAhead ⟨1, 16, false⟩) rfl 0 .always
    ⟨⟨.identifier, "dup", some (.name "dup"), 1, ⟨0, 3⟩⟩, rfl⟩ rfl rfl rfl
  refine ⟨hlookup, hgreatest, hnames, ?_, IsGreatest.unique htaken.2 hgreatest⟩
  rw [hnames] at hwarnings
  exact Nat.succ.inj hwarnings

end AqaAssembly
