import AqaAssembly.Program.LabelTable

/-!
# Where a label is declared

The table of a program against the program itself: a name stands for its last declaration
(`lookup?_ofProgram`), and it stands for nothing exactly if no statement declares it
(`lookup?_ofProgram_eq_none_iff`).
-/

namespace AqaAssembly.LabelTable

/-- The declarations of a program are its labels with their places. -/
theorem mem_declarations {p : Program} {l : Operand.Label} {i : Nat} :
    (l, i) ∈ declarations p ↔ p[i]? = some (.label l) := by
  unfold declarations
  rw [List.mem_filterMap]
  constructor
  · rintro ⟨⟨s, j⟩, hmem, hlabel⟩
    rw [List.mem_zipIdx_iff_getElem?] at hmem
    cases s with
    | instruction k => cases hlabel
    | label k =>
      cases hlabel
      exact hmem
  · intro h
    exact ⟨(.label l, i), List.mem_zipIdx_iff_getElem?.2 h, rfl⟩

/-- Declaring one label after another, the last declaration of a name counts. -/
theorem lookup?_foldl_declare (ds : List (Operand.Label × Nat)) (t : LabelTable) (name : String) :
    (ds.foldl (fun t (l, i) => t.declare l.name i) t).lookup? name =
      ((ds.reverse.find? fun d => d.1.name = name).map Prod.snd).or (t.lookup? name) := by
  induction ds generalizing t with
  | nil => rfl
  | cons d ds ih =>
    rw [List.foldl_cons, ih, lookup?_declare, List.reverse_cons, List.find?_append]
    cases hd : ds.reverse.find? fun e => e.1.name = name with
    | some e => rfl
    | none =>
      by_cases hn : name = d.1.name
      · simp [hn]
      · simp [hn, Ne.symm hn]

/-- A name stands for the place of its last declaration. -/
theorem lookup?_ofProgram (p : Program) (name : String) :
    (ofProgram p).lookup? name =
      ((declarations p).reverse.find? fun d => d.1.name = name).map Prod.snd := by
  rw [ofProgram, lookup?_foldl_declare]
  exact Option.or_none

/-- A name stands for a place in the program. -/
theorem lt_length_of_lookup? {p : Program} {name : String} {i : Nat}
    (h : (ofProgram p).lookup? name = some i) : i < p.length := by
  rw [lookup?_ofProgram] at h
  obtain ⟨⟨l, j⟩, hfind, rfl⟩ := Option.map_eq_some_iff.1 h
  have hmem := List.mem_reverse.1 (List.mem_of_find?_eq_some hfind)
  exact (List.getElem?_eq_some_iff.1 (mem_declarations.1 hmem)).1

/-- A name stands for nothing exactly if no statement declares it. -/
theorem lookup?_ofProgram_eq_none_iff {p : Program} {name : String} :
    (ofProgram p).lookup? name = none ↔ ∀ l, Statement.label l ∈ p → l.name ≠ name := by
  rw [lookup?_ofProgram, Option.map_eq_none_iff, List.find?_eq_none]
  simp only [List.mem_reverse, decide_eq_true_eq]
  constructor
  · intro h l hl
    obtain ⟨i, hi⟩ := List.mem_iff_getElem?.1 hl
    exact h (l, i) (mem_declarations.2 hi)
  · rintro h ⟨l, i⟩ hd
    exact h l (List.mem_of_getElem? (mem_declarations.1 hd))

end AqaAssembly.LabelTable
