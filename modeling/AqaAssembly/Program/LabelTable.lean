import AqaAssembly.LogRecord

/-!
# Label tables

Where the labels of a program are declared.  A label may be declared more than once, and then its
last declaration is the one that counts; each further declaration is worth a warning.
-/

namespace AqaAssembly

/-- The places of labels by their names.  Each name occurs once. -/
structure LabelTable where
  entries : List (String × Nat)
  nodup : (entries.map Prod.fst).Nodup
  deriving DecidableEq

namespace LabelTable

/-- The table without labels. -/
def empty : LabelTable := ⟨[], List.nodup_nil⟩

/-- The place of the label with the given name. -/
def lookup? (t : LabelTable) (name : String) : Option Nat := t.entries.lookup name

/-- The number of labels. -/
def length (t : LabelTable) : Nat := t.entries.length

/-- The entries with the place of a label set. -/
def setEntry (name : String) (place : Nat) : List (String × Nat) → List (String × Nat)
  | [] => [(name, place)]
  | e :: es => if e.1 = name then (name, place) :: es else e :: setEntry name place es

theorem mem_names_setEntry {name other : String} {place : Nat} {es : List (String × Nat)} :
    other ∈ (setEntry name place es).map Prod.fst ↔ other = name ∨ other ∈ es.map Prod.fst := by
  fun_induction setEntry name place es with
  | case1 => simp
  | case2 e es h => simp [h]
  | case3 e es h ih =>
    rw [List.map_cons, List.mem_cons, ih, List.map_cons, List.mem_cons, or_left_comm]

theorem nodup_setEntry {name : String} {place : Nat} {es : List (String × Nat)}
    (h : (es.map Prod.fst).Nodup) : ((setEntry name place es).map Prod.fst).Nodup := by
  fun_induction setEntry name place es with
  | case1 => simp
  | case2 e es he => simpa [← he] using h
  | case3 e es he ih =>
    rw [List.map_cons, List.nodup_cons] at h ⊢
    exact ⟨fun hm => (mem_names_setEntry.1 hm).elim he h.1, ih h.2⟩

/-- The table in which a label is declared at a place, in lieu of any earlier declaration. -/
def declare (t : LabelTable) (name : String) (place : Nat) : LabelTable :=
  ⟨setEntry name place t.entries, nodup_setEntry t.nodup⟩

/-- The labels that a program declares, with their places. -/
def declarations (p : Program) : List (Operand.Label × Nat) :=
  p.zipIdx.filterMap fun (s, i) => s.label?.map fun l => (l, i)

/-- The label table of a program. -/
def ofProgram (p : Program) : LabelTable :=
  (declarations p).foldl (fun t (l, i) => t.declare l.name i) empty

/-- The labels that are declared again, given the names that have been declared before. -/
def redeclarations (seen : List String) : List Operand.Label → List Operand.Label
  | [] => []
  | l :: ls =>
    if l.name ∈ seen then l :: redeclarations seen ls else redeclarations (l.name :: seen) ls

/-- What is noted down while the labels of a program are resolved. -/
def records (p : Program) : List LogRecord :=
  (redeclarations [] (p.filterMap Statement.label?)).map
      (fun l => .redeclared l.name l.token.line) ++
    [.resolved (ofProgram p).length]

/-! ## Looking up what was declared -/

theorem lookup_setEntry (name other : String) (place : Nat) (es : List (String × Nat)) :
    (setEntry name place es).lookup other =
      if other = name then some place else es.lookup other := by
  fun_induction setEntry name place es with
  | case1 =>
    by_cases ho : other = name
    · simp [ho]
    · simp [List.lookup_cons, beq_eq_false_iff_ne.2 ho, ho]
  | case2 e es h =>
    obtain ⟨n, i⟩ := e
    subst h
    by_cases ho : other = n
    · simp [ho]
    · simp [List.lookup_cons, beq_eq_false_iff_ne.2 ho, ho]
  | case3 e es h ih =>
    obtain ⟨n, i⟩ := e
    by_cases hn : other = n
    · subst hn
      simp [show other ≠ name from h]
    · simp [List.lookup_cons, beq_eq_false_iff_ne.2 hn, ih]

/-- The last declaration of a label counts, and it does not touch the others. -/
theorem lookup?_declare (t : LabelTable) (name other : String) (place : Nat) :
    (t.declare name place).lookup? other =
      if other = name then some place else t.lookup? other :=
  lookup_setEntry name other place t.entries

end LabelTable

end AqaAssembly
