import AqaAssembly.Proofs.Machine.Cells
import Mathlib.Data.List.Induction

/-!
# Reading and writing a bank

The cells of a bank are read and written through operands, in any order, and some of the operands
name cells that the bank does not have (`Bank.Access`).  What becomes of the bank is told without
it: the value under a number is the last one that was put there, or 0 (`Bank.lastPut?`).

* `at?_next`: what one access does to the map that a bank is;
* `at?_after`: what the map is after any number of accesses to a new bank.

The main result is `Bank.accesses_as_finite_map`.
-/

namespace AqaAssembly

namespace Storage

/-- Does a bank of the given size have a cell with the number?  Registers are counted from 1 and
memory cells from 0. -/
def HasCell : Storage → Nat → Int → Prop
  | registers, size, number => 1 ≤ number ∧ number ≤ size
  | memory, size, number => 0 ≤ number ∧ number < size

instance (s : Storage) (size : Nat) (number : Int) : Decidable (s.HasCell size number) :=
  match s with
  | registers | memory => instDecidableAnd

theorem hasCell_iff {s : Storage} {size : Nat} {number : Int} :
    s.HasCell size number ↔ s.origin ≤ number ∧ number < s.origin + size := by
  cases s with
  | registers =>
    simp only [HasCell, origin]
    omega
  | memory =>
    simp only [HasCell, origin]
    omega

end Storage

namespace Bank

variable {s : Storage}

/-- An access to a bank through an operand. -/
inductive Access (s : Storage)
  | get (x : Operand.Number s.form)
  | set (x : Operand.Number s.form) (value : Int64)

namespace Access

/-- The operand that names the cell. -/
def operand : Access s → Operand.Number s.form
  | get x | set x _ => x

/-- The number of the cell. -/
def number (a : Access s) : Int := a.operand.value.toInt

/-- What the access answers: the value that is read, if one is read, or a fault. -/
def answer : Access s → Bank s → Except Fault (Option Int64)
  | get x, b => (b.get x).map some
  | set x value, b => (b.set x value).map fun _ => none

/-- The bank afterwards. -/
def next : Access s → Bank s → Bank s
  | get _, b => b
  | set x value, b =>
    match b.set x value with
    | .ok c => c
    | .error _ => b

/-- The value that the access puts under the number, if that is its number and a bank of the given
size has the cell. -/
def put? (size : Nat) (number : Int) : Access s → Option Int64
  | get _ => none
  | set x value => if x.value.toInt = number ∧ s.HasCell size number then some value else none

end Access

/-- The bank after one access after another. -/
def after (accesses : List (Access s)) (b : Bank s) : Bank s :=
  accesses.foldl (fun b a => a.next b) b

/-- The last value that the accesses put under the number. -/
def lastPut? (size : Nat) (accesses : List (Access s)) (number : Int) : Option Int64 :=
  (accesses.filterMap (Access.put? size number)).getLast?

/-! ## One access -/

/-- The numbers of a bank are those that have a value. -/
theorem hasCell_iff_isSome {b : Bank s} {number : Int} :
    s.HasCell b.size number ↔ (b.at? number).isSome := by
  rw [at?_isSome_iff, Storage.hasCell_iff]

theorem not_hasCell_iff {b : Bank s} {number : Int} :
    ¬ s.HasCell b.size number ↔ b.at? number = none := by
  rw [hasCell_iff_isSome, Option.not_isSome_iff_eq_none]

theorem map_eq_error_iff {α β : Type} {g : α → β} {result : Except Fault α} {f : Fault} :
    result.map g = .error f ↔ result = .error f := by
  cases result with
  | ok a => exact ⟨nofun, nofun⟩
  | error e => rw [Except.map, Except.error.injEq, Except.error.injEq]

namespace Access

/-- An access fails exactly when the bank does not have the cell. -/
theorem answer_eq_error_iff {a : Access s} {b : Bank s} {f : Fault} :
    a.answer b = .error f ↔ ¬ s.HasCell b.size a.number ∧ f = missing a.operand := by
  rw [not_hasCell_iff]
  cases a with
  | get x => exact map_eq_error_iff.trans get_eq_error_iff
  | set x v => exact map_eq_error_iff.trans set_eq_error_iff

/-- An access that fails changes nothing. -/
theorem next_of_error {a : Access s} {b : Bank s} {f : Fault} (h : a.answer b = .error f) :
    a.next b = b := by
  cases a with
  | get x => rfl
  | set x v =>
    have hset : b.set x v = .error f := map_eq_error_iff.1 h
    rw [next, hset]

theorem size_next (a : Access s) (b : Bank s) : (a.next b).size = b.size := by
  cases a with
  | get x => rfl
  | set x v =>
    rw [next]
    cases h : b.set x v with
    | ok c => exact size_of_set h
    | error f => rfl

/-- Only cells that exist are put into. -/
theorem hasCell_of_put? {a : Access s} {size : Nat} {number : Int} {v : Int64}
    (h : a.put? size number = some v) : s.HasCell size number := by
  cases a with
  | get x => cases h
  | set x w =>
    rw [put?] at h
    split at h
    · rename_i hput
      exact hput.2
    · cases h

/-- An access puts its value under its number, and leaves what is under every other. -/
theorem at?_next (a : Access s) (b : Bank s) (number : Int) :
    (a.next b).at? number = (a.put? b.size number).or (b.at? number) := by
  cases a with
  | get x => rfl
  | set x v =>
    rw [next, put?]
    cases h : b.set x v with
    | ok c =>
      have hcell : s.HasCell b.size x.value.toInt := by
        by_contra hnot
        rw [set_eq_error_iff.2 ⟨not_hasCell_iff.1 hnot, rfl⟩] at h
        cases h
      rw [at?_of_set h]
      by_cases hnumber : number = x.value.toInt
      · subst hnumber
        rw [if_pos rfl, if_pos ⟨rfl, hcell⟩, Option.some_or]
      · rw [if_neg hnumber, if_neg fun hput => hnumber hput.1.symm, Option.none_or]
    | error f =>
      have hnone : b.at? x.value.toInt = none := (set_eq_error_iff.1 h).1
      rw [if_neg, Option.none_or]
      rintro ⟨rfl, hcell⟩
      exact not_hasCell_iff.2 hnone hcell

end Access

/-! ## One access after another -/

theorem after_concat (accesses : List (Access s)) (a : Access s) (b : Bank s) :
    b.after (accesses ++ [a]) = a.next (b.after accesses) := by
  rw [after, List.foldl_append]
  rfl

theorem size_after (accesses : List (Access s)) (b : Bank s) :
    (b.after accesses).size = b.size := by
  induction accesses using List.reverseRecOn with
  | nil => rfl
  | append_singleton accesses a ih => rw [after_concat, Access.size_next, ih]

theorem lastPut?_concat (size : Nat) (accesses : List (Access s)) (a : Access s) (number : Int) :
    lastPut? size (accesses ++ [a]) number =
      (a.put? size number).or (lastPut? size accesses number) := by
  rw [lastPut?, List.filterMap_append, List.getLast?_append]
  cases h : a.put? size number with
  | none => simp [h, lastPut?]
  | some v => simp [h]

/-- A new bank holds 0 under each of its numbers. -/
theorem at?_zeros (size : Nat) (number : Int) :
    (zeros size : Bank s).at? number = if s.HasCell size number then some 0 else none := by
  split
  · rename_i hcell
    rw [← size_zeros (s := s) size, hasCell_iff_isSome] at hcell
    obtain ⟨v, hv⟩ := Option.isSome_iff_exists.1 hcell
    rw [hv, eq_zero_of_at?_zeros hv]
  · rename_i hnot
    rw [← size_zeros (s := s) size] at hnot
    exact not_hasCell_iff.1 hnot

/-- Under each of its numbers a bank holds the last value that was put there. -/
theorem at?_after (size : Nat) (accesses : List (Access s)) (number : Int) :
    ((zeros size).after accesses).at? number =
      if s.HasCell size number then some ((lastPut? size accesses number).getD 0) else none := by
  induction accesses using List.reverseRecOn with
  | nil => exact at?_zeros size number
  | append_singleton accesses a ih =>
    rw [after_concat, Access.at?_next, ih, size_after, size_zeros, lastPut?_concat]
    cases h : a.put? size number with
    | none => rw [Option.none_or, Option.none_or]
    | some v =>
      rw [Option.some_or, Option.some_or, if_pos (Access.hasCell_of_put? h), Option.getD_some]

/-- The cells of a bank stand in the order of their numbers, the first number first. -/
theorem at?_eq_some_iff {b : Bank s} {number : Int} {v : Int64} :
    b.at? number = some v ↔ ∃ i : Nat, number = s.origin + i ∧ b.cells[i]? = some v := by
  constructor
  · intro h
    have hcell : s.origin ≤ number := ((at?_isSome_iff b number).1 (by rw [h]; rfl)).1
    obtain ⟨i, hi⟩ := Int.le.dest hcell
    exact ⟨i, hi.symm, by rw [← at?_origin_add, hi, h]⟩
  · rintro ⟨i, rfl, hi⟩
    rw [at?_origin_add, hi]

/-- A new bank is read and written any number of times through operands.  From then on an access
succeeds exactly when the bank has the cell: registers are numbered from 1 to the size of the bank,
memory cells from 0 to one less.  An access that fails is the fault of its own operand and changes
nothing.  A cell that exists reads as the last value that was put there, whichever tokens the
operands were, or as 0 if there was none.  The cells are held in the order of their numbers, and
there are always as many as there were. -/
theorem accesses_as_finite_map (size : Nat) (accesses : List (Access s)) :
    let b : Bank s := (zeros size).after accesses
    (∀ a : Access s, (∃ answer, a.answer b = .ok answer) ↔ s.HasCell size a.number) ∧
    (∀ (a : Access s) (f : Fault), a.answer b = .error f ↔
      ¬ s.HasCell size a.number ∧ f = ⟨s.outOfRange, a.operand.token⟩) ∧
    (∀ (a : Access s) (f : Fault), a.answer b = .error f → a.next b = b) ∧
    (∀ (x : Operand.Number s.form) (v : Int64), b.get x = .ok v ↔
      s.HasCell size x.value.toInt ∧ v = (lastPut? size accesses x.value.toInt).getD 0) ∧
    (∀ (x : Operand.Number s.form) (v : Int64), b.get x = .ok v ↔
      ∃ i : Nat, x.value.toInt = s.origin + i ∧ b.cells[i]? = some v) ∧
    b.cells.size = size := by
  intro b
  have hsize : b.size = size := (size_after accesses (zeros size)).trans (size_zeros size)
  have herror : ∀ (a : Access s) (f : Fault), a.answer b = .error f ↔
      ¬ s.HasCell size a.number ∧ f = missing a.operand := by
    intro a f
    rw [Access.answer_eq_error_iff, hsize]
  refine ⟨fun a => ?_, herror, fun a f => Access.next_of_error, fun x v => ?_, fun x v => ?_, hsize⟩
  · cases h : a.answer b with
    | ok answer =>
      refine ⟨fun _ => ?_, fun _ => ⟨answer, rfl⟩⟩
      by_contra hnot
      rw [(herror a _).2 ⟨hnot, rfl⟩] at h
      cases h
    | error f => exact ⟨nofun, fun hcell => absurd hcell ((herror a f).1 h).1⟩
  · rw [get_eq_ok_iff, at?_after]
    by_cases hcell : s.HasCell size x.value.toInt
    · rw [if_pos hcell, Option.some.injEq]
      exact ⟨fun h => ⟨hcell, h.symm⟩, fun h => h.2.symm⟩
    · rw [if_neg hcell]
      exact ⟨nofun, fun h => absurd h.1 hcell⟩
  · rw [get_eq_ok_iff, at?_eq_some_iff]

/-- Of four registers the first is written twice, under two spellings, and the fifth does not exist.
The first reads as what was written last, the fourth as 0, and a register before the first is as
little there as one behind the last. -/
theorem accesses_as_finite_map_overwriting :
    let r (text : String) (n : Int64) : Operand.Register :=
      ⟨n, ⟨.register, text, some (.integer n), 1, ⟨0, text.utf8ByteSize⟩⟩, rfl, rfl⟩
    let b : Registers :=
      (zeros 4).after [.set (r "r1" 1) 10, .set (r "r01" 1) 20, .set (r "r5" 5) 30]
    let before : Access .registers := .get (r "r0" 0)
    let behind : Access .registers := .set (r "r5" 5) 40
    b.get (r "r1" 1) = .ok 20 ∧ b.get (r "r4" 4) = .ok 0 ∧
    before.answer b = .error ⟨.registerOutOfRange, before.operand.token⟩ ∧
    behind.answer b = .error ⟨.registerOutOfRange, behind.operand.token⟩ ∧
    behind.next b = b ∧ b.cells.size = 4 := by
  intro r b before behind
  obtain ⟨-, herror, hnext, hget, -, hsize⟩ := accesses_as_finite_map (s := .registers) 4
    [.set (r "r1" 1) 10, .set (r "r01" 1) 20, .set (r "r5" 5) 30]
  have hbefore := (herror before _).2 ⟨by decide, rfl⟩
  have hbehind := (herror behind _).2 ⟨by decide, rfl⟩
  exact ⟨(hget _ _).2 ⟨by decide, by decide⟩, (hget _ _).2 ⟨by decide, by decide⟩, hbefore,
    hbehind, hnext behind _ hbehind, hsize⟩

end Bank

end AqaAssembly
