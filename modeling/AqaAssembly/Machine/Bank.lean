import AqaAssembly.Machine.Fault
import AqaAssembly.Operand

/-!
# Banks of cells

The registers and the memory of a machine are banks of cells that hold signed 64-bit values.  The
cells of a bank are numbered consecutively: the registers from 1, the memory from 0.  A cell that
the bank does not have can be neither read nor written, and the attempt is a fault of the operand
that named it.

Writing changes one cell and no other (`getElem?_write?`).
-/

namespace AqaAssembly

/-- The two banks of a machine. -/
inductive Storage
  | registers | memory
  deriving DecidableEq, Repr

namespace Storage

/-- How a cell of the bank is written as an operand. -/
@[reducible] def form : Storage → Numeral
  | registers => .register
  | memory => .address

/-- The number of the first cell. -/
def origin : Storage → Int
  | registers => 1
  | memory => 0

/-- The place of the cell with the given number, counted from 0.  Numbers before the first have no
place. -/
def place? (s : Storage) (number : Int64) : Option Nat :=
  if s.origin ≤ number.toInt then some (number.toInt - s.origin).toNat else none

/-- What is wrong when a cell is asked for that does not exist. -/
def outOfRange : Storage → Fault.Cause
  | registers => .registerOutOfRange
  | memory => .addressOutOfRange

end Storage

/-- The cells of a bank, in the order of their numbers. -/
structure Bank (s : Storage) where
  cells : Array Int64
  deriving DecidableEq

/-- The registers of a machine. -/
abbrev Registers := Bank .registers

/-- The memory of a machine. -/
abbrev Memory := Bank .memory

namespace Bank

variable {s : Storage}

/-- The bank with the given number of cells, all of which hold 0. -/
def zeros (size : Nat) : Bank s := ⟨Array.replicate size 0⟩

/-- The number of cells. -/
def size (b : Bank s) : Nat := b.cells.size

/-- Puts a value into the cell at a place, counted from 0. -/
def write? (b : Bank s) (place : Nat) (value : Int64) : Option (Bank s) :=
  if h : place < b.cells.size then some ⟨b.cells.set place value⟩ else none

/-- The fault of an operand that names no cell. -/
def missing (x : Operand.Number s.form) : Fault := ⟨s.outOfRange, x.token⟩

/-- The value of the cell that the operand names. -/
def get (b : Bank s) (x : Operand.Number s.form) : Except Fault Int64 :=
  match (s.place? x.value).bind fun i => b.cells[i]? with
  | some value => .ok value
  | none => .error (missing x)

/-- Puts a value into the cell that the operand names. -/
def set (b : Bank s) (x : Operand.Number s.form) (value : Int64) : Except Fault (Bank s) :=
  match (s.place? x.value).bind fun i => b.write? i value with
  | some c => .ok c
  | none => .error (missing x)

/-! ## Writing a cell -/

@[simp] theorem size_zeros (n : Nat) : (zeros n : Bank s).size = n := by simp [zeros, size]

theorem write?_eq_some_iff {b c : Bank s} {i : Nat} {v : Int64} :
    b.write? i v = some c ↔ ∃ h : i < b.cells.size, c = ⟨b.cells.set i v⟩ := by
  unfold write?
  split
  · simp_all [eq_comm]
  · simp only [reduceCtorEq, false_iff]
    rintro ⟨h, -⟩
    contradiction

/-- Writing a cell changes that cell and no other. -/
theorem getElem?_write? {b c : Bank s} {i : Nat} {v : Int64} (h : b.write? i v = some c)
    (j : Nat) : c.cells[j]? = if i = j then some v else b.cells[j]? := by
  obtain ⟨hi, rfl⟩ := write?_eq_some_iff.1 h
  rw [Array.getElem?_set]

theorem size_write? {b c : Bank s} {i : Nat} {v : Int64} (h : b.write? i v = some c) :
    c.size = b.size := by
  obtain ⟨hi, rfl⟩ := write?_eq_some_iff.1 h
  simp [size]

theorem set_eq_ok_iff {b c : Bank s} {x : Operand.Number s.form} {v : Int64} :
    b.set x v = .ok c ↔ ∃ i, s.place? x.value = some i ∧ b.write? i v = some c := by
  unfold set
  split
  · rename_i d hd
    rw [Option.bind_eq_some_iff] at hd
    obtain ⟨i, hi, hw⟩ := hd
    simp [hi, hw]
  · rename_i hn
    simp only [reduceCtorEq, false_iff]
    rintro ⟨i, hi, hw⟩
    simp [hi, hw] at hn

/-- Writing never changes the number of cells. -/
theorem size_of_set {b c : Bank s} {x : Operand.Number s.form} {v : Int64}
    (h : b.set x v = .ok c) : c.size = b.size := by
  obtain ⟨i, -, hw⟩ := set_eq_ok_iff.1 h
  exact size_write? hw

end Bank

end AqaAssembly
