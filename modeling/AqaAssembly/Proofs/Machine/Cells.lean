import AqaAssembly.Machine.Bank

/-!
# Banks as finite maps

A bank of cells seen as a map from numbers to values (`Bank.at?`).  The registers of a bank of size
`n` are numbered from 1 to `n`, its memory cells from 0 to `n - 1`, and no other number has a value.
Reading, writing and their faults are described by this map alone:

* `at?_isSome_iff`: which numbers have a value;
* `get_eq_ok_iff`, `get_eq_error_iff`: reading gives the value, or the fault of the operand;
* `set_eq_error_iff`, `at?_of_set`: writing changes one value, or is the same fault.
-/

namespace AqaAssembly.Bank

variable {s : Storage}

/-- The value of the cell with the given number, if the bank has that cell. -/
def at? (b : Bank s) (number : Int) : Option Int64 :=
  if s.origin ≤ number then b.cells[(number - s.origin).toNat]? else none

/-! ## The numbers of the cells -/

theorem at?_eq (b : Bank s) (number : Int64) :
    b.at? number.toInt = (s.place? number).bind fun i => b.cells[i]? := by
  unfold at? Storage.place?
  by_cases h : s.origin ≤ number.toInt
  · rw [if_pos h, if_pos h, Option.bind_some]
  · rw [if_neg h, if_neg h, Option.bind_none]

/-- A bank has as many consecutive numbers as it has cells. -/
theorem at?_isSome_iff (b : Bank s) (number : Int) :
    (b.at? number).isSome ↔ s.origin ≤ number ∧ number < s.origin + b.size := by
  unfold at?
  by_cases h : s.origin ≤ number
  · rw [if_pos h, isSome_getElem?, size]
    omega
  · rw [if_neg h]
    simp [h]

/-- The cells of a bank in order have consecutive numbers. -/
theorem at?_origin_add (b : Bank s) (i : Nat) : b.at? (s.origin + i) = b.cells[i]? := by
  rw [at?, if_pos (by omega)]
  congr 1
  omega

/-- Every cell of a new bank holds 0. -/
theorem eq_zero_of_at?_zeros {size : Nat} {number : Int} {value : Int64}
    (h : (zeros size : Bank s).at? number = some value) : value = 0 := by
  unfold at? zeros at h
  split at h
  · rw [Array.getElem?_replicate] at h
    split at h
    · exact (Option.some.inj h).symm
    · cases h
  · cases h

/-! ## Reading -/

theorem get_eq_ok_iff {b : Bank s} {x : Operand.Number s.form} {v : Int64} :
    b.get x = .ok v ↔ b.at? x.value.toInt = some v := by
  rw [at?_eq]
  unfold get
  split
  · rename_i w hw
    rw [hw]
    simp
  · rename_i hn
    rw [hn]
    simp

theorem get_eq_error_iff {b : Bank s} {x : Operand.Number s.form} {f : Fault} :
    b.get x = .error f ↔ b.at? x.value.toInt = none ∧ f = missing x := by
  rw [at?_eq]
  unfold get
  split
  · rename_i w hw
    rw [hw]
    simp
  · rename_i hn
    rw [hn]
    simp [eq_comm]

/-! ## Writing -/

theorem write?_isNone_iff {b : Bank s} {i : Nat} {v : Int64} :
    b.write? i v = none ↔ b.cells[i]? = none := by
  unfold write?
  split
  · rename_i h
    simp [h]
  · rename_i h
    simpa using h

/-- A cell that cannot be read cannot be written either. -/
theorem set_eq_error_iff {b : Bank s} {x : Operand.Number s.form} {v : Int64} {f : Fault} :
    b.set x v = .error f ↔ b.at? x.value.toInt = none ∧ f = missing x := by
  have hnone : ((s.place? x.value).bind fun i => b.write? i v) = none ↔
      b.at? x.value.toInt = none := by
    rw [at?_eq, Option.bind_eq_none_iff, Option.bind_eq_none_iff]
    exact forall_congr' fun i => imp_congr_right fun _ => write?_isNone_iff
  unfold set
  split
  · rename_i c hc
    have hsome : b.at? x.value.toInt ≠ none := fun h => by
      rw [hnone.2 h] at hc
      cases hc
    simp [hsome]
  · rename_i hn
    simp [hnone.1 hn, eq_comm]

/-- Writing a cell gives it the value and changes no other cell. -/
theorem at?_of_set {b c : Bank s} {x : Operand.Number s.form} {v : Int64} (h : b.set x v = .ok c)
    (number : Int) :
    c.at? number = if number = x.value.toInt then some v else b.at? number := by
  obtain ⟨i, hi, hw⟩ := set_eq_ok_iff.1 h
  unfold Storage.place? at hi
  split at hi
  · rename_i hle
    have hplace : (x.value.toInt - s.origin).toNat = i := Option.some.inj hi
    unfold at?
    by_cases hn : number = x.value.toInt
    · rw [if_pos hn, hn, if_pos hle, getElem?_write? hw, if_pos hplace.symm]
    · rw [if_neg hn]
      by_cases hle' : s.origin ≤ number
      · rw [if_pos hle', if_pos hle', getElem?_write? hw, if_neg (by omega)]
      · rw [if_neg hle', if_neg hle']
  · cases hi

end AqaAssembly.Bank
