import AqaAssembly.Machine.Step
import Mathlib.Data.Int.ModEq

/-!
# What the operations compute

Values are the integers from `-2 ^ 63` to `2 ^ 63 - 1`, and also rows of 64 bits.  The operations of
the machine are described here by these two views and not by how they are computed:

* `Operation.gives_iff`: a sum or a difference is the value congruent to it modulo `2 ^ 64`, and the
  other operations combine the values bit by bit;
* `complements_iff`: every bit is inverted;
* `Shift.gives_iff`: a shift multiplies by a power of two, modulo `2 ^ 64`, or divides by it and
  rounds down, whatever the amount.

In each case exactly one value is as described.
-/

namespace AqaAssembly

/-- A bit of a value, counted from the least significant one. -/
def bit (v : Int64) (i : Nat) : Bool := v.toBitVec.getLsbD i

/-- The result of an operation on two values. -/
def Operation.Gives (left right result : Int64) : Operation → Prop
  | add => result.toInt ≡ left.toInt + right.toInt [ZMOD 2 ^ 64]
  | subtract => result.toInt ≡ left.toInt - right.toInt [ZMOD 2 ^ 64]
  | and => ∀ i < 64, bit result i = (bit left i && bit right i)
  | or => ∀ i < 64, bit result i = (bit left i || bit right i)
  | exclusiveOr => ∀ i < 64, bit result i = (bit left i ^^ bit right i)

/-- The result of inverting all bits of a value. -/
def Complements (value result : Int64) : Prop := ∀ i < 64, bit result i = !bit value i

/-- The result of a shift by an amount that is not negative. -/
def Shift.Gives (value amount result : Int64) : Shift → Prop
  | left => result.toInt ≡ value.toInt * 2 ^ amount.toInt.toNat [ZMOD 2 ^ 64]
  | right => result.toInt = value.toInt / 2 ^ amount.toInt.toNat

/-! ## Values are determined by their residues and by their bits -/

theorem eq_of_modEq {a b : Int64} (h : a.toInt ≡ b.toInt [ZMOD 2 ^ 64]) : a = b := by
  have ha := a.toInt_lt
  have ha' := a.le_toInt
  have hb := b.toInt_lt
  have hb' := b.le_toInt
  refine Int64.toInt_inj.1 ?_
  rw [Int.ModEq] at h
  omega

theorem modEq_iff {a : Int64} {n : Int} :
    a.toInt ≡ n [ZMOD 2 ^ 64] ↔ a = Int64.ofInt n := by
  have hn : (Int64.ofInt n).toInt ≡ n [ZMOD 2 ^ 64] := by
    rw [Int64.toInt_ofInt]
    exact Int.bmod_emod
  constructor
  · intro h
    exact eq_of_modEq (h.trans hn.symm)
  · rintro rfl
    exact hn

theorem eq_iff_bit {a b : Int64} : a = b ↔ ∀ i < 64, bit a i = bit b i := by
  constructor
  · rintro rfl i -
    rfl
  · intro h
    exact Int64.toBitVec_inj.1 (BitVec.eq_of_getLsbD_eq fun i hi => h i hi)

/-! ## Operations -/

theorem Operation.gives_iff {left right result : Int64} (op : Operation) :
    op.Gives left right result ↔ result = op.apply left right := by
  cases op with
  | add => rw [Gives, modEq_iff, apply, Int64.ofInt_add, Int64.ofInt_toInt, Int64.ofInt_toInt]
  | subtract =>
    rw [Gives, modEq_iff, apply, Int64.ofInt_sub, Int64.ofInt_toInt, Int64.ofInt_toInt]
  | and =>
    rw [Gives, apply, eq_iff_bit]
    simp only [bit, Int64.toBitVec_and, BitVec.getLsbD_and]
  | or =>
    rw [Gives, apply, eq_iff_bit]
    simp only [bit, Int64.toBitVec_or, BitVec.getLsbD_or]
  | exclusiveOr =>
    rw [Gives, apply, eq_iff_bit]
    simp only [bit, Int64.toBitVec_xor, BitVec.getLsbD_xor]

theorem complements_iff {value result : Int64} :
    Complements value result ↔ result = ~~~value := by
  rw [Complements, eq_iff_bit]
  refine forall_congr' fun i => imp_congr_right fun hi => ?_
  simp only [bit, Int64.toBitVec_not, BitVec.getLsbD_not, hi, decide_true, Bool.true_and]

/-! ## Shifts -/

/-- An amount below 64 is the number of places by which the machine word is shifted. -/
theorem toNat_smod {amount : Int64} (h : 0 ≤ amount.toInt) (h' : amount.toInt < 64) :
    (amount.toBitVec.smod 64).toNat = amount.toInt.toNat := by
  have hmod : (amount.toBitVec.smod 64).toInt = amount.toInt := by
    rw [BitVec.toInt_smod]
    exact Int.fmod_eq_of_lt h h'
  have hnat := BitVec.toInt_eq_toNat_bmod (amount.toBitVec.smod 64)
  have hlt := (amount.toBitVec.smod 64).isLt
  rw [hmod, Int.bmod_def] at hnat
  omega

/-- What is shifted out of the word on the left is a multiple of `2 ^ 64`. -/
theorem two_pow_modEq_zero {n : Nat} (h : 64 ≤ n) : (2 : Int) ^ n ≡ 0 [ZMOD 2 ^ 64] :=
  Int.modEq_zero_iff_dvd.2 (pow_dvd_pow 2 h)

theorem toInt_apply_left {value amount : Int64} (h : 0 ≤ amount.toInt) :
    (Shift.left.apply value amount).toInt ≡
      value.toInt * 2 ^ amount.toInt.toNat [ZMOD 2 ^ 64] := by
  rw [Shift.apply]
  split
  · rename_i hlt
    have hlt : amount.toInt < 64 := Int64.lt_iff_toInt_lt.1 hlt
    have hnat : (value.toBitVec.toNat : Int) ≡ value.toInt [ZMOD 2 ^ 64] := by
      rw [← Int64.toInt_toBitVec, BitVec.toInt_eq_toNat_bmod]
      exact Int.bmod_emod.symm
    rw [← Int64.toInt_toBitVec, Int64.toBitVec_shiftLeft, BitVec.shiftLeft_eq',
      toNat_smod h hlt, BitVec.toInt_shiftLeft, Nat.shiftLeft_eq]
    push_cast
    exact Int.bmod_emod.trans (hnat.mul_right _)
  · rename_i hge
    have hge : 64 ≤ amount.toInt.toNat := by
      rw [Int64.lt_iff_toInt_lt] at hge
      have : (64 : Int64).toInt = 64 := rfl
      omega
    have hzero := (two_pow_modEq_zero hge).mul_left value.toInt
    rw [mul_zero] at hzero
    exact hzero.symm

/-- Past 63 places only the sign of a value is left. -/
theorem ediv_two_pow_eq_sign (value : Int64) {n : Nat} (h : 64 ≤ n) :
    value.toInt / 2 ^ n = if value.toInt < 0 then -1 else 0 := by
  have hlt := value.toInt_lt
  have hle := value.le_toInt
  have hpow : (2 : Int) ^ 64 ≤ 2 ^ n := by
    exact_mod_cast Nat.pow_le_pow_right (by decide) h
  split
  · rename_i hneg
    exact Int.ediv_eq_neg_one_of_neg_of_le hneg (by omega)
  · rename_i hnonneg
    exact Int.ediv_eq_zero_of_lt (by omega) (by omega)

theorem toInt_apply_right {value amount : Int64} (h : 0 ≤ amount.toInt) :
    (Shift.right.apply value amount).toInt = value.toInt / 2 ^ amount.toInt.toNat := by
  rw [Shift.apply]
  split
  · rename_i hlt
    have hlt : amount.toInt < 64 := Int64.lt_iff_toInt_lt.1 hlt
    rw [← Int64.toInt_toBitVec, Int64.toBitVec_shiftRight, BitVec.sshiftRight_eq',
      toNat_smod h hlt, BitVec.toInt_sshiftRight, Int.shiftRight_eq_div_pow,
      Int64.toInt_toBitVec]
    push_cast
    rfl
  · rename_i hge
    have hge : 64 ≤ amount.toInt.toNat := by
      rw [Int64.lt_iff_toInt_lt] at hge
      have : (64 : Int64).toInt = 64 := rfl
      omega
    rw [ediv_two_pow_eq_sign value hge]
    by_cases hneg : value < 0
    · have hneg' : value.toInt < 0 := Int64.lt_iff_toInt_lt.1 hneg
      rw [if_pos hneg, if_pos hneg']
      rfl
    · have hneg' : ¬ value.toInt < 0 := fun h' => hneg (Int64.lt_iff_toInt_lt.2 h')
      rw [if_neg hneg, if_neg hneg']
      rfl

theorem Shift.gives_iff {value amount result : Int64} (h : 0 ≤ amount.toInt) (d : Shift) :
    d.Gives value amount result ↔ result = d.apply value amount := by
  cases d with
  | left =>
    constructor
    · intro hr
      exact eq_of_modEq (hr.trans (toInt_apply_left h).symm)
    · rintro rfl
      exact toInt_apply_left h
  | right => rw [Gives, ← toInt_apply_right h, Int64.toInt_inj]

end AqaAssembly
