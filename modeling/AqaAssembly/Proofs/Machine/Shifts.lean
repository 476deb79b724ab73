import AqaAssembly.Proofs.Machine.Steps
import Mathlib.Data.Rat.Floor

/-!
# Shifts by any amount

The amount of a shift is a value like any other.  It may be negative, which is a fault, and it may
go far beyond the 64 bits that there are to shift:

* `Shift.right_gives_iff_floor`: a shift to the right divides by a power of two and rounds towards
  minus infinity;
* `Shift.apply_eq_getD_within?`: it does not matter if an amount is first cut down to 32 bits, since
  all amounts from 64 on leave the same of a value;
* `step_shift_of_negative`: a shift by a negative amount is refused.

The main result is `shifts_are_exact`.
-/

namespace AqaAssembly

open Operand

namespace Shift

variable {value amount result : Int64}

/-! ## Rounding -/

/-- A shift to the right gives a quotient of rational numbers, rounded down. -/
theorem right_gives_iff_floor :
    right.Gives value amount result ↔
      result.toInt = ⌊(value.toInt : ℚ) / 2 ^ amount.toInt.toNat⌋ := by
  have hfloor := Rat.floor_intCast_div_natCast value.toInt (2 ^ amount.toInt.toNat)
  push_cast at hfloor
  rw [Gives, hfloor]

/-! ## Amounts of 32 bits -/

/-- The number of places by which a value is shifted, in 32 bits.  An amount that does not fit
becomes the largest number that does. -/
def places (amount : Int64) : UInt32 := .ofNatClamp amount.toInt.toNat

/-- A value shifted by fewer places than it has bits. -/
def within? (value : Int64) (places : UInt32) : Shift → Option Int64
  | left => if places < 64 then some (.ofBitVec (value.toBitVec <<< places.toNat)) else none
  | right =>
    if places < 64 then some (.ofBitVec (value.toBitVec.sshiftRight places.toNat)) else none

/-- What is left of a value of which all bits were shifted out. -/
def remainder (value : Int64) : Shift → Int64
  | left => 0
  | right => if value < 0 then -1 else 0

theorem toNat_places_of_lt (h : amount.toInt < 64) :
    (places amount).toNat = amount.toInt.toNat := by
  have hsize : amount.toInt.toNat < UInt32.size := by
    rw [UInt32.size]
    omega
  exact UInt32.toNat_ofNatClamp_of_lt hsize

/-- The amounts below 64 are told apart from the others before and after they are cut down. -/
theorem places_lt_iff : places amount < 64 ↔ amount < 64 := by
  have h64 : (64 : Int64).toInt = 64 := rfl
  have h64' : (64 : UInt32).toNat = 64 := rfl
  rw [UInt32.lt_iff_toNat_lt, Int64.lt_iff_toInt_lt, h64, h64']
  constructor
  · intro h
    by_contra hge
    rcases lt_or_ge amount.toInt.toNat UInt32.size with hsize | hsize
    · rw [places, UInt32.toNat_ofNatClamp_of_lt hsize] at h
      omega
    · -- what does not fit becomes `2 ^ 32 - 1`, which is not below 64 either
      rw [places, UInt32.toNat_ofNatClamp_of_le hsize, UInt32.size] at h
      omega
  · intro h
    rw [toNat_places_of_lt h]
    omega

/-- The value that a shift gives is the value shifted by the amount cut down to 32 bits, or what is
left if that is too far. -/
theorem apply_eq_getD_within? (d : Shift) (h : 0 ≤ amount.toInt) :
    d.apply value amount = (d.within? value (places amount)).getD (d.remainder value) := by
  by_cases hlt : amount < 64
  · have hlt' : amount.toInt < 64 := Int64.lt_iff_toInt_lt.1 hlt
    have hplaces : (amount.toBitVec.smod 64).toNat = (places amount).toNat := by
      rw [toNat_smod h hlt', toNat_places_of_lt hlt']
    cases d with
    | left =>
      rw [apply, within?, if_pos hlt, if_pos (places_lt_iff.2 hlt), Option.getD_some, ← hplaces]
      rfl
    | right =>
      rw [apply, within?, if_pos hlt, if_pos (places_lt_iff.2 hlt), Option.getD_some, ← hplaces]
      rfl
  · have hge : ¬ places amount < 64 := fun h' => hlt (places_lt_iff.1 h')
    cases d with
    | left => rw [apply, within?, if_neg hlt, if_neg hge, Option.getD_none, remainder]
    | right => rw [apply, within?, if_neg hlt, if_neg hge, Option.getD_none, remainder]

end Shift

namespace Machine

variable {m : Machine} {direction : Shift} {rd rn : Register} {f : Flexible}

/-! ## Executing a shift -/

/-- A shift by a negative amount is refused before it is looked at where the result would go. -/
theorem step_shift_of_negative (hs : m.current? = some (.instruction (.shift direction rd rn f)))
    (hmet : ∀ c ∈ Check.register rn :: f.checks, c.Met m) {amount : Int64}
    (hamount : m.operand? f = some amount) (hneg : amount.toInt < 0) :
    m.step.fault? = some ⟨.negativeShift, f.token⟩ ∧
      m.step.machine = { m with fault? := some ⟨.negativeShift, f.token⟩ } := by
  have hlist : m.checks (.instruction (.shift direction rd rn f)) =
      (Check.register rn :: f.checks) ++ ([.notNegative f] ++ [.register rd]) := by
    simp [checks]
  have hfails : ¬ (Check.notNegative f).Met m := fun hpass =>
    absurd (hpass amount hamount) (Int.not_le.2 hneg)
  have hfirst : m.firstFailure (m.checks (.instruction (.shift direction rd rn f))) =
      some (Check.notNegative f).fault := by
    rw [hlist, firstFailure_append, firstFailure_eq_none_iff.2 hmet, firstFailure_append,
      firstFailure_singleton, if_neg hfails]
    rfl
  rw [step_of_error hs (performStatement_eq_error_iff.2 ⟨hfirst, rfl⟩)]
  exact ⟨rfl, rfl⟩

/-- When the registers that a shift names are there, the value that is shifted and the amount can be
any values.  If the amount is negative, the machine faults at the operand that gives the amount and
nothing else changes.  Otherwise exactly one register changes, without a fault.  A shift to the left
writes the one value that is congruent modulo `2 ^ 64` to the product with a power of two, and a
shift to the right the quotient by a power of two, rounded down; this value is also found by cutting
down the amount to 32 bits. -/
theorem shifts_are_exact (m : Machine) (direction : Shift) (rd rn : Register) (f : Flexible)
    (hs : m.current? = some (.instruction (.shift direction rd rn f)))
    (hrange : ∀ c ∈ Check.register rd :: .register rn :: f.checks, c.Met m) :
    ∃ value amount : Int64,
      m.registers.at? rn.value.toInt = some value ∧ m.operand? f = some amount ∧
      (amount.toInt < 0 →
        m.step.fault? = some ⟨.negativeShift, f.token⟩ ∧
        m.step.machine = { m with fault? := some ⟨.negativeShift, f.token⟩ }) ∧
      (0 ≤ amount.toInt →
        m.step.fault? = none ∧
        ∃ result : Int64, m.Shows (.setRegister rd.value.toInt result) m.step.machine ∧
          (direction = .left → ∀ v : Int64,
            v.toInt ≡ value.toInt * 2 ^ amount.toInt.toNat [ZMOD 2 ^ 64] ↔ v = result) ∧
          (direction = .right →
            result.toInt = ⌊(value.toInt : ℚ) / 2 ^ amount.toInt.toNat⌋) ∧
          result = (direction.within? value (Shift.places amount)).getD
            (direction.remainder value)) := by
  obtain ⟨hrd, hread⟩ := List.forall_mem_cons.1 hrange
  obtain ⟨hrn, hf⟩ := List.forall_mem_cons.1 hread
  obtain ⟨value, hvalue⟩ := Option.isSome_iff_exists.1 (register_met_iff.1 hrn)
  obtain ⟨amount, hamount⟩ := exists_operand?_eq hf
  refine ⟨value, amount, hvalue, hamount, fun hneg => ?_, fun hnonneg => ?_⟩
  · exact step_shift_of_negative hs hread hamount hneg
  · have hpass : (Check.notNegative f).Met m := by
      intro n hn
      obtain rfl := Option.some.inj (hamount.symm.trans hn)
      exact hnonneg
    have hmet : ∀ c ∈ m.checks (.instruction (.shift direction rd rn f)), c.Met m := by
      simp only [checks, List.forall_mem_cons, List.forall_mem_append]
      exact ⟨hrn, hf, hpass, hrd, fun _ h => absurd h List.not_mem_nil⟩
    obtain ⟨hfault, e, hasks, hshows⟩ := step_of_met hs hmet
    cases hasks with
    | @shift _ _ _ _ value' amount' result readValue readAmount _ gives =>
      obtain rfl := Option.some.inj (hvalue.symm.trans readValue)
      obtain rfl := Option.some.inj (hamount.symm.trans readAmount)
      have hresult := (Shift.gives_iff hnonneg direction).1 gives
      refine ⟨hfault, result, hshows, ?_, ?_, ?_⟩
      · rintro rfl v
        rw [hresult]
        exact Shift.gives_iff hnonneg .left
      · rintro rfl
        exact Shift.right_gives_iff_floor.1 gives
      · rw [hresult, Shift.apply_eq_getD_within? direction hnonneg]

/-- A shift of `r1` by `r2`, about to be executed. -/
def shifting (direction : Shift) (value amount : Int64) : Machine :=
  let r1 : Register := .ofValue .register 1
  let r2 : Register := .ofValue .register 2
  { load [.instruction (.shift direction r1 r1 (.register r2))] ⟨2, 0, false⟩ with
    registers := ⟨#[value, amount]⟩ }

/-- Far to the right only the sign is left, and there is no shift by less than nothing. -/
theorem shifts_are_exact_shifting :
    (shifting .right (-5) 4294967297).step.machine.registers.at? 1 = some (-1) ∧
    (shifting .left (-5) (-1)).step.machine.registers.at? 1 = some (-5) ∧
    (shifting .left (-5) (-1)).step.fault? =
      some ⟨.negativeShift, (Number.ofValue .register 2).token⟩ := by
  constructor
  · obtain ⟨value, amount, hvalue, hamount, -, hnonneg⟩ :=
      shifts_are_exact (shifting .right (-5) 4294967297) .right _ _ _ rfl (by decide)
    obtain rfl : -5 = value := Option.some.inj hvalue
    obtain rfl : 4294967297 = amount := Option.some.inj hamount
    obtain ⟨-, result, hshows, -, -, hresult⟩ := hnonneg (by decide)
    rw [hshows.register, hresult]
    decide
  · obtain ⟨value, amount, -, hamount, hneg, -⟩ :=
      shifts_are_exact (shifting .left (-5) (-1)) .left _ _ _ rfl (by decide)
    obtain rfl : -1 = amount := Option.some.inj hamount
    obtain ⟨hfault, hmachine⟩ := hneg (by decide)
    rw [hmachine]
    exact ⟨rfl, hfault⟩

end Machine

end AqaAssembly
