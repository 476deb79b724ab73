/-!
# Decimal numerals

The numerals of assembly code are runs of decimal digits, read as signed 64-bit values.  A numeral
is read from the left, and the first thing wrong with it decides what is reported: a character that
is no digit, or a digit that takes the value past the largest 64-bit value.  Any number of leading
zeros is allowed.

Values are written with as few digits as possible and, below zero, a minus sign.  What is written
for a value that is not negative reads back as that value (`read_digits`).
-/

namespace AqaAssembly.Decimal

/-- What can be wrong with a numeral. -/
inductive Problem
  /-- There is nothing to read. -/
  | empty
  /-- A character other than a decimal digit was met. -/
  | notADigit
  /-- The digits so far stand for more than the largest value. -/
  | tooLarge
  deriving DecidableEq, Repr

/-- The largest value that a numeral can stand for, `2 ^ 63 - 1`. -/
def maxValue : Nat := 9223372036854775807

/-- The value of a numeral with one more digit at its right end. -/
def extend (n : Nat) (c : Char) : Except Problem Nat :=
  if c.isDigit then
    let m := 10 * n + (c.toNat - '0'.toNat)
    if m ≤ maxValue then .ok m else .error .tooLarge
  else .error .notADigit

/-- The value that the digits stand for. -/
def readNat (digits : List Char) : Except Problem Nat :=
  if digits = [] then .error .empty else digits.foldlM extend 0

/-- The value that the digits stand for, as a 64-bit value. -/
def read (digits : List Char) : Except Problem Int64 :=
  (readNat digits).map Int64.ofNat

/-- The digits of a natural number, the most significant first. -/
def digits (n : Nat) : List Char := Nat.toDigits 10 n

/-- The text of an integer. -/
def text : Int → String
  | .ofNat n => String.ofList (digits n)
  | .negSucc n => String.ofList ('-' :: digits (n + 1))

/-- The text of a natural number. -/
def textNat (n : Nat) : String := String.ofList (digits n)

/-! ## Reading what was written -/

theorem isDigit_of_mem_digits {n : Nat} {c : Char} (h : c ∈ digits n) : c.isDigit :=
  Nat.isDigit_of_mem_toDigits (by decide) (by decide) h

theorem digits_ne_nil (n : Nat) : digits n ≠ [] :=
  List.ne_nil_of_length_pos Nat.length_toDigits_pos

/-- More digits never make the value smaller. -/
theorem le_ofDigitChars (ds : List Char) (n : Nat) : n ≤ Nat.ofDigitChars 10 ds n := by
  induction ds generalizing n with
  | nil => simp
  | cons c cs ih =>
    rw [Nat.ofDigitChars_cons]
    exact Nat.le_trans (by omega) (ih _)

/-- A run of digits is read without complaint when its value is not too large. -/
theorem foldlM_extend {ds : List Char} (hd : ∀ c ∈ ds, c.isDigit) (n : Nat)
    (h : Nat.ofDigitChars 10 ds n ≤ maxValue) :
    ds.foldlM extend n = .ok (Nat.ofDigitChars 10 ds n) := by
  induction ds generalizing n with
  | nil => rfl
  | cons c cs ih =>
    rw [Nat.ofDigitChars_cons] at h ⊢
    have hc : extend n c = .ok (10 * n + (c.toNat - '0'.toNat)) := by
      simp only [extend, hd c (by simp), if_true, if_pos (Nat.le_trans (le_ofDigitChars cs _) h)]
    rw [List.foldlM_cons, hc]
    exact ih (fun d hdm => hd d (by simp [hdm])) _ h

theorem readNat_digits {n : Nat} (h : n ≤ maxValue) : readNat (digits n) = .ok n := by
  have hn : Nat.ofDigitChars 10 (digits n) 0 = n :=
    Nat.ofDigitChars_toDigits (by decide) (by decide)
  rw [readNat, if_neg (digits_ne_nil n),
    foldlM_extend (fun _ => isDigit_of_mem_digits) 0 (by rw [hn]; exact h), hn]

theorem read_digits {n : Nat} (h : n ≤ maxValue) : read (digits n) = .ok (.ofNat n) := by
  rw [read, readNat_digits h]
  rfl

/-! ## What is read is not negative -/

theorem le_of_extend_eq_ok {n m : Nat} {c : Char} (h : extend n c = .ok m) : m ≤ maxValue := by
  unfold extend at h
  split at h
  · dsimp only at h
    split at h
    · rename_i hle
      cases h
      exact hle
    · cases h
  · cases h

/-- No digits take the value past the largest. -/
theorem le_of_foldlM_extend {ds : List Char} {n m : Nat} (hn : n ≤ maxValue)
    (h : ds.foldlM extend n = .ok m) : m ≤ maxValue := by
  induction ds generalizing n with
  | nil =>
    cases h
    exact hn
  | cons c cs ih =>
    rw [List.foldlM_cons] at h
    cases hc : extend n c with
    | error problem =>
      rw [hc] at h
      cases h
    | ok k =>
      rw [hc] at h
      exact ih (le_of_extend_eq_ok hc) h

/-- The value that is read is not negative. -/
theorem toInt_nonneg_of_read {ds : List Char} {n : Int64} (h : read ds = .ok n) :
    0 ≤ n.toInt := by
  unfold read readNat at h
  split at h
  · cases h
  · cases hm : ds.foldlM extend 0 with
    | error problem =>
      rw [hm] at h
      cases h
    | ok m =>
      rw [hm] at h
      cases h
      have hle : m ≤ 9223372036854775807 := le_of_foldlM_extend (Nat.zero_le _) hm
      rw [Int64.toInt_ofNat_of_lt (by omega)]
      exact Int.natCast_nonneg m

end AqaAssembly.Decimal
