import AqaAssembly.Decimal
import AqaAssembly.Proofs.Source.Cutting
import Mathlib.Data.List.Induction
import Mathlib.Data.Nat.Digits.Defs

/-!
# What a numeral stands for

A run of digits stands for a number by the places of its digits (`Decimal.value`), which is told
here without reading it.  Reading takes the digits in from the left:

* `foldlM_extend_eq_ok_iff`: it gets to the end exactly when there are only digits, and their value
  is not too large;
* `foldlM_extend_eq_error_iff`: otherwise it stops at one character, and what is wrong with that
  character is what is reported.

A numeral only gets larger by further digits (`value_mono`), so digits that are too many rule out
every other outcome, whatever follows them.  The main result is `read_decodes`.
-/

namespace AqaAssembly.Decimal

/-! ## The value of digits -/

/-- The number that digits stand for by their places, the last of them counting ones. -/
def value (ds : List Char) : Nat :=
  Nat.ofDigits 10 (ds.reverse.map fun c => c.toNat - '0'.toNat)

theorem value_concat (ds : List Char) (c : Char) :
    value (ds ++ [c]) = 10 * value ds + (c.toNat - '0'.toNat) := by
  rw [value, List.reverse_append, List.reverse_singleton, List.singleton_append, List.map_cons,
    Nat.ofDigits_cons, Nat.add_comm]
  rfl

/-- Taking in one digit after another gives the value of their places. -/
theorem ofDigitChars_eq_value (ds : List Char) : Nat.ofDigitChars 10 ds 0 = value ds := by
  induction ds using List.reverseRecOn with
  | nil => rfl
  | append_singleton ds c ih =>
    rw [Nat.ofDigitChars_append, ih, value_concat, Nat.ofDigitChars_cons, Nat.ofDigitChars_nil]

/-- More digits never make the value smaller. -/
theorem value_mono {ds es : List Char} (h : ds <+: es) : value ds ≤ value es := by
  obtain ⟨fs, rfl⟩ := h
  rw [← ofDigitChars_eq_value (ds ++ fs), Nat.ofDigitChars_append, ofDigitChars_eq_value]
  exact le_ofDigitChars fs (value ds)

/-- Zeros alone stand for nothing. -/
theorem value_replicate_zero (k : Nat) : value (List.replicate k '0') = 0 := by
  rw [← ofDigitChars_eq_value, Nat.ofDigitChars_replicate_zero, Nat.mul_zero]

/-! ## One more character -/

theorem extend_eq_ok_iff {n m : Nat} {c : Char} :
    extend n c = .ok m ↔ c.isDigit ∧ 10 * n + (c.toNat - '0'.toNat) = m ∧ m ≤ maxValue := by
  unfold extend
  grind

theorem extend_eq_notADigit_iff {n : Nat} {c : Char} :
    extend n c = .error .notADigit ↔ c.isDigit = false := by
  unfold extend
  grind

theorem extend_eq_tooLarge_iff {n : Nat} {c : Char} :
    extend n c = .error .tooLarge ↔
      c.isDigit ∧ maxValue < 10 * n + (c.toNat - '0'.toNat) := by
  unfold extend
  grind

theorem extend_ne_empty {n : Nat} {c : Char} : extend n c ≠ .error .empty := by
  unfold extend
  grind

/-! ## A run of characters -/

/-- Only digits can all be taken in, and the number that they stand for comes out. -/
theorem ofDigitChars_of_foldlM_extend {cs : List Char} {n m : Nat}
    (h : cs.foldlM extend n = .ok m) :
    (∀ c ∈ cs, c.isDigit) ∧ Nat.ofDigitChars 10 cs n = m := by
  induction cs generalizing n with
  | nil =>
    cases h
    exact ⟨nofun, Nat.ofDigitChars_nil⟩
  | cons c cs ih =>
    rw [List.foldlM_cons] at h
    cases hc : extend n c with
    | error problem =>
      rw [hc] at h
      cases h
    | ok k =>
      rw [hc] at h
      obtain ⟨hdigit, hk, -⟩ := extend_eq_ok_iff.1 hc
      obtain ⟨hdigits, hvalue⟩ := ih h
      refine ⟨List.forall_mem_cons.2 ⟨hdigit, hdigits⟩, ?_⟩
      rw [Nat.ofDigitChars_cons, hk, hvalue]

theorem foldlM_extend_eq_ok_iff {cs : List Char} {n : Nat} :
    cs.foldlM extend 0 = .ok n ↔
      (∀ c ∈ cs, c.isDigit) ∧ value cs = n ∧ n ≤ maxValue := by
  constructor
  · intro h
    obtain ⟨hdigits, hvalue⟩ := ofDigitChars_of_foldlM_extend h
    rw [ofDigitChars_eq_value] at hvalue
    exact ⟨hdigits, hvalue, le_of_foldlM_extend (Nat.zero_le _) h⟩
  · rintro ⟨hdigits, rfl, hle⟩
    rw [← ofDigitChars_eq_value] at hle ⊢
    exact foldlM_extend hdigits 0 hle

/-- Reading stops at the first character that cannot be taken in, whatever follows it. -/
theorem foldlM_extend_eq_error_iff {cs : List Char} {n : Nat} {problem : Problem} :
    cs.foldlM extend n = .error problem ↔
      ∃ ds c rest m, cs = ds ++ c :: rest ∧ ds.foldlM extend n = .ok m ∧
        extend m c = .error problem := by
  constructor
  · intro h
    induction cs generalizing n with
    | nil => cases h
    | cons c cs ih =>
      rw [List.foldlM_cons] at h
      cases hc : extend n c with
      | error p =>
        rw [hc] at h
        cases h
        exact ⟨[], c, cs, n, rfl, rfl, hc⟩
      | ok k =>
        rw [hc] at h
        obtain ⟨ds, d, rest, m, rfl, hds, hd⟩ := ih h
        refine ⟨c :: ds, d, rest, m, rfl, ?_, hd⟩
        rw [List.foldlM_cons, hc]
        exact hds
  · rintro ⟨ds, c, rest, m, rfl, hds, hc⟩
    rw [List.foldlM_append, hds]
    show (c :: rest).foldlM extend m = _
    rw [List.foldlM_cons, hc]
    rfl

theorem foldlM_extend_ne_empty {cs : List Char} {n : Nat} :
    cs.foldlM extend n ≠ .error .empty := by
  intro h
  obtain ⟨-, c, -, m, -, -, hc⟩ := foldlM_extend_eq_error_iff.1 h
  exact extend_ne_empty hc

theorem foldlM_extend_eq_notADigit_iff {cs : List Char} :
    cs.foldlM extend 0 = .error .notADigit ↔
      ∃ ds c rest, cs = ds ++ c :: rest ∧ (∀ d ∈ ds, d.isDigit) ∧ c.isDigit = false ∧
        value ds ≤ maxValue := by
  simp only [foldlM_extend_eq_error_iff, foldlM_extend_eq_ok_iff, extend_eq_notADigit_iff]
  constructor
  · rintro ⟨ds, c, rest, m, hcs, ⟨hdigits, rfl, hle⟩, hc⟩
    exact ⟨ds, c, rest, hcs, hdigits, hc, hle⟩
  · rintro ⟨ds, c, rest, hcs, hdigits, hc, hle⟩
    exact ⟨ds, c, rest, value ds, hcs, ⟨hdigits, rfl, hle⟩, hc⟩

/-- Digits at the beginning end where the first other character stands. -/
theorem prefix_of_prefix_append_cons {ds es rest : List Char} {c : Char}
    (hdigits : ∀ d ∈ ds, d.isDigit) (hc : c.isDigit = false) (h : ds <+: es ++ c :: rest) :
    ds <+: es := by
  rcases List.prefix_or_prefix_of_prefix h (List.prefix_append es _) with hshort | ⟨fs, rfl⟩
  · exact hshort
  · rw [List.prefix_append_right_inj] at h
    cases fs with
    | nil => exact (List.append_nil es).symm ▸ List.prefix_rfl
    | cons d fs =>
      obtain ⟨rfl, -⟩ := List.cons_prefix_cons.1 h
      rw [hdigits d (by simp)] at hc
      cases hc

/-- Digits that stand for too much are reported as that, whatever follows them. -/
theorem foldlM_extend_eq_tooLarge_iff {cs : List Char} :
    cs.foldlM extend 0 = .error .tooLarge ↔
      ∃ ds, ds <+: cs ∧ (∀ d ∈ ds, d.isDigit) ∧ maxValue < value ds := by
  constructor
  · intro h
    obtain ⟨ds, c, rest, m, rfl, hds, hc⟩ := foldlM_extend_eq_error_iff.1 h
    obtain ⟨hdigits, rfl, -⟩ := foldlM_extend_eq_ok_iff.1 hds
    obtain ⟨hdigit, hlt⟩ := extend_eq_tooLarge_iff.1 hc
    refine ⟨ds ++ [c], ⟨rest, by simp⟩, ?_, by rwa [value_concat]⟩
    intro d hd
    rcases List.mem_append.1 hd with hd | hd
    · exact hdigits d hd
    · rwa [List.mem_singleton.1 hd]
  · rintro ⟨ds, hfront, hdigits, hlt⟩
    -- the digits that are too many rule out every other outcome
    cases h : cs.foldlM extend 0 with
    | ok n =>
      obtain ⟨-, rfl, hle⟩ := foldlM_extend_eq_ok_iff.1 h
      have hgrows := value_mono hfront
      omega
    | error problem =>
      cases problem with
      | empty => exact absurd h foldlM_extend_ne_empty
      | tooLarge => rfl
      | notADigit =>
        obtain ⟨es, c, rest, rfl, -, hc, hle⟩ := foldlM_extend_eq_notADigit_iff.1 h
        have hgrows := value_mono (prefix_of_prefix_append_cons hdigits hc hfront)
        omega

/-! ## Numerals -/

theorem toInt_ofNat_of_le {m : Nat} (h : m ≤ maxValue) : (Int64.ofNat m).toInt = m :=
  Int64.toInt_ofNat_of_lt (Nat.lt_succ_of_le h)

/-- A numeral that is not empty is read character by character. -/
theorem read_of_ne_nil {cs : List Char} (h : cs ≠ []) :
    read cs = (cs.foldlM extend 0).map Int64.ofNat := by
  rw [read, readNat, if_neg h]

theorem read_eq_error_iff_of_ne_nil {cs : List Char} {problem : Problem} (h : cs ≠ []) :
    read cs = .error problem ↔ cs.foldlM extend 0 = .error problem := by
  rw [read_of_ne_nil h]
  cases cs.foldlM extend 0 with
  | ok n => exact ⟨nofun, nofun⟩
  | error p => rw [Except.map, Except.error.injEq, Except.error.injEq]

theorem read_eq_empty_iff {cs : List Char} : read cs = .error .empty ↔ cs = [] := by
  constructor
  · intro hread
    by_contra h
    exact foldlM_extend_ne_empty ((read_eq_error_iff_of_ne_nil h).1 hread)
  · rintro rfl
    rfl

/-- Everything else that can be wrong with a numeral is wrong with one of its characters. -/
theorem read_eq_error_iff {cs : List Char} {problem : Problem} (hproblem : problem ≠ .empty) :
    read cs = .error problem ↔ cs.foldlM extend 0 = .error problem := by
  by_cases h : cs = []
  · rw [read_eq_empty_iff.2 h, h]
    exact ⟨fun hempty => absurd (Except.error.inj hempty).symm hproblem, nofun⟩
  · exact read_eq_error_iff_of_ne_nil h

theorem read_eq_ok_iff {cs : List Char} {n : Int64} :
    read cs = .ok n ↔
      cs ≠ [] ∧ (∀ c ∈ cs, c.isDigit) ∧ value cs ≤ maxValue ∧ n.toInt = value cs := by
  constructor
  · intro hread
    have h : cs ≠ [] := by
      intro hnil
      rw [read_eq_empty_iff.2 hnil] at hread
      cases hread
    rw [read_of_ne_nil h] at hread
    cases hm : cs.foldlM extend 0 with
    | error problem =>
      rw [hm] at hread
      cases hread
    | ok m =>
      rw [hm] at hread
      cases hread
      obtain ⟨hdigits, rfl, hle⟩ := foldlM_extend_eq_ok_iff.1 hm
      exact ⟨h, hdigits, hle, toInt_ofNat_of_le hle⟩
  · rintro ⟨h, hdigits, hle, hn⟩
    have hvalue : n = Int64.ofNat (value cs) := by
      rw [← Int64.toInt_inj, hn, toInt_ofNat_of_le hle]
    rw [read_of_ne_nil h, foldlM_extend_eq_ok_iff.2 ⟨hdigits, rfl, hle⟩, hvalue]
    rfl

/-- Zeros in front of a numeral change nothing, neither its value nor what is wrong with it. -/
theorem read_replicate_append (k : Nat) {cs : List Char} (h : cs ≠ []) :
    read (List.replicate k '0' ++ cs) = read cs := by
  have hzeros : (List.replicate k '0').foldlM extend 0 = .ok 0 := by
    refine foldlM_extend_eq_ok_iff.2 ⟨fun c hc => ?_, value_replicate_zero k, Nat.zero_le _⟩
    rw [List.eq_of_mem_replicate hc]
    rfl
  have hne : List.replicate k '0' ++ cs ≠ [] := fun hnil => h (List.append_eq_nil_iff.1 hnil).2
  rw [read_of_ne_nil hne, read_of_ne_nil h, List.foldlM_append, hzeros]
  rfl

/-- Behind the mark of a numeral stand letters and digits.  They are read as `n` exactly when there
are some, all of them are digits, and `n` is the value of their places, at most `2 ^ 63 - 1`; any
number of zeros in front changes nothing.  The numeral is reported as empty exactly when there are
none.  Otherwise the first thing wrong from the left is reported: a letter, if no digits in front of
the first letter stand for too much, and the size, if digits at the beginning do. -/
theorem read_decodes (cs : List Char) (hcs : ∀ c ∈ cs, c.isAlphanum) :
    (∀ n : Int64, read cs = .ok n ↔
      cs ≠ [] ∧ (∀ c ∈ cs, c.isDigit) ∧ value cs ≤ 2 ^ 63 - 1 ∧ n.toInt = value cs) ∧
    (∀ k, cs ≠ [] → read (List.replicate k '0' ++ cs) = read cs) ∧
    (read cs = .error .empty ↔ cs = []) ∧
    (read cs = .error .notADigit ↔
      ∃ ds c rest, cs = ds ++ c :: rest ∧ (∀ d ∈ ds, d.isDigit) ∧ c.isAlpha ∧
        ∀ es, es <+: ds → value es ≤ 2 ^ 63 - 1) ∧
    (read cs = .error .tooLarge ↔
      ∃ ds, ds <+: cs ∧ (∀ d ∈ ds, d.isDigit) ∧ 2 ^ 63 - 1 < value ds) := by
  have hmax : maxValue = 2 ^ 63 - 1 := rfl
  rw [← hmax]
  refine ⟨fun n => read_eq_ok_iff, fun k => read_replicate_append k, read_eq_empty_iff, ?_,
    (read_eq_error_iff (by decide)).trans foldlM_extend_eq_tooLarge_iff⟩
  rw [read_eq_error_iff (by decide), foldlM_extend_eq_notADigit_iff]
  constructor
  · rintro ⟨ds, c, rest, rfl, hdigits, hc, hle⟩
    have hletter : c.isAlpha := by simpa [Char.isAlphanum, hc] using hcs c (by simp)
    exact ⟨ds, c, rest, rfl, hdigits, hletter, fun es hes => (value_mono hes).trans hle⟩
  · rintro ⟨ds, c, rest, rfl, hdigits, hletter, hle⟩
    exact ⟨ds, c, rest, rfl, hdigits, isDigit_eq_false_of_isAlpha hletter,
      hle ds List.prefix_rfl⟩

/-- The largest value may have zeros in front, and with a letter behind it, the letter is wrong.
One more is too much, whatever follows. -/
theorem read_decodes_largest :
    let largest := "9223372036854775807".toList
    let tooLarge := "9223372036854775808".toList
    (∀ c ∈ largest ++ ['x'], c.isAlphanum) ∧ (∀ c ∈ tooLarge ++ ['x'], c.isAlphanum) ∧
    read (List.replicate 100 '0' ++ largest) = .ok 9223372036854775807 ∧
    read (largest ++ ['x']) = .error .notADigit ∧
    read (tooLarge ++ ['x']) = .error .tooLarge := by
  intro largest tooLarge
  have hlargest : ∀ c ∈ largest, c.isAlphanum := List.all_eq_true.1 rfl
  have hletter : ∀ c ∈ largest ++ ['x'], c.isAlphanum := List.all_eq_true.1 rfl
  have htoo : ∀ c ∈ tooLarge ++ ['x'], c.isAlphanum := List.all_eq_true.1 rfl
  have hdigits : ∀ c ∈ largest, c.isDigit := List.all_eq_true.1 rfl
  have hmore : ∀ c ∈ tooLarge, c.isDigit := List.all_eq_true.1 rfl
  obtain ⟨hok, hzeros, -⟩ := read_decodes largest hlargest
  obtain ⟨-, -, -, hnotADigit, -⟩ := read_decodes _ hletter
  obtain ⟨-, -, -, -, htooLarge⟩ := read_decodes _ htoo
  have hvalue : value largest = 2 ^ 63 - 1 := by decide
  have hnil : largest ≠ [] := List.cons_ne_nil _ _
  refine ⟨hletter, htoo, ?_, ?_, ?_⟩
  · rw [hzeros 100 hnil, hok]
    exact ⟨hnil, hdigits, hvalue.le, by rw [hvalue]; rfl⟩
  · exact hnotADigit.2 ⟨largest, 'x', [], rfl, hdigits, rfl,
      fun es hes => (value_mono hes).trans hvalue.le⟩
  · exact htooLarge.2 ⟨tooLarge, List.prefix_append _ _, hmore, by decide⟩

end AqaAssembly.Decimal
