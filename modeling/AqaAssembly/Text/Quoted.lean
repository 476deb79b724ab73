import AqaAssembly.Text.GraphemeExtend
import AqaAssembly.Text.Unprintable

/-!
# Quoted text

Messages quote pieces of a program.  Quoting keeps every character that a reader can see and
writes the others so that they can be seen:

* the quotation mark and the backslash are preceded by a backslash;
* NUL, tab, line feed and carriage return are written `\0`, `\t`, `\n` and `\r`;
* every other character without a visible form, and every character that would attach to the one
  before it, is written by its code point in hexadecimal between braces.

A quoted text is therefore always a single line (`newline_not_mem_quote`).
-/

namespace AqaAssembly.Text

/-- The escape of a character by its code point. -/
def escapeCodePoint (c : Char) : List Char :=
  '\\' :: 'u' :: '\x7b' :: Nat.toDigits 16 c.toNat ++ ['\x7d']

/-- How one character is written between quotation marks. -/
def quoteChar (c : Char) : List Char :=
  if c = '\n' then ['\\', 'n']
  else if c = '\r' then ['\\', 'r']
  else if c = '\t' then ['\\', 't']
  else if c = '\x00' then ['\\', '0']
  else if c = '"' then ['\\', '"']
  else if c = '\\' then ['\\', '\\']
  else if isGraphemeExtend c || isUnprintable c then escapeCodePoint c
  else [c]

/-- A text between quotation marks. -/
def quote (s : String) : String :=
  String.ofList ('"' :: s.toList.flatMap quoteChar ++ ['"'])

/-! ## A quoted text is one line -/

theorem newline_ne_digitChar {d : Nat} (h : d < 16) : '\n' ≠ d.digitChar :=
  (by decide : ∀ d : Fin 16, '\n' ≠ Nat.digitChar d) ⟨d, h⟩

theorem newline_not_mem_toDigits_sixteen (n : Nat) : '\n' ∉ Nat.toDigits 16 n := by
  induction n using Nat.strongRecOn with
  | ind n ih =>
    rw [Nat.toDigits_eq_if (by decide)]
    split
    · rename_i h
      simp [newline_ne_digitChar h]
    · simp [ih (n / 16) (by omega), newline_ne_digitChar (Nat.mod_lt n (by decide : 0 < 16))]

theorem newline_not_mem_escapeCodePoint (c : Char) : '\n' ∉ escapeCodePoint c := by
  simp [escapeCodePoint, newline_not_mem_toDigits_sixteen]

theorem newline_not_mem_quoteChar (c : Char) : '\n' ∉ quoteChar c := by
  unfold quoteChar
  split
  · decide
  · rename_i hc
    repeat' split
    all_goals first
      | exact newline_not_mem_escapeCodePoint c
      | decide
      | simpa using Ne.symm hc

/-- However many lines a text has, it is quoted on one. -/
theorem newline_not_mem_quote (s : String) : '\n' ∉ (quote s).toList := by
  simp [quote, newline_not_mem_quoteChar]

end AqaAssembly.Text
