import AqaAssembly.Token

/-!
# Numerals

Three kinds of operand are written as a number: a register, a value written out, and an address.
They are told apart by the mark in front of the digits.
-/

namespace AqaAssembly

/-- The three forms of numeral, told apart by the mark in front of the digits. -/
inductive Numeral
  /-- Digits after an `r`: a register. -/
  | register
  /-- Digits after a `#`: a value written out. -/
  | immediate
  /-- Digits alone: an address. -/
  | address
  deriving DecidableEq, Repr

namespace Numeral

/-- What stands in front of the digits. -/
def mark : Numeral → List Char
  | register => ['r']
  | immediate => ['#']
  | address => []

/-- The kind of token that the numeral makes. -/
def kind : Numeral → Token.Kind
  | register => .register
  | immediate => .immediate
  | address => .address

end Numeral

end AqaAssembly
