import AqaAssembly.Json.Cursor

/-!
# Reading JSON: numbers

A number has a whole part without needless zeros, and may have a fraction and an exponent.  Only
whole numbers of 64 bits without a sign are of use to this library, yet the form of every number is
checked, and so is its size: a number that no binary64 value can stand for is malformed.

The size is judged as a reader of binary64 values would: the leading digits that fit 64 bits are
rounded to 53 bits, so is the power of ten, and their product must not reach the value that would
round to infinity.
-/

namespace AqaAssembly.Json

/-- A number as it is written. -/
structure Number where
  /-- Is there a minus sign? -/
  negative : Bool
  /-- The digits in front of the point. -/
  whole : List Nat
  /-- The digits behind the point, if there is one. -/
  fraction : Option (List Nat)
  /-- The power of ten, if one is written. -/
  exponent : Option Int
  deriving DecidableEq, Repr

namespace Number

/-- The number of values of 64 bits. -/
def wordCount : Nat := 1 <<< 64

/-- The value of some digits. -/
def valueOf (digits : List Nat) : Nat := digits.foldl (fun n d => 10 * n + d) 0

/-- The number as a value of 64 bits without a sign.  Neither a minus sign nor a point nor an
exponent is allowed, even where the value is whole. -/
def toWord? (n : Number) : Option Nat :=
  if !n.negative && n.fraction.isNone && n.exponent.isNone && valueOf n.whole < wordCount then
    some (valueOf n.whole)
  else none

/-- Appends digits to a value as long as it fits 64 bits, and counts the digits left over. -/
def absorb (n : Nat) : List Nat → Nat × Nat
  | [] => (n, 0)
  | d :: ds =>
    if 10 * n + d < wordCount then absorb (10 * n + d) ds else (n, ds.length + 1)

/-- The leading digits that fit 64 bits, and the power of ten to multiply them with. -/
def scientific (n : Number) : Nat × Int :=
  let (significand, dropped) := absorb 0 n.whole
  let digits := n.fraction.getD []
  let (significand, ignored) := absorb significand digits
  (significand, dropped - (digits.length - ignored : Nat) + n.exponent.getD 0)

/-- The nearest number with at most 53 significant bits; a tie goes to the even one. -/
def roundBinary (n : Nat) : Nat :=
  let unit := 1 <<< (n.log2 - 52)
  let quotient := n / unit
  let twice := 2 * (n % unit)
  if unit < twice || (unit = twice && quotient % 2 = 1) then (quotient + 1) * unit
  else quotient * unit

/-- The least number that rounds to infinity. -/
def infinityBound : Nat := (1 <<< 1024) - (1 <<< 970)

/-- Is the number too large for any binary64 value? -/
def isTooLarge (n : Number) : Bool :=
  match n.scientific with
  | (0, _) => false
  | (_, .negSucc _) => false
  | (significand, .ofNat e) =>
    308 < e || infinityBound ≤ roundBinary significand * roundBinary (Nat.pow 10 e)

end Number

namespace Reader

/-- The value of a decimal digit. -/
def digit? (c : Char) : Option Nat := if c.isDigit then some (c.toNat - '0'.toNat) else none

/-- The digits in front of anything else. -/
def digits : Reader (List Nat) := do
  let run := (← get).rest.takeWhile Char.isDigit
  modify fun c => ⟨c.rest.dropWhile Char.isDigit, c.line⟩
  return run.filterMap digit?

/-- The digits of a whole part: a zero alone, or digits that do not begin with one. -/
def wholePart : Reader (List Nat) := do
  match ← next? with
  | none => fail .incomplete
  | some '0' =>
    match ← peek? with
    | some c => if c.isDigit then fail .malformed else return [0]
    | none => return [0]
  | some c =>
    match digit? c with
    | some d => return d :: (← digits)
    | none => fail .malformed

/-- The digits behind a point, if there is one. -/
def fractionPart : Reader (Option (List Nat)) := do
  if (← peek?) = some '.' then
    skip
    match ← digits with
    | [] => if (← peek?).isNone then fail .incomplete else failPast .malformed
    | ds => return some ds
  else return none

/-- The power of ten after an `e`, if there is one. -/
def exponentPart : Reader (Option Int) := do
  match ← peek? with
  | some 'e' | some 'E' =>
    skip
    let sign ← peek?
    if sign = some '+' || sign = some '-' then skip
    match ← next? with
    | none => fail .incomplete
    | some c =>
      match digit? c with
      | none => fail .malformed
      | some d =>
        let size : Int := Number.valueOf (d :: (← digits))
        return some (if sign = some '-' then -size else size)
  | _ => return none

/-- A number of any kind, if one can stand for it. -/
def number : Reader Number := do
  let negative := (← peek?) = some '-'
  if negative then skip
  let n : Number := ⟨negative, ← wholePart, ← fractionPart, ← exponentPart⟩
  if n.isTooLarge then fail .malformed else return n

/-- Does a number begin with the character? -/
def beginsNumber (c : Char) : Bool := c = '-' || c.isDigit

/-- Passes at least one digit. -/
def skipDigits : Reader Unit := do
  match ← next? with
  | some c => if c.isDigit then discard digits else fail .malformed
  | none => fail .malformed

/-- Passes a number of any size. -/
def skipNumber : Reader Unit := do
  if (← peek?) = some '-' then skip
  match ← next? with
  | some '0' => if (← peek?).any Char.isDigit then fail .malformed
  | some c => if c.isDigit then discard digits else fail .malformed
  | none => fail .malformed
  if (← peek?) = some '.' then
    skip
    if (← digits).isEmpty then failPast .malformed
  let e ← peek?
  if e = some 'e' || e = some 'E' then
    skip
    let sign ← peek?
    if sign = some '+' || sign = some '-' then skip
    skipDigits

end Reader

end AqaAssembly.Json
