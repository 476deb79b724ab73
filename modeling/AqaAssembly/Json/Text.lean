import AqaAssembly.Json.Cursor

/-!
# Reading JSON: strings

A string is read from behind its opening quotation mark.  Control characters have to be escaped.  A
code point beyond the first 65536 is escaped as two surrogates, and a surrogate alone is malformed.

A string whose value does not matter is passed more leniently: the digits of an escape are checked
and the pairing of surrogates is not.
-/

namespace AqaAssembly.Json.Reader

/-- Passes so many bytes, or to the end of a character that goes beyond them. -/
def passBytes (count : Nat) (rest : List Char) (line : Nat) : Except Failure Cursor :=
  if count = 0 then .ok ⟨rest, line⟩
  else match rest with
    | [] => .error ⟨.incomplete, line⟩
    | c :: cs => passBytes (count - c.utf8Size) cs (if c = '\n' then line + 1 else line)

/-- The value of a hexadecimal digit. -/
def hexDigit? (c : Char) : Option Nat :=
  if c.isDigit then some (c.toNat - '0'.toNat)
  else if 'a' ≤ c ∧ c ≤ 'f' then some (c.toNat - 'a'.toNat + 10)
  else if 'A' ≤ c ∧ c ≤ 'F' then some (c.toNat - 'A'.toNat + 10)
  else none

/-- The value of the four hexadecimal digits of an escape.  Four bytes are taken before they are
looked at. -/
def codeUnit : Reader Nat := do
  let place ← get
  set (← (passBytes 4 place.rest place.line : Except Failure Cursor))
  match (place.rest.take 4).mapM hexDigit? with
  | some [a, b, c, d] => return ((a * 16 + b) * 16 + c) * 16 + d
  | _ => fail .malformed

/-- Is the code unit the first of a pair? -/
def isLeading (n : Nat) : Bool := 0xD800 ≤ n && n ≤ 0xDBFF

/-- Is the code unit the second of a pair? -/
def isTrailing (n : Nat) : Bool := 0xDC00 ≤ n && n ≤ 0xDFFF

/-- Passes one given character inside a string. -/
def require (c : Char) : Reader Unit := do
  match ← peek? with
  | none => fail .incomplete
  | some d => if d = c then skip else failPast .malformed

/-- The character that is escaped by code units, after the first `u`. -/
def codePoint : Reader Char := do
  let n ← codeUnit
  if isTrailing n then fail .malformed
  if !isLeading n then return Char.ofNat n
  require '\\'
  require 'u'
  let m ← codeUnit
  if !isTrailing m then fail .malformed
  return Char.ofNat ((n - 0xD800) * 0x400 + (m - 0xDC00) + 0x10000)

/-- The character that is escaped by a single letter or mark. -/
def shortEscape? : Char → Option Char
  | '"' => some '"'
  | '\\' => some '\\'
  | '/' => some '/'
  | 'b' => some '\x08'
  | 'f' => some '\x0c'
  | 'n' => some '\n'
  | 'r' => some '\r'
  | 't' => some '\t'
  | _ => none

/-- The character that is escaped, after the backslash. -/
def escaped : Reader Char := do
  match ← next? with
  | none => fail .incomplete
  | some 'u' => codePoint
  | some c =>
    match shortEscape? c with
    | some d => return d
    | none => fail .malformed

/-- Must the character be escaped because it is a control character? -/
def isControl (c : Char) : Bool := c.toNat < 0x20

/-- The rest of a string, after its opening quotation mark. -/
def stringRest : Reader String :=
  loop (fun (read : List Char) => do
    match ← next? with
    | none => fail .incomplete
    | some '"' => return .inr (String.ofList read.reverse)
    | some '\\' => return .inl ((← escaped) :: read)
    | some c => if isControl c then fail .malformed else return .inl (c :: read)) []

/-- Passes the rest of a string whose value does not matter. -/
def skipStringRest : Reader Unit :=
  loop (fun (_ : Unit) => do
    match ← peek? with
    | none => fail .incomplete
    | some '"' => do skip; return .inr ()
    | some '\\' => do
      skip
      match ← next? with
      | none => fail .incomplete
      | some 'u' => discard codeUnit
      | some c => if (shortEscape? c).isNone then fail .malformed
      return .inl ()
    | some c => if isControl c then fail .malformed else do skip; return .inl ()) ()

end AqaAssembly.Json.Reader
