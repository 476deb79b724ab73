import AqaAssembly.Json.Skip

/-!
# Reading JSON: values that are asked for

A value of the wrong kind is read as far as its own form goes before it is refused, so a text that is
malformed there is reported as malformed.  Arrays and objects are refused at their first bracket.

A member that is missing is reported at the end of its object.  A name that comes twice is reported
at the next thing that stands in the text.
-/

namespace AqaAssembly.Json.Reader

variable {α σ : Type}

/-- Refuses the value that begins here. -/
def reject : Reader α := do
  match ← ahead with
  | '[' | '\x7b' => fail .mismatched
  | '"' => do skip; discard stringRest; fail .mismatched
  | 'n' => do letters "null".toList; fail .mismatched
  | 't' => do letters "true".toList; fail .mismatched
  | 'f' => do letters "false".toList; fail .mismatched
  | c => if beginsNumber c then do discard number; fail .mismatched else fail .malformed

/-- The value `null`. -/
def null : Reader Unit := do
  if (← ahead) = 'n' then letters "null".toList else reject

/-- A truth value. -/
def bool : Reader Bool := do
  match ← ahead with
  | 't' => do letters "true".toList; return true
  | 'f' => do letters "false".toList; return false
  | _ => reject

/-- A string. -/
def string : Reader String := do
  if (← ahead) = '"' then do skip; stringRest else reject

/-- A whole number of 64 bits without a sign. -/
def word : Reader Nat := do
  if beginsNumber (← ahead) then
    match (← number).toWord? with
    | some n => return n
    | none => fail .mismatched
  else reject

/-! ## Arrays -/

/-- The next element of an array, if the array goes on. -/
def element? (first : Bool) (read : Reader α) : Reader (Option α) := do
  let c ← ahead
  if c = ']' then return none
  else if first then return some (← read)
  else if c ≠ ',' then fail .malformed
  else do
    skip
    if (← ahead) = ']' then fail .malformed
    return some (← read)

/-- Passes the end of an array. -/
def closeArray : Reader Unit := do
  match ← ahead with
  | ']' => skip
  | ',' => do skip; discard ahead?; fail .malformed
  | _ => fail .malformed

/-- An array of any length. -/
def array (read : Reader α) : Reader (List α) := do
  if (← ahead) ≠ '[' then reject
  skip
  loop (fun (before : List α) => do
    match ← element? before.isEmpty read with
    | some a => return .inl (a :: before)
    | none => do closeArray; return .inr before.reverse) []

/-! ## Objects -/

/-- The name of the next member of an object, if the object goes on. -/
def name? (first : Bool) : Reader (Option String) := do
  let c ← ahead
  if c = '\x7d' then return none
  if !first then
    if c ≠ ',' then fail .malformed
    skip
  if (← ahead) ≠ '"' then fail .malformed
  skip
  return some (← stringRest)

/-- The members of an object, after its opening bracket.  Each is read, from behind its name, into
what has been read before. -/
def members (read : σ → String → Reader σ) (s : σ) : Reader σ :=
  loop (fun (first, s) => do
    match ← name? first with
    | some name => return .inl (false, ← read s name)
    | none => do skip; return .inr s) (true, s)

/-- An object whose members are all of one kind, in the order in which they are written. -/
def entries (read : Reader α) : Reader (List (String × α)) := do
  if (← ahead) ≠ '\x7b' then reject
  skip
  let before ← members (fun before name => do
    colon
    return (name, ← read) :: before) []
  return before.reverse

/-- Reads the value of a member that may come once. -/
def once (before : Option α) (read : Reader α) : Reader (Option α) := do
  if before.isSome then
    discard ahead?
    fail .mismatched
  colon
  return some (← read)

/-- Passes the value of a member that nothing asks for. -/
def ignored : Reader Unit := do
  colon
  skipValue

/-- A record, written as an object or as an array of its fields. -/
def record (ofArray ofObject : Reader α) : Reader α := do
  match ← ahead with
  | '[' => do
    skip
    let a ← ofArray
    closeArray
    return a
  | '\x7b' => do
    skip
    ofObject
  | _ => reject

end AqaAssembly.Json.Reader
