import AqaAssembly.Json.Number
import AqaAssembly.Json.Text

/-!
# Reading JSON: values that do not matter

A value that nothing asks for is passed.  Its form is checked and its meaning is not.  Such a value
may be nested to any depth; the containers that are still open are kept in a list, the innermost
first.
-/

namespace AqaAssembly.Json

/-- The two sorts of container. -/
inductive Container
  | array | object
  deriving DecidableEq, Repr

/-- The bracket that closes a container. -/
def Container.closing : Container → Char
  | array => ']'
  | object => '\x7d'

namespace Reader

/-- Passes the given letters, of which the last one read may be another. -/
def letters : List Char → Reader Unit
  | [] => return ()
  | c :: cs => do
    match ← next? with
    | none => fail .incomplete
    | some d => if d = c then letters cs else fail .malformed

/-- Passes the colon between a name and its value. -/
def colon : Reader Unit := do
  if (← ahead) = ':' then skip else fail .malformed

/-- Passes a name with its colon. -/
def skipName : Reader Unit := do
  if (← ahead) = '"' then skip else fail .malformed
  skipStringRest
  colon

/-- What a place inside a value that is passed may hold. -/
inductive Expected
  /-- A value. -/
  | value
  /-- The first value of the innermost container, or the end of that container. -/
  | content
  /-- A comma, or the end of the innermost container. -/
  | separator

/-- What to expect behind a value in the given open containers. -/
def behindValue : List Container → (Expected × List Container) ⊕ Unit
  | [] => .inr ()
  | stack => .inl (.separator, stack)

/-- Passes a value without parts, or the opening bracket of a container. -/
def skipValueStart (stack : List Container) : Reader ((Expected × List Container) ⊕ Unit) := do
  match ← ahead with
  | '[' => do skip; return .inl (.content, .array :: stack)
  | '\x7b' => do skip; return .inl (.content, .object :: stack)
  | '"' => do skip; skipStringRest; return behindValue stack
  | 'n' => do letters "null".toList; return behindValue stack
  | 't' => do letters "true".toList; return behindValue stack
  | 'f' => do letters "false".toList; return behindValue stack
  | c => if beginsNumber c then do skipNumber; return behindValue stack else fail .malformed

/-- Passes what is expected. -/
def skipExpected : Expected × List Container → Reader ((Expected × List Container) ⊕ Unit)
  | (.value, stack) => skipValueStart stack
  | (.content, []) | (.separator, []) => return .inr ()
  | (.content, top :: stack) => do
    if (← ahead) = top.closing then
      skip
      return behindValue stack
    if top = .object then skipName
    skipValueStart (top :: stack)
  | (.separator, top :: stack) => do
    let c ← ahead
    if c = top.closing then
      skip
      return behindValue stack
    if c ≠ ',' then fail .malformed
    skip
    if top = .object then skipName
    return .inl (.value, top :: stack)

/-- Passes a value of any kind. -/
def skipValue : Reader Unit := loop skipExpected (.value, [])

end Reader

end AqaAssembly.Json
