import AqaAssembly.Source.LexicalError
import AqaAssembly.Source.Piece

/-!
# Scanning

The tokens of a source text, and what is wrong with the pieces that make no token.  Blanks, line
ends and comments separate words and are dropped.  An error never stops the scan: each piece is
judged by itself, and a bad one is reported and left out.

The tokens always end with exactly one `endOfText`, which stands behind the last character.
-/

namespace AqaAssembly

/-- A piece with its place: the line it stands on, and the bytes in front of it. -/
structure PlacedPiece where
  piece : Piece
  line : Nat
  start : Nat
  deriving DecidableEq, Repr

namespace Piece

/-- The number of bytes that characters occupy. -/
def byteSize (cs : List Char) : Nat := cs.foldr (fun c n => c.utf8Size + n) 0

@[simp] theorem byteSize_nil : byteSize [] = 0 := rfl

@[simp] theorem byteSize_cons (c : Char) (cs : List Char) :
    byteSize (c :: cs) = c.utf8Size + byteSize cs := rfl

@[simp] theorem byteSize_append (cs ds : List Char) :
    byteSize (cs ++ ds) = byteSize cs + byteSize ds := by
  induction cs with
  | nil => simp
  | cons c cs ih => rw [List.cons_append, byteSize_cons, ih, byteSize_cons, Nat.add_assoc]

/-- The lines that the piece ends. -/
def lineEnds : Piece → Nat
  | lineEnd => 1
  | _ => 0

/-- Gives consecutive pieces their places, the first standing on `line` behind `start` bytes. -/
def place (line start : Nat) : List Piece → List PlacedPiece
  | [] => []
  | p :: ps => ⟨p, line, start⟩ :: place (line + p.lineEnds) (start + byteSize p.text) ps

end Piece

namespace PlacedPiece

/-- The bytes that the piece occupies. -/
def span (p : PlacedPiece) : Token.Span := ⟨p.start, p.start + Piece.byteSize p.piece.text⟩

/-- The piece as a token of the given kind and value. -/
def toToken (p : PlacedPiece) (kind : Token.Kind) (literal : Option Token.Literal) : Token :=
  ⟨kind, String.ofList p.piece.text, literal, p.line, p.span⟩

/-- The piece as an error. -/
def toError (p : PlacedPiece) (cause : LexicalError.Cause) : LexicalError :=
  ⟨cause, p.line, String.ofList p.piece.text⟩

/-- The token that the piece makes, if it makes one. -/
def token? (p : PlacedPiece) : Option Token :=
  match p.piece with
  | .comma => some (p.toToken .comma none)
  | .colon => some (p.toToken .colon none)
  | .numeral form digits =>
    match Decimal.read digits with
    | .ok n => some (p.toToken form.kind (some (.integer n)))
    | .error _ => none
  | .word letters =>
    let name := String.ofList letters
    match Mnemonic.ofName? name with
    | some m => some (p.toToken (.mnemonic m) (some (.name name)))
    | none => some (p.toToken .identifier (some (.name name)))
  | .blank _ | .lineEnd | .comment _ | .stray _ => none

/-- What is wrong with the piece, if something is. -/
def error? (p : PlacedPiece) : Option LexicalError :=
  match p.piece with
  | .numeral _ digits =>
    match Decimal.read digits with
    | .ok _ => none
    | .error problem => some (p.toError (.numeral problem))
  | .stray _ => some (p.toError .unexpectedCharacter)
  | .comma | .colon | .word _ | .blank _ | .lineEnd | .comment _ => none

end PlacedPiece

namespace Source

/-- The pieces of a source text with their places. -/
def pieces (source : String) : List PlacedPiece := Piece.place 1 0 (Piece.cut source.toList)

/-- The line on which a source text ends. -/
def lastLine (source : String) : Nat := 1 + source.toList.count '\n'

/-- The tokens of a source text, of which the last stands for its end. -/
def tokens (source : String) : List Token :=
  (pieces source).filterMap PlacedPiece.token? ++
    [Token.endOfText (lastLine source) (Piece.byteSize source.toList)]

/-- What is wrong with the words of a source text, in order. -/
def lexicalErrors (source : String) : List LexicalError :=
  if source = "" then [⟨.emptySource, 1, ""⟩]
  else (pieces source).filterMap PlacedPiece.error?

/-- A piece never makes both a token and an error. -/
theorem error?_eq_none_of_token? {p : PlacedPiece} {t : Token} (h : p.token? = some t) :
    p.error? = none := by
  unfold PlacedPiece.token? at h
  unfold PlacedPiece.error?
  split at h <;> simp_all
  split at h <;> simp_all

end Source

end AqaAssembly
