import AqaAssembly.Numeral

/-!
# Pieces of a source text

A source text is cut, from left to right, into pieces: runs of blanks, line ends, comments,
punctuation, numerals with their mark, words, and single characters that begin nothing else.  Every
piece is as long as it can be, and nothing is lost: the pieces written one after another are the
text (`text_cut`).

A word that begins with a small `r` is taken for a register, whatever follows the `r`; a numeral
takes in the letters that follow its digits.  Such pieces are cut as one so that they can be
reported as one.
-/

namespace AqaAssembly

/-- A piece of a source text. -/
inductive Piece
  /-- A run of spaces, tabs and carriage returns. -/
  | blank (run : List Char)
  /-- The end of a line. -/
  | lineEnd
  /-- A semicolon with the rest of its line. -/
  | comment (body : List Char)
  /-- A comma. -/
  | comma
  /-- A colon. -/
  | colon
  /-- A numeral: the letters and digits after its mark. -/
  | numeral (form : Numeral) (digits : List Char)
  /-- A run of letters and digits that begins with a letter. -/
  | word (letters : List Char)
  /-- A character that begins nothing else. -/
  | stray (c : Char)
  deriving DecidableEq, Repr

namespace Piece

/-- The piece as it stands in the source. -/
def text : Piece → List Char
  | blank run => run
  | lineEnd => ['\n']
  | comment body => ';' :: body
  | comma => [',']
  | colon => [':']
  | numeral form digits => form.mark ++ digits
  | word letters => letters
  | stray c => [c]

@[simp] theorem text_blank (run : List Char) : (blank run).text = run := rfl

@[simp] theorem text_lineEnd : lineEnd.text = ['\n'] := rfl

@[simp] theorem text_comma : comma.text = [','] := rfl

@[simp] theorem text_colon : colon.text = [':'] := rfl

@[simp] theorem text_numeral (form : Numeral) (digits : List Char) :
    (numeral form digits).text = form.mark ++ digits := rfl

@[simp] theorem text_word (letters : List Char) : (word letters).text = letters := rfl

/-- Spaces, tabs and carriage returns separate words and mean nothing else. -/
def isBlank (c : Char) : Bool := c = ' ' || c = '\t' || c = '\r'

/-- The piece at the beginning of `c :: rest`, and what follows it. -/
def first (c : Char) (rest : List Char) : Piece × List Char :=
  if isBlank c then (blank (c :: rest.takeWhile isBlank), rest.dropWhile isBlank)
  else if c = '\n' then (lineEnd, rest)
  else if c = ';' then (comment (rest.takeWhile (· ≠ '\n')), rest.dropWhile (· ≠ '\n'))
  else if c = ',' then (comma, rest)
  else if c = ':' then (colon, rest)
  else if c = 'r' then
    (numeral .register (rest.takeWhile Char.isAlphanum), rest.dropWhile Char.isAlphanum)
  else if c = '#' then
    (numeral .immediate (rest.takeWhile Char.isAlphanum), rest.dropWhile Char.isAlphanum)
  else if c.isDigit then
    (numeral .address (c :: rest.takeWhile Char.isAlphanum), rest.dropWhile Char.isAlphanum)
  else if c.isAlpha then
    (word (c :: rest.takeWhile Char.isAlphanum), rest.dropWhile Char.isAlphanum)
  else (stray c, rest)

/-- The first piece and what follows it are the text. -/
theorem text_first (c : Char) (rest : List Char) :
    (first c rest).1.text ++ (first c rest).2 = c :: rest := by
  unfold first
  repeat' split
  all_goals simp_all [text, Numeral.mark, List.takeWhile_append_dropWhile]

theorem length_dropWhile_le (p : Char → Bool) (cs : List Char) :
    (cs.dropWhile p).length ≤ cs.length :=
  (List.dropWhile_sublist p).length_le

/-- The first piece takes at least one character. -/
theorem length_first_le (c : Char) (rest : List Char) :
    (first c rest).2.length ≤ rest.length := by
  unfold first
  repeat' split
  all_goals first | exact length_dropWhile_le _ _ | exact Nat.le_refl _

/-- The pieces of a text. -/
def cut : List Char → List Piece
  | [] => []
  | c :: rest => (first c rest).1 :: cut (first c rest).2
termination_by cs => cs.length
decreasing_by exact Nat.lt_succ_of_le (length_first_le c rest)

@[simp] theorem cut_nil : cut [] = [] := by rw [cut]

theorem cut_cons (c : Char) (rest : List Char) :
    cut (c :: rest) = (first c rest).1 :: cut (first c rest).2 := by rw [cut]

/-- Cutting loses nothing and adds nothing. -/
theorem text_cut (cs : List Char) : (cut cs).flatMap text = cs := by
  fun_induction cut cs with
  | case1 => rfl
  | case2 c rest ih => rw [List.flatMap_cons, ih, text_first]

end Piece

end AqaAssembly
