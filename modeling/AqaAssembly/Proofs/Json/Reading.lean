import AqaAssembly.Json.Value

/-!
# What readers read

A reader reads some characters if it gives a value and stops behind them, whatever follows
(`Reader.Reads`).  Readers one after another read the characters that each of them reads, one after
another (`Reads.bind`), and a reader that is repeated reads round after round (`Reads.loop_next`).
Blanks may stand in front of what is read, but not behind it.

Strings are read as they are spelled if no character has to be escaped (`Reader.Plain`); on these
laws rest those of arrays and objects (`reads_array`, `reads_entries`).
-/

namespace AqaAssembly.Json.Reader

variable {α β σ : Type}

/-- Reading the characters, whatever follows them, gives the value. -/
def Reads (reader : Reader α) (cs : List Char) (a : α) : Prop :=
  ∀ rest line, ∃ line', reader ⟨cs ++ rest, line⟩ = .ok (a, ⟨rest, line'⟩)

/-- The characters separate the parts of a text. -/
def Blank (cs : List Char) : Prop := ∀ c ∈ cs, isBlank c

/-- The character need not be escaped in a string. -/
def isPlain (c : Char) : Bool := c != '"' && c != '\\' && !isControl c

/-- No character of the text has to be escaped in a string. -/
def Plain (text : String) : Prop := ∀ c ∈ text.toList, isPlain c

-- decided by `all`, since which instance is found for the quantifier depends on the imports
instance (text : String) : Decidable (Plain text) :=
  decidable_of_iff (text.toList.all isPlain) List.all_eq_true

/-- The text as a string of JSON. -/
def quoted (text : String) : List Char := '"' :: (text.toList ++ ['"'])

/-! ## One after another -/

/-- What comes after a reader goes on with its value, from where it has stopped. -/
theorem bind_of_ok {reader : Reader α} {k : α → Reader β} {place there : Cursor} {a : α}
    (h : reader place = .ok (a, there)) : (reader >>= k) place = k a there := by
  show (reader place >>= fun p => k p.1 p.2) = _
  rw [h]
  rfl

theorem reads_skip (c : Char) : Reads skip [c] () := fun _ _ => ⟨_, rfl⟩

theorem reads_next? (c : Char) : Reads next? [c] (some c) := fun _ _ => ⟨_, rfl⟩

namespace Reads

variable {reader : Reader α} {k : α → Reader β} {cs ds : List Char} {a : α} {b : β}

theorem pure (a : α) : Reads (Pure.pure a) [] a := fun _ line => ⟨line, rfl⟩

theorem bind (h : Reads reader cs a) (hk : Reads (k a) ds b) :
    Reads (reader >>= k) (cs ++ ds) b := by
  intro rest line
  obtain ⟨line', hreader⟩ := h (ds ++ rest) line
  obtain ⟨line'', hrest⟩ := hk rest line'
  refine ⟨line'', ?_⟩
  rw [List.append_assoc, bind_of_ok hreader]
  exact hrest

/-- What only looks at the value that was read passes nothing. -/
theorem bind_nil (h : Reads reader cs a) (hk : Reads (k a) [] b) : Reads (reader >>= k) cs b := by
  have hbind := h.bind hk
  rwa [List.append_nil] at hbind

theorem skip {k : Unit → Reader β} (c : Char) (h : Reads (k ()) cs b) :
    Reads (Reader.skip >>= k) (c :: cs) b :=
  (reads_skip c).bind h

theorem next? {k : Option Char → Reader β} (c : Char) (h : Reads (k (some c)) cs b) :
    Reads (Reader.next? >>= k) (c :: cs) b :=
  (reads_next? c).bind h

end Reads

theorem exists_skipBlanks_eq {bs : List Char} (hbs : Blank bs) {c : Char}
    (hc : isBlank c = false) (cs : List Char) (line : Nat) :
    ∃ line', skipBlanks (bs ++ c :: cs) line = ⟨c :: cs, line'⟩ := by
  induction bs generalizing line with
  | nil => exact ⟨line, by rw [List.nil_append, skipBlanks, if_neg (by simp [hc])]⟩
  | cons b bs ih =>
    obtain ⟨hb, hbs⟩ := List.forall_mem_cons.1 hbs
    rw [List.cons_append, skipBlanks, if_pos hb]
    exact ih hbs _

theorem ahead?_eq (text : List Char) (line : Nat) :
    ahead? ⟨text, line⟩ = .ok ((skipBlanks text line).rest.head?, skipBlanks text line) := rfl

/-- The next character that is no blank is looked at from behind the blanks in front of it. -/
theorem ahead_eq {text : List Char} {line line' : Nat} {c : Char} {cs : List Char}
    (h : skipBlanks text line = ⟨c :: cs, line'⟩) :
    ahead ⟨text, line⟩ = .ok (c, ⟨c :: cs, line'⟩) := by
  have hahead? : ahead? ⟨text, line⟩ = .ok (some c, ⟨c :: cs, line'⟩) := by
    rw [ahead?_eq, h]
    rfl
  rw [ahead, bind_of_ok hahead?]
  rfl

/-- Looking at the next character that is no blank passes the blanks in front of it. -/
theorem Reads.ahead {bs : List Char} (hbs : Blank bs) {c : Char} (hc : isBlank c = false)
    {k : Char → Reader α} {cs : List Char} {a : α} (h : Reads (k c) (c :: cs) a) :
    Reads (Reader.ahead >>= k) (bs ++ c :: cs) a := by
  intro rest line
  obtain ⟨line', hblanks⟩ := exists_skipBlanks_eq hbs hc (cs ++ rest) line
  obtain ⟨line'', hk⟩ := h rest line'
  refine ⟨line'', ?_⟩
  rw [List.append_assoc, List.cons_append, bind_of_ok (ahead_eq hblanks)]
  exact hk

/-! ## Again and again -/

/-- A repetition that has come to an end does so with more rounds to spare. -/
theorem rounds_of_le {round : σ → Reader (σ ⊕ α)} {n k : Nat} (hle : n ≤ k) {s : σ} {place : Cursor}
    {r : α × Cursor} (h : rounds round n s place = .ok r) : rounds round k s place = .ok r := by
  induction n generalizing k s place with
  | zero => cases h
  | succ n ih =>
    obtain ⟨k, rfl⟩ := Nat.exists_eq_add_of_lt hle
    rw [rounds] at h
    rw [rounds]
    cases hround : round s place with
    | error e => simp [hround] at h
    | ok p =>
      obtain ⟨next, there⟩ := p
      cases next with
      | inr a => simpa [hround] using h
      | inl s' =>
        simp only [hround] at h ⊢
        exact ih (by omega) h

/-- A repetition comes to an end with a round that gives a value. -/
theorem Reads.loop_done {round : σ → Reader (σ ⊕ α)} {s : σ} {cs : List Char} {a : α}
    (h : Reads (round s) cs (.inr a)) : Reads (loop round s) cs a := by
  intro rest line
  obtain ⟨line', hround⟩ := h rest line
  refine ⟨line', ?_⟩
  rw [loop, rounds]
  simp only [hround]

/-- A repetition goes on after a round that passes something. -/
theorem Reads.loop_next {round : σ → Reader (σ ⊕ α)} {s s' : σ} {cs ds : List Char} {a : α}
    (h : Reads (round s) cs (.inl s')) (hne : cs ≠ []) (hrest : Reads (loop round s') ds a) :
    Reads (loop round s) (cs ++ ds) a := by
  intro rest line
  obtain ⟨line', hround⟩ := h (ds ++ rest) line
  obtain ⟨line'', hloop⟩ := hrest rest line'
  refine ⟨line'', ?_⟩
  have hlength : 0 < cs.length := List.length_pos_iff.2 hne
  rw [loop] at hloop
  rw [loop, rounds, List.append_assoc]
  simp only [hround]
  exact rounds_of_le (by simp; omega) hloop

/-! ## Strings -/

/-- One round of reading a string: its end, or one more character. -/
def stringRound (read : List Char) : Reader (List Char ⊕ String) := do
  match ← next? with
  | none => fail .incomplete
  | some '"' => return .inr (String.ofList read.reverse)
  | some '\\' => return .inl ((← escaped) :: read)
  | some c => if isControl c then fail .malformed else return .inl (c :: read)

theorem stringRest_eq : stringRest = loop stringRound [] := rfl

theorem reads_stringRound {c : Char} (hc : isPlain c) (read : List Char) :
    Reads (stringRound read) [c] (.inl (c :: read)) := by
  simp only [isPlain, Bool.and_eq_true, bne_iff_ne, Bool.not_eq_true'] at hc
  obtain ⟨⟨hquote, hbackslash⟩, hcontrol⟩ := hc
  refine .next? c ?_
  split
  · rename_i heq
    cases heq
  · rename_i heq
    exact absurd (Option.some.inj heq) hquote
  · rename_i heq
    exact absurd (Option.some.inj heq) hbackslash
  · rename_i heq
    cases heq
    rw [hcontrol]
    exact .pure _

/-- The rest of a string is read as it is spelled. -/
theorem reads_stringRest {text : String} (h : Plain text) :
    Reads stringRest (text.toList ++ ['"']) text := by
  have hloop : ∀ cs read, (∀ c ∈ cs, isPlain c) →
      Reads (loop stringRound read) (cs ++ ['"']) (String.ofList (read.reverse ++ cs)) := by
    intro cs
    induction cs with
    | nil =>
      intro read _
      rw [List.append_nil]
      exact .loop_done (.next? '"' (.pure _))
    | cons c cs ih =>
      intro read hcs
      obtain ⟨hc, hcs⟩ := List.forall_mem_cons.1 hcs
      have hrest := ih (c :: read) hcs
      rw [List.reverse_cons, List.append_assoc] at hrest
      have hround := reads_stringRound hc read
      exact hround.loop_next (List.cons_ne_nil c []) hrest
  have htext := hloop text.toList [] h
  rwa [List.reverse_nil, List.nil_append, String.ofList_toList, ← stringRest_eq] at htext

theorem blank_nil : Blank [] := fun _ h => nomatch h

theorem isBlank_quote : isBlank '"' = false := by decide

theorem reads_string {bs : List Char} (hbs : Blank bs) {text : String} (h : Plain text) :
    Reads string (bs ++ quoted text) text := by
  refine .ahead hbs isBlank_quote ?_
  rw [if_pos rfl]
  exact .skip '"' (reads_stringRest h)

/-- Passing a colon. -/
theorem reads_colon : Reads colon [':'] () := by
  refine .ahead blank_nil (by decide) ?_
  rw [if_pos rfl]
  exact reads_skip ':'

/-- The parts of an array or an object, with commas between them. -/
def separated (part : α → List Char) : List α → List Char
  | [] => []
  | a :: as => part a ++ as.flatMap fun b => ',' :: part b

/-! ## Arrays -/

/-- One round of reading an array: its end, or one more element. -/
def arrayRound (read : Reader α) (before : List α) : Reader (List α ⊕ List α) := do
  match ← element? before.isEmpty read with
  | some a => return .inl (a :: before)
  | none => do closeArray; return .inr before.reverse

theorem array_eq (read : Reader α) : array read = (do
    if (← ahead) ≠ '[' then reject
    skip
    loop (arrayRound read) []) := rfl

/-- The characters are blanks and an element of an array. -/
def IsElement (read : Reader α) (cs : List Char) (a : α) : Prop :=
  ∃ bs c ds, cs = bs ++ c :: ds ∧ Blank bs ∧ isBlank c = false ∧ c ≠ ']' ∧ Reads read (c :: ds) a

section

variable {read : Reader α} {cs bs : List Char} {a : α}

theorem IsElement.reads_first (h : IsElement read cs a) :
    Reads (element? true read) cs (some a) := by
  obtain ⟨bs, c, ds, rfl, hbs, hc, hend, hread⟩ := h
  refine .ahead hbs hc ?_
  rw [if_neg hend, if_pos rfl]
  exact hread.bind_nil (.pure _)

theorem IsElement.reads_next (h : IsElement read cs a) :
    Reads (element? false read) (',' :: cs) (some a) := by
  obtain ⟨bs, c, ds, rfl, hbs, hc, hend, hread⟩ := h
  refine .ahead blank_nil (by decide) ?_
  rw [if_neg (by decide), if_neg (by decide), if_neg (by simp)]
  refine .skip ',' (.ahead hbs hc ?_)
  rw [if_neg hend]
  exact hread.bind_nil (.pure _)

theorem reads_closeArray : Reads closeArray [']'] () :=
  .ahead blank_nil (by decide) (reads_skip ']')

/-- The end of an array ends the reading of its elements. -/
theorem reads_arrayRound_end (hbs : Blank bs) (before : List α) :
    Reads (arrayRound read before) (bs ++ [']']) (.inr before.reverse) := by
  unfold arrayRound element?
  rw [bind_assoc]
  refine .ahead hbs (by decide) ?_
  rw [if_pos rfl, pure_bind]
  exact reads_closeArray.bind_nil (.pure _)

/-- An array is read element after element. -/
theorem reads_array {part : α → List Char} {as : List α}
    (hpart : ∀ a ∈ as, IsElement read (part a) a) {front : List Char} (hfront : Blank front)
    (hbs : Blank bs) :
    Reads (array read) (front ++ '[' :: (separated part as ++ (bs ++ [']']))) as := by
  have hlater : ∀ as before, (∀ a ∈ as, IsElement read (part a) a) → before ≠ [] →
      Reads (loop (arrayRound read) before)
        ((as.flatMap fun a => ',' :: part a) ++ (bs ++ [']'])) (before.reverse ++ as) := by
    intro as
    induction as with
    | nil =>
      intro before _ _
      rw [List.append_nil]
      exact .loop_done (reads_arrayRound_end hbs before)
    | cons a as ih =>
      intro before has hbefore
      obtain ⟨ha, has⟩ := List.forall_mem_cons.1 has
      have hrest := ih (a :: before) has (List.cons_ne_nil _ _)
      rw [List.reverse_cons, List.append_assoc] at hrest
      have hround : Reads (arrayRound read before) (',' :: part a) (.inl (a :: before)) := by
        unfold arrayRound
        rw [List.isEmpty_eq_false_iff.2 hbefore]
        exact ha.reads_next.bind_nil (.pure _)
      rw [List.flatMap_cons, List.append_assoc]
      exact hround.loop_next (List.cons_ne_nil _ _) hrest
  rw [array_eq]
  refine .ahead hfront (by decide) ?_
  rw [if_neg (by simp)]
  refine .skip '[' ?_
  cases as with
  | nil => exact .loop_done (reads_arrayRound_end hbs [])
  | cons a as =>
    obtain ⟨ha, has⟩ := List.forall_mem_cons.1 hpart
    have hround : Reads (arrayRound read []) (part a) (.inl [a]) :=
      ha.reads_first.bind_nil (.pure _)
    show Reads _ (part a ++ (as.flatMap fun b => ',' :: part b) ++ (bs ++ [']'])) _
    rw [List.append_assoc]
    refine hround.loop_next ?_ (hlater as [a] has (List.cons_ne_nil _ _))
    obtain ⟨bs, c, ds, hpart, -⟩ := ha
    simp [hpart]

end

/-! ## Objects -/

/-- One round of reading an object: its end, or one more member. -/
def memberRound (read : σ → String → Reader σ) : Bool × σ → Reader ((Bool × σ) ⊕ σ) :=
  fun (first, s) => do
    match ← name? first with
    | some name => return .inl (false, ← read s name)
    | none => do skip; return .inr s

theorem members_eq (read : σ → String → Reader σ) (s : σ) :
    members read s = loop (memberRound read) (true, s) := rfl

section

variable {bs cs ds : List Char} {name : String}

theorem reads_first_name (hbs : Blank bs) (h : Plain name) :
    Reads (name? true) (bs ++ quoted name) (some name) := by
  refine .ahead hbs isBlank_quote ?_
  rw [if_neg (by decide), if_neg (by simp)]
  refine .ahead blank_nil isBlank_quote ?_
  rw [if_neg (by simp)]
  exact .skip '"' ((reads_stringRest h).bind_nil (.pure _))

theorem reads_next_name (hbs : Blank bs) (h : Plain name) :
    Reads (name? false) (',' :: (bs ++ quoted name)) (some name) := by
  refine .ahead blank_nil (by decide) ?_
  dsimp only
  rw [if_neg (by decide), if_pos (by decide), if_neg (by simp)]
  refine .skip ',' (.ahead hbs isBlank_quote ?_)
  rw [if_neg (by simp)]
  exact .skip '"' ((reads_stringRest h).bind_nil (.pure _))

variable {read : σ → String → Reader σ} {s s' t : σ}

/-- A member is read, and then those behind it. -/
theorem Reads.member {first : Bool} (hname : Reads (name? first) cs (some name)) (hne : cs ≠ [])
    (hread : Reads (read s name) ds s') {es : List Char}
    (hrest : Reads (loop (memberRound read) (false, s')) es t) :
    Reads (loop (memberRound read) (first, s)) (cs ++ ds ++ es) t := by
  have hround : Reads (memberRound read (first, s)) (cs ++ ds) (.inl (false, s')) :=
    hname.bind (hread.bind_nil (.pure _))
  exact hround.loop_next (by simp [hne]) hrest

/-- The end of an object ends the reading of its members. -/
theorem reads_members_end (hbs : Blank bs) (first : Bool) (s : σ) :
    Reads (loop (memberRound read) (first, s)) (bs ++ ['\x7d']) s := by
  refine .loop_done ?_
  show Reads (name? first >>= _) _ _
  unfold name?
  rw [bind_assoc]
  refine .ahead hbs (by decide) ?_
  rw [if_pos rfl, pure_bind]
  exact .skip '\x7d' (.pure _)

end

/-- Reads a member of an object whose values are all of one kind. -/
def entryMember (read : Reader α) (before : List (String × α)) (name : String) :
    Reader (List (String × α)) := do
  colon
  return (name, ← read) :: before

theorem entries_eq (read : Reader α) : entries read = (do
    if (← ahead) ≠ '\x7b' then reject
    skip
    return (← members (entryMember read) []).reverse) := rfl

/-- A member of an object behind some blanks. -/
def memberText (bs : List Char) (value : α → List Char) (e : String × α) : List Char :=
  bs ++ quoted e.1 ++ (':' :: value e.2)

section

variable {read : Reader α} {value : α → List Char} {es : List (String × α)} {bs bs' : List Char}

theorem reads_entryMember {e : String × α} (h : Reads read (value e.2) e.2)
    (before : List (String × α)) :
    Reads (entryMember read before e.1) (':' :: value e.2) (e :: before) :=
  reads_colon.bind (h.bind_nil (.pure _))

/-- The members of an object whose values are all of one kind are read one after another. -/
theorem reads_entries (hes : ∀ e ∈ es, Plain e.1 ∧ Reads read (value e.2) e.2) (hbs : Blank bs)
    (hbs' : Blank bs') :
    Reads (entries read)
      ('\x7b' :: (separated (memberText bs value) es ++ (bs' ++ ['\x7d']))) es := by
  have hlater : ∀ (es before : List (String × α)),
      (∀ e ∈ es, Plain e.1 ∧ Reads read (value e.2) e.2) →
      Reads (loop (memberRound (entryMember read)) (false, before))
        ((es.flatMap fun e => ',' :: memberText bs value e) ++ (bs' ++ ['\x7d']))
        (es.reverse ++ before) := by
    intro es
    induction es with
    | nil => exact fun before _ => reads_members_end hbs' false before
    | cons e es ih =>
      intro before hes
      obtain ⟨⟨hname, hvalue⟩, hes⟩ := List.forall_mem_cons.1 hes
      rw [List.reverse_cons, List.append_assoc, List.flatMap_cons, List.append_assoc]
      exact .member (reads_next_name hbs hname) (List.cons_ne_nil _ _)
        (reads_entryMember hvalue before) (ih (e :: before) hes)
  have hall : Reads (members (entryMember read) [])
      (separated (memberText bs value) es ++ (bs' ++ ['\x7d'])) es.reverse := by
    rw [members_eq]
    cases es with
    | nil => exact reads_members_end hbs' true []
    | cons e es =>
      obtain ⟨⟨hname, hvalue⟩, hes⟩ := List.forall_mem_cons.1 hes
      rw [List.reverse_cons, separated, List.append_assoc]
      exact .member (reads_first_name hbs hname) (by simp [quoted]) (reads_entryMember hvalue [])
        (hlater es [e] hes)
  rw [entries_eq]
  refine .ahead blank_nil (by decide) ?_
  rw [if_neg (by simp)]
  refine .skip '\x7b' (hall.bind_nil ?_)
  rw [List.reverse_reverse]
  exact .pure es

end

/-! ## Whole texts -/

theorem skipBlanks_of_blank {bs : List Char} (hbs : Blank bs) (line : Nat) :
    (skipBlanks bs line).rest = [] := by
  induction bs generalizing line with
  | nil => rfl
  | cons b bs ih =>
    obtain ⟨hb, hbs⟩ := List.forall_mem_cons.1 hbs
    rw [skipBlanks, if_pos hb]
    exact ih hbs _

/-- A text is read if nothing but blanks follows what is read. -/
theorem Reads.run {reader : Reader α} {cs bs : List Char} {a : α} (h : Reads reader cs a)
    (hbs : Blank bs) {text : String} (htext : text.toList = cs ++ bs) :
    reader.run text = .ok a := by
  obtain ⟨line, hreader⟩ := h bs 1
  have hahead : ahead? ⟨bs, line⟩ = .ok (none, skipBlanks bs line) := by
    rw [ahead?_eq, skipBlanks_of_blank hbs line]
    rfl
  have hfinish : finish ⟨bs, line⟩ = .ok ((), skipBlanks bs line) := by
    rw [finish, bind_of_ok hahead]
    rfl
  show Prod.fst <$> (reader >>= fun a => finish >>= fun _ => Pure.pure a) ⟨text.toList, 1⟩ = _
  rw [htext, bind_of_ok hreader, bind_of_ok hfinish]
  rfl

end AqaAssembly.Json.Reader
