import AqaAssembly.Source.Piece

/-!
# Where a text is cut

A text is cut in the only way in which it can be cut into whole pieces.  A piece is whole if it is
made as its sort demands (`Piece.WellMade`) and what follows it does not go on with it
(`Piece.EndsBefore`).

* `first_text_append`: a whole piece at the beginning of a text is the first one cut;
* `cut_eq_iff`: the pieces that a text is cut into are the whole pieces that it consists of;
* `cut_append`: whole pieces in front of a text are cut, and the rest is cut as if it stood alone.
-/

namespace AqaAssembly

/-- A letter is no digit. -/
theorem isDigit_eq_false_of_isAlpha {c : Char} (h : c.isAlpha) : c.isDigit = false := by
  rw [Bool.eq_false_iff]
  intro hdigit
  have hnine : c.toNat ≤ 57 := (Char.isDigit_iff_toNat.1 hdigit).2
  have hcase : (c.isUpper || c.isLower) = true := h
  rcases Bool.or_eq_true_iff.1 hcase with hupper | hlower
  · have hle : 'A'.val ≤ c.val := (of_decide_eq_true hupper).1
    have hcapital : 65 ≤ c.toNat := UInt32.le_iff_toNat_le.1 hle
    omega
  · have hle : 'a'.val ≤ c.val := of_decide_eq_true (Bool.and_eq_true_iff.1 hlower).1
    have hsmall : 97 ≤ c.toNat := UInt32.le_iff_toNat_le.1 hle
    omega

/-- What stands in front of something that does not go on with a run is the run. -/
theorem takeWhile_append_of_head {p : Char → Bool} {run rest : List Char} (hrun : ∀ c ∈ run, p c)
    (hrest : ∀ c ∈ rest.head?, p c = false) : (run ++ rest).takeWhile p = run := by
  rw [List.takeWhile_append_of_pos hrun]
  cases rest with
  | nil => simp
  | cons c rest => simp [hrest c rfl]

theorem dropWhile_append_of_head {p : Char → Bool} {run rest : List Char} (hrun : ∀ c ∈ run, p c)
    (hrest : ∀ c ∈ rest.head?, p c = false) : (run ++ rest).dropWhile p = rest := by
  rw [List.dropWhile_append_of_pos hrun]
  cases rest with
  | nil => rfl
  | cons c rest => simp [hrest c rfl]

theorem forall_mem_takeWhile {p : Char → Bool} {cs : List Char} : ∀ c ∈ cs.takeWhile p, p c :=
  List.all_eq_true.1 List.all_takeWhile

theorem head?_dropWhile_eq_false {p : Char → Bool} {cs : List Char} :
    ∀ c ∈ (cs.dropWhile p).head?, p c = false := by
  intro c hc
  have h := List.head?_dropWhile_not p cs
  rw [Option.mem_def.1 hc] at h
  simpa using h

namespace Piece

/-- Does the character begin something other than a piece of its own? -/
def beginsPiece (c : Char) : Bool :=
  c = ' ' || c = '\t' || c = '\r' || c = '\n' || c = ';' || c = ',' || c = ':' || c = '#' ||
    c.isAlphanum

/-- Is the piece made as its sort demands? -/
def WellMade : Piece → Prop
  | blank run => run ≠ [] ∧ ∀ c ∈ run, c = ' ' ∨ c = '\t' ∨ c = '\r'
  | lineEnd => True
  | comment body => ∀ c ∈ body, c ≠ '\n'
  | comma => True
  | colon => True
  | numeral form digits =>
    (∀ c ∈ digits, c.isAlphanum) ∧ (form = .address → ∃ c ∈ digits.head?, c.isDigit)
  | word letters => (∀ c ∈ letters, c.isAlphanum) ∧ ∃ c ∈ letters.head?, c.isAlpha ∧ c ≠ 'r'
  | stray c => beginsPiece c = false

/-- Does the piece go on with the character? -/
def goesOn : Piece → Char → Bool
  | blank _ => fun c => c = ' ' || c = '\t' || c = '\r'
  | comment _ => fun c => c ≠ '\n'
  | numeral _ _ | word _ => Char.isAlphanum
  | lineEnd | comma | colon | stray _ => fun _ => false

/-- Does the piece end where the text follows? -/
def EndsBefore (p : Piece) (rest : List Char) : Prop := ∀ c ∈ rest.head?, p.goesOn c = false

/-- The pieces are whole where they stand, one after another in front of the text. -/
def Stand : List Piece → List Char → Prop
  | [], _ => True
  | p :: ps, rest => p.WellMade ∧ p.EndsBefore (ps.flatMap text ++ rest) ∧ Stand ps rest

/-! ## The first piece -/

theorem isBlank_iff {c : Char} : isBlank c ↔ c = ' ' ∨ c = '\t' ∨ c = '\r' := by
  simp [isBlank, or_assoc]

theorem isBlank_eq_false_of_isAlphanum {c : Char} (h : c.isAlphanum) : isBlank c = false := by
  rw [Bool.eq_false_iff]
  intro hb
  rcases isBlank_iff.1 hb with rfl | rfl | rfl
  · exact absurd h (by decide)
  · exact absurd h (by decide)
  · exact absurd h (by decide)

/-- A letter or a digit can only begin a numeral or a word. -/
theorem first_of_isAlphanum {c : Char} (h : c.isAlphanum) (rest : List Char) :
    first c rest =
      (if c = 'r' then numeral .register (rest.takeWhile Char.isAlphanum)
        else if c.isDigit then numeral .address (c :: rest.takeWhile Char.isAlphanum)
        else word (c :: rest.takeWhile Char.isAlphanum), rest.dropWhile Char.isAlphanum) := by
  have hne : ∀ d : Char, d.isAlphanum = false → c ≠ d := by
    rintro d hd rfl
    rw [hd] at h
    cases h
  rw [first, if_neg (by simp [isBlank_eq_false_of_isAlphanum h]), if_neg (hne _ (by decide)),
    if_neg (hne _ (by decide)), if_neg (hne _ (by decide)), if_neg (hne _ (by decide))]
  by_cases hr : c = 'r'
  · rw [if_pos hr, if_pos hr]
  · rw [if_neg hr, if_neg hr, if_neg (hne _ (by decide))]
    by_cases hd : c.isDigit
    · rw [if_pos hd, if_pos hd]
    · have ha : c.isAlpha := by simpa [Char.isAlphanum, hd] using h
      rw [if_neg hd, if_neg hd, if_pos ha]

/-- A whole piece at the beginning of a text is the first one cut. -/
theorem first_text_append {p : Piece} {rest : List Char} (hp : p.WellMade)
    (hrest : p.EndsBefore rest) :
    ∃ c cs, p.text ++ rest = c :: cs ∧ first c cs = (p, rest) := by
  cases p with
  | blank run =>
    obtain ⟨hne, hrun⟩ := hp
    have hrun : ∀ c ∈ run, isBlank c := fun c hc => isBlank_iff.2 (hrun c hc)
    obtain ⟨c, cs, rfl⟩ := List.exists_cons_of_ne_nil hne
    obtain ⟨hc, hcs⟩ := List.forall_mem_cons.1 hrun
    refine ⟨c, cs ++ rest, rfl, ?_⟩
    rw [first, if_pos hc, takeWhile_append_of_head hcs hrest, dropWhile_append_of_head hcs hrest]
  | lineEnd => exact ⟨'\n', rest, rfl, rfl⟩
  | comment body =>
    have hbody : ∀ c ∈ body, decide (c ≠ '\n') = true := fun c hc => decide_eq_true (hp c hc)
    refine ⟨';', body ++ rest, rfl, ?_⟩
    rw [first, if_neg (by decide), if_neg (by decide), if_pos rfl,
      takeWhile_append_of_head hbody hrest, dropWhile_append_of_head hbody hrest]
  | comma => exact ⟨',', rest, rfl, rfl⟩
  | colon => exact ⟨':', rest, rfl, rfl⟩
  | numeral form digits =>
    obtain ⟨hdigits, hhead⟩ := hp
    cases form with
    | register =>
      refine ⟨'r', digits ++ rest, rfl, ?_⟩
      rw [first_of_isAlphanum (by decide), if_pos rfl, takeWhile_append_of_head hdigits hrest,
        dropWhile_append_of_head hdigits hrest]
    | immediate =>
      refine ⟨'#', digits ++ rest, rfl, ?_⟩
      rw [first, if_neg (by decide), if_neg (by decide), if_neg (by decide), if_neg (by decide),
        if_neg (by decide), if_neg (by decide), if_pos rfl,
        takeWhile_append_of_head hdigits hrest, dropWhile_append_of_head hdigits hrest]
    | address =>
      obtain ⟨c, hc, hdigit⟩ := hhead rfl
      obtain ⟨cs, rfl⟩ := List.head?_eq_some_iff.1 hc
      obtain ⟨hcal, hcs⟩ := List.forall_mem_cons.1 hdigits
      have hr : c ≠ 'r' := by
        rintro rfl
        exact absurd hdigit (by decide)
      refine ⟨c, cs ++ rest, rfl, ?_⟩
      rw [first_of_isAlphanum hcal, if_neg hr, if_pos hdigit, takeWhile_append_of_head hcs hrest,
        dropWhile_append_of_head hcs hrest]
  | word letters =>
    obtain ⟨hletters, c, hc, halpha, hr⟩ := hp
    obtain ⟨cs, rfl⟩ := List.head?_eq_some_iff.1 hc
    obtain ⟨hcal, hcs⟩ := List.forall_mem_cons.1 hletters
    refine ⟨c, cs ++ rest, rfl, ?_⟩
    rw [first_of_isAlphanum hcal, if_neg hr,
      if_neg (by simp [isDigit_eq_false_of_isAlpha halpha]), takeWhile_append_of_head hcs hrest,
      dropWhile_append_of_head hcs hrest]
  | stray c =>
    refine ⟨c, rest, rfl, ?_⟩
    have hc : beginsPiece c = false := hp
    simp only [beginsPiece, Char.isAlphanum, Bool.or_eq_false_iff, decide_eq_false_iff_not] at hc
    obtain ⟨⟨⟨⟨⟨⟨⟨⟨hspace, htab⟩, hreturn⟩, hline⟩, hsemi⟩, hcomma⟩, hcolon⟩, hmark⟩, halpha,
      hdigit⟩ := hc
    have hblank : isBlank c = false := by simp [isBlank, hspace, htab, hreturn]
    have hr : c ≠ 'r' := by
      rintro rfl
      exact absurd halpha (by decide)
    simp only [first, hblank, hline, hsemi, hcomma, hcolon, hmark, hr, halpha, hdigit, if_false,
      Bool.false_eq_true]

/-- The piece that is cut first is made as its sort demands. -/
theorem wellMade_first (c : Char) (rest : List Char) : (first c rest).1.WellMade := by
  have hall : ∀ d ∈ rest.takeWhile Char.isAlphanum, d.isAlphanum := forall_mem_takeWhile
  fun_cases first c rest with
  | case1 hblank =>
    have hrun : ∀ d ∈ c :: rest.takeWhile isBlank, isBlank d :=
      List.forall_mem_cons.2 ⟨hblank, forall_mem_takeWhile⟩
    exact ⟨List.cons_ne_nil _ _, fun d hd => isBlank_iff.1 (hrun d hd)⟩
  | case2 | case4 | case5 => trivial
  | case3 => exact fun d hd => of_decide_eq_true (forall_mem_takeWhile d hd)
  | case6 | case7 => exact ⟨hall, fun h => by cases h⟩
  | case8 _ _ _ _ _ _ _ hdigit =>
    refine ⟨List.forall_mem_cons.2 ⟨?_, hall⟩, fun _ => ⟨c, rfl, hdigit⟩⟩
    simp [Char.isAlphanum, hdigit]
  | case9 _ _ _ _ _ hr _ _ halpha =>
    refine ⟨List.forall_mem_cons.2 ⟨?_, hall⟩, c, rfl, halpha, hr⟩
    simp [Char.isAlphanum, halpha]
  | case10 hblank hline hsemi hcomma hcolon hr hmark hdigit halpha =>
    have hother : ¬ (c = ' ' ∨ c = '\t' ∨ c = '\r') := fun h => hblank (isBlank_iff.2 h)
    simp only [not_or] at hother
    simp [WellMade, beginsPiece, Char.isAlphanum, hother, hline, hsemi, hcomma, hcolon, hmark,
      hdigit, halpha]

/-- The piece that is cut first is as long as it can be. -/
theorem endsBefore_first (c : Char) (rest : List Char) :
    (first c rest).1.EndsBefore (first c rest).2 := by
  fun_cases first c rest with
  | case1 | case3 | case6 | case7 | case8 | case9 => exact head?_dropWhile_eq_false
  | case2 | case4 | case5 | case10 => exact fun _ _ => rfl

/-! ## All pieces -/

theorem stand_append {ps qs : List Piece} {rest : List Char} :
    Stand (ps ++ qs) rest ↔ Stand ps (qs.flatMap text ++ rest) ∧ Stand qs rest := by
  induction ps with
  | nil => simp [Stand]
  | cons p ps ih =>
    rw [List.cons_append, Stand, Stand, ih, List.flatMap_append, List.append_assoc]
    simp only [and_assoc]

/-- Whole pieces are made as their sorts demand. -/
theorem wellMade_of_stand {ps : List Piece} {rest : List Char} (h : Stand ps rest) :
    ∀ p ∈ ps, p.WellMade := by
  induction ps with
  | nil => exact fun p hp => absurd hp List.not_mem_nil
  | cons p ps ih =>
    obtain ⟨hmade, -, hps⟩ := h
    exact List.forall_mem_cons.2 ⟨hmade, ih hps⟩

/-- Whole pieces in front of a text are cut, and then the text. -/
theorem cut_append {ps : List Piece} {rest : List Char} (h : Stand ps rest) :
    cut (ps.flatMap text ++ rest) = ps ++ cut rest := by
  induction ps with
  | nil => rfl
  | cons p ps ih =>
    obtain ⟨hmade, hends, hps⟩ := h
    obtain ⟨c, cs, htext, hfirst⟩ := first_text_append hmade hends
    rw [List.flatMap_cons, List.append_assoc, htext, cut_cons, hfirst, ih hps]
    rfl

/-- Whole pieces are what their text is cut into. -/
theorem cut_flatMap_text {ps : List Piece} (h : Stand ps []) : cut (ps.flatMap text) = ps := by
  have hcut := cut_append h
  rwa [List.append_nil, cut_nil, List.append_nil] at hcut

/-- The pieces that a text is cut into are whole. -/
theorem stand_cut (cs : List Char) : Stand (cut cs) [] := by
  fun_induction cut cs with
  | case1 => trivial
  | case2 c rest ih =>
    refine ⟨wellMade_first c rest, ?_, ih⟩
    rw [text_cut, List.append_nil]
    exact endsBefore_first c rest

/-- A text can be cut into whole pieces in one way only, and that is how it is cut. -/
theorem cut_eq_iff {cs : List Char} {ps : List Piece} :
    cut cs = ps ↔ Stand ps [] ∧ ps.flatMap text = cs := by
  constructor
  · rintro rfl
    exact ⟨stand_cut cs, text_cut cs⟩
  · rintro ⟨h, rfl⟩
    exact cut_flatMap_text h

end Piece

end AqaAssembly
