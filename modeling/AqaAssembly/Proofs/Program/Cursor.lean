import AqaAssembly.Proofs.Program.Recovery

/-!
# Reading with a cursor

Tokens can also be read by a cursor that moves over their list.  The cursor relies on a token that
stands for the end of the text, so one is put behind the tokens if the last of them is none
(`Reading.terminated`).  Nothing is taken for granted here: where the walk asks for a token that is
not in the list, for a label that is not named by an identifier, or for more turns than it was
given, it gives `none`.

* `Ends`: the tokens in front of the end, and the first token that stands for it;
* `declaration?_eq`, `synchronize?_eq`, `turn?_eq`: the cursor is never led astray, and it finds what
  an attempt to read a declaration finds.
-/

namespace AqaAssembly

/-- The tokens with the end of the text behind them, unless it stands there. -/
def Reading.terminated (ts : List Token) : List Token :=
  match ts.getLast? with
  | some t => if t.kind = .endOfText then ts else ts ++ [.endOfText t.line t.span.stop]
  | none => [.endOfText 1 0]

/-- What one turn of the walk goes over, by the indices of its tokens. -/
structure Stretch where
  /-- Where the declaration begins. -/
  start : Nat
  /-- Where the cursor was when the statement was read, or the error was raised. -/
  cursor : Nat
  /-- Where the walk goes on. -/
  stop : Nat
  /-- What was read, or the error that was raised. -/
  outcome : Except SyntaxError Statement

namespace Attempt

/-- The tokens in front of which reading has stopped. -/
def rest : Attempt → List Token
  | read _ rest => rest
  | failed _ rest => rest

/-- Reading stops behind the first tokens. -/
theorem exists_eq_append_rest (g : Grammar) (final t : Token) (ts : List Token) :
    ∃ us, t :: ts = us ++ (ofTokens g final t ts).rest := by
  cases hattempt : ofTokens g final t ts with
  | read s rest =>
    obtain ⟨us, -, rfl⟩ := exists_of_ofTokens_eq_read hattempt
    exact ⟨t :: us, rfl⟩
  | failed e rest =>
    obtain ⟨us, hus, -⟩ := stops_of_ofTokens_eq_failed hattempt
    exact ⟨us, hus⟩

end Attempt

/-- What stands behind the first `i` tokens of a list begins at `i`. -/
theorem length_sub_length_drop {front : List Token} {i : Nat} (hi : i ≤ front.length) :
    front.length - (front.drop i).length = i := by
  rw [List.length_drop, Nat.sub_sub_self hi]

/-- What stands behind the first tokens of a list starts where they end. -/
theorem drop_of_drop_eq_append {front us rest : List Token} {i : Nat} (hi : i ≤ front.length)
    (h : front.drop i = us ++ rest) :
    front.length - rest.length = i + us.length ∧ front.drop (i + us.length) = rest := by
  have hlength := congrArg List.length h
  rw [List.length_drop, List.length_append] at hlength
  refine ⟨by omega, ?_⟩
  rw [← List.drop_drop, h, List.drop_left]

namespace Cursor

section

variable (g : Grammar) (ts : List Token)

/-- Moves the cursor past its token.  At the end of the text it stays where it is. -/
def advance? (i : Nat) : Option Nat :=
  ts[i]?.map fun t => if t.kind = .endOfText then i else i + 1

/-- Takes a token for each slot.  The operands are the tokens in slots other than for commas. -/
def fill? : List Slot → Nat → Option (Except SyntaxError (List Token) × Nat)
  | [], i => some (.ok [], i)
  | slot :: slots, i => do
    let t ← ts[i]?
    if t.kind ≠ .endOfText ∧ slot.admits t.kind then
      let next ← advance? ts i
      let (filled, stop) ← fill? slots next
      return (filled.map fun us => if slot.kind = .comma then us else t :: us, stop)
    else return (.error ⟨.expectedSlot slot.kind, t, slot.message⟩, i)

/-- Reads the declaration of a label. -/
def label? (i : Nat) : Option (Except SyntaxError Statement × Nat) := do
  let t ← ts[i]?
  let colon ← advance? ts i
  let u ← ts[colon]?
  if u.kind = .colon then
    let stop ← advance? ts colon
    let l ← Operand.Label.ofToken? t
    return (.ok (.label l), stop)
  else return (.error ⟨.expectedColon, u, "Expect colon after label identifier"⟩, colon)

/-- Reads an instruction. -/
def instruction? (i : Nat) : Option (Except SyntaxError Statement × Nat) := do
  let t ← ts[i]?
  match g.slotsAfter? t.kind with
  | none => return (.error ⟨.unexpectedToken, t, "Unexpected token"⟩, i)
  | some slots =>
    let next ← advance? ts i
    let (filled, stop) ← fill? ts slots next
    match filled with
    | .error e => return (.error e, stop)
    | .ok operands =>
      match t.kind.mnemonic?.bind fun m => Instruction.ofTokens? m operands with
      | some instruction => return (.ok (.instruction instruction), stop)
      | none => return (.error ⟨.unfitRule t.kind, t, "malformed syntax table entry"⟩, stop)

/-- Reads a declaration: a label or an instruction. -/
def declaration? (i : Nat) : Option (Except SyntaxError Statement × Nat) := do
  let t ← ts[i]?
  if t.kind = .identifier then label? ts i else instruction? g ts i

/-- Moves the cursor past the tokens that only continue a statement. -/
def skip? : Nat → Nat → Option Nat
  | 0, _ => none
  | turns + 1, i => do
    let t ← ts[i]?
    if t.kind ≠ .endOfText ∧ Attempt.onlyContinues t.kind then
      let next ← advance? ts i
      skip? turns next
    else return i

/-- Moves the cursor past a token that was in error and what trails it. -/
def synchronize? (turns i : Nat) : Option Nat := do
  let next ← advance? ts i
  skip? ts turns next

/-- Reads a declaration, and goes on behind it or behind what is given up because of an error. -/
def turn? (turns i : Nat) : Option Stretch := do
  let (outcome, cursor) ← declaration? g ts i
  match outcome with
  | .ok _ => return ⟨i, cursor, cursor, outcome⟩
  | .error _ =>
    let stop ← synchronize? ts turns cursor
    return ⟨i, cursor, stop, outcome⟩

/-- Reads declarations up to the end of the text. -/
def walk? : Nat → Nat → Option (List Stretch)
  | 0, _ => none
  | turns + 1, i => do
    let t ← ts[i]?
    if t.kind = .endOfText then return []
    else
      let r ← turn? g ts turns i
      let rs ← walk? turns r.stop
      return r :: rs

end

/-- The tokens in front of the end of a list, and the first token that stands for the end. -/
structure Ends (ts front : List Token) (final : Token) : Prop where
  exists_eq : ∃ later, ts = front ++ final :: later
  kind_final : final.kind = .endOfText
  kind_front : ∀ t ∈ front, t.kind ≠ .endOfText

/-! ## The end of the tokens -/

/-- Tokens that have an end among them are cut off there. -/
theorem takeWhile_append_find? {ts : List Token} {final : Token}
    (h : ts.find? (·.kind = .endOfText) = some final) :
    ∃ later, ts = ts.takeWhile (·.kind ≠ .endOfText) ++ final :: later := by
  induction ts with
  | nil => cases h
  | cons t ts ih =>
    by_cases ht : t.kind = .endOfText
    · simp only [List.find?_cons, ht, decide_true, Option.some.injEq] at h
      subst h
      exact ⟨ts, by simp [ht]⟩
    · simp only [List.find?_cons, ht, decide_false] at h
      obtain ⟨later, hlater⟩ := ih h
      refine ⟨later, ?_⟩
      rw [List.takeWhile_cons_of_pos (by simpa using ht), List.cons_append, ← hlater]

/-- Reading and walking agree on where the tokens end. -/
theorem ends_terminated (ts : List Token) :
    Ends (Reading.terminated ts) (ts.takeWhile (·.kind ≠ .endOfText)) (Reading.finalToken ts) := by
  have hfront : ∀ t ∈ ts.takeWhile (·.kind ≠ .endOfText), t.kind ≠ .endOfText := by
    intro t ht
    simpa using List.mem_takeWhile_imp ht
  unfold Reading.finalToken
  cases hfind : ts.find? (·.kind = .endOfText) with
  | some final =>
    -- a second end behind the last token does no harm
    obtain ⟨later, hlater⟩ := takeWhile_append_find? hfind
    have hkind : final.kind = .endOfText := by simpa using List.find?_some hfind
    have hbehind : ∃ more, Reading.terminated ts = ts ++ more := by
      unfold Reading.terminated
      cases hlast : ts.getLast? with
      | none =>
        rw [List.getLast?_eq_none_iff.1 hlast] at hfind
        cases hfind
      | some t =>
        by_cases ht : t.kind = .endOfText
        · exact ⟨[], by simp [ht]⟩
        · exact ⟨[_], by simp only [ht, if_false]; rfl⟩
    obtain ⟨more, hmore⟩ := hbehind
    refine ⟨⟨later ++ more, ?_⟩, hkind, hfront⟩
    rw [hmore, ← List.cons_append, ← List.append_assoc, ← hlater]
  | none =>
    have hall : ∀ t ∈ ts, t.kind ≠ .endOfText := by simpa using hfind
    have htake : ts.takeWhile (·.kind ≠ .endOfText) = ts :=
      List.takeWhile_eq_self_iff.2 (by simpa using hall)
    rw [htake] at hfront ⊢
    unfold Reading.terminated
    cases hlast : ts.getLast? with
    | none =>
      obtain rfl := List.getLast?_eq_none_iff.1 hlast
      exact ⟨⟨[], rfl⟩, rfl, hfront⟩
    | some t =>
      have ht : t.kind ≠ .endOfText := hall t (List.mem_of_getLast? hlast)
      simp only [ht, if_false]
      exact ⟨⟨[], rfl⟩, rfl, hfront⟩

variable {ts front : List Token} {final : Token}

namespace Ends

/-- Up to the end there is a token wherever the cursor is. -/
theorem getElem?_eq (h : Ends ts front final) {i : Nat} (hi : i ≤ front.length) :
    ts[i]? = some ((front.drop i).headD final) := by
  obtain ⟨later, rfl⟩ := h.exists_eq
  rw [List.headD_eq_head?_getD, List.head?_drop]
  rcases Nat.lt_or_eq_of_le hi with hlt | rfl
  · rw [List.getElem?_append_left hlt, List.getElem?_eq_getElem hlt]
    rfl
  · rw [List.getElem?_append_right (Nat.le_refl _), Nat.sub_self]
    simp

theorem advance?_of_lt (h : Ends ts front final) {i : Nat} (hi : i < front.length) :
    advance? ts i = some (i + 1) := by
  have hkind := h.kind_front _ (List.getElem_mem hi)
  rw [advance?, h.getElem?_eq hi.le, List.drop_eq_getElem_cons hi, List.headD_cons, Option.map_some,
    if_neg hkind]

theorem advance?_length (h : Ends ts front final) :
    advance? ts front.length = some front.length := by
  rw [advance?, h.getElem?_eq (Nat.le_refl _), List.drop_length]
  simp [h.kind_final]

/-- The cursor is at the end of the tokens, or in front of one of them. -/
theorem drop_cases (h : Ends ts front final) {i : Nat} (hi : i ≤ front.length) :
    (i = front.length ∧ front.drop i = []) ∨
      ∃ t, i < front.length ∧ t.kind ≠ .endOfText ∧ front.drop i = t :: front.drop (i + 1) := by
  rcases Nat.lt_or_eq_of_le hi with hlt | rfl
  · exact .inr ⟨front[i], hlt, h.kind_front _ (List.getElem_mem hlt), List.drop_eq_getElem_cons hlt⟩
  · exact .inl ⟨rfl, List.drop_length⟩

end Ends

/-! ## Slots -/

/-- The operands that were found, or the error for the slot whose token is missing. -/
def result (final : Token) : Filling → Except SyntaxError (List Token)
  | .complete operands _ => .ok operands
  | .missing slot rest => .error ⟨.expectedSlot slot.kind, rest.headD final, slot.message⟩

theorem result_addOperand (final t : Token) (f : Filling) :
    result final (f.addOperand t) = (result final f).map (t :: ·) := by
  cases f with
  | complete operands rest => rfl
  | missing slot rest => rfl

/-- The cursor takes the tokens that fill the slots, and stops behind them. -/
theorem fill?_eq (h : Ends ts front final) (slots : List Slot) {i : Nat}
    (hi : i ≤ front.length) :
    fill? ts slots i = some (result final (Filling.ofTokens slots (front.drop i)),
      front.length - (Filling.ofTokens slots (front.drop i)).rest.length) := by
  induction slots generalizing i with
  | nil =>
    rw [fill?, Filling.ofTokens, Filling.rest, length_sub_length_drop hi]
    rfl
  | cons slot slots ih =>
    have hlength := length_sub_length_drop hi
    rw [fill?, h.getElem?_eq hi]
    rcases h.drop_cases hi with ⟨rfl, hdrop⟩ | ⟨t, hlt, hkind, hdrop⟩
    · rw [hdrop]
      simp [Filling.ofTokens, Filling.rest, result, h.kind_final]
    · have hrest := ih (i := i + 1) hlt
      rw [hdrop] at hlength ⊢
      rw [Filling.ofTokens]
      by_cases hadmits : slot.admits t.kind
      · simp only [List.headD_cons, hkind, hadmits, ne_eq, not_false_eq_true, and_self, if_true,
          Option.bind_eq_bind, Option.bind_some, h.advance?_of_lt hlt, hrest]
        by_cases hcomma : slot.kind = .comma
        · simp only [hcomma, if_true]
          cases result final (Filling.ofTokens slots (front.drop (i + 1))) with
          | ok us => rfl
          | error e => rfl
        · simp only [hcomma, if_false, result_addOperand, Filling.rest_addOperand]
          rfl
      · rw [if_neg hadmits, Filling.rest, hlength]
        simp [hadmits, result]

/-! ## Declarations -/

/-- The cursor reads a label as an attempt does, and stops where the attempt stops. -/
theorem label?_eq (h : Ends ts front final) {i : Nat} (hi : i < front.length) {t : Token}
    (hdrop : front.drop i = t :: front.drop (i + 1)) (ht : t.kind = .identifier) :
    label? ts i = some ((Attempt.ofLabel final ⟨t, ht⟩ (front.drop (i + 1))).outcome,
      front.length - (Attempt.ofLabel final ⟨t, ht⟩ (front.drop (i + 1))).rest.length) := by
  have hlabel : Operand.Label.ofToken? t = some ⟨t, ht⟩ := by simp [Operand.Label.ofToken?, ht]
  have hlength := length_sub_length_drop (Nat.succ_le_of_lt hi)
  rw [label?, h.getElem?_eq hi.le, hdrop]
  simp only [List.headD_cons, Option.bind_eq_bind, Option.bind_some, h.advance?_of_lt hi,
    h.getElem?_eq hi, hlabel]
  rcases h.drop_cases hi with ⟨-, hnil⟩ | ⟨u, hlt, -, hcons⟩
  · rw [hnil] at hlength ⊢
    rw [Attempt.ofLabel, Attempt.stop, Attempt.rest, hlength]
    simp [Attempt.outcome, h.kind_final]
  · have hbehind := length_sub_length_drop (Nat.succ_le_of_lt hlt)
    rw [hcons] at hlength ⊢
    rw [Attempt.ofLabel]
    by_cases hu : u.kind = .colon
    · rw [if_pos hu, Attempt.rest, hbehind]
      simp [hu, h.advance?_of_lt hlt, Attempt.outcome]
    · rw [if_neg hu, Attempt.stop, Attempt.rest, hlength]
      simp [hu, Attempt.outcome]

/-- The cursor reads an instruction as an attempt does. -/
theorem instruction?_eq (h : Ends ts front final) (g : Grammar) {i : Nat} (hi : i < front.length)
    {t : Token} (hdrop : front.drop i = t :: front.drop (i + 1)) (ht : t.kind ≠ .identifier) :
    instruction? g ts i = some ((Attempt.ofTokens g final t (front.drop (i + 1))).outcome,
      front.length - (Attempt.ofTokens g final t (front.drop (i + 1))).rest.length) := by
  have hlength := length_sub_length_drop hi.le
  rw [hdrop] at hlength
  rw [instruction?, h.getElem?_eq hi.le, hdrop]
  simp only [List.headD_cons, Option.bind_eq_bind, Option.bind_some, h.advance?_of_lt hi,
    fill?_eq h _ hi]
  cases hm : t.kind.mnemonic? with
  | none =>
    rw [Attempt.ofTokens_of_ne g final _ ht hm, Attempt.stop, Attempt.rest, hlength]
    simp [Grammar.slotsAfter?, hm, Attempt.outcome]
  | some m =>
    have hkind : t.kind = .mnemonic m := Token.Kind.mnemonic?_eq_some_iff.1 hm
    rw [Attempt.ofTokens_of_mnemonic g final _ hkind]
    simp only [Grammar.slotsAfter?, hm, Option.bind_some]
    cases hslots : g.slots? m with
    | none =>
      simp only [Attempt.stop, Attempt.rest, hlength]
      rfl
    | some slots =>
      simp only [Attempt.ofMnemonic]
      cases Filling.ofTokens slots (front.drop (i + 1)) with
      | missing slot rest => rfl
      | complete operands rest =>
        simp only [result, Filling.rest]
        cases hread : Instruction.ofTokens? m operands with
        | none =>
          rw [hkind]
          rfl
        | some instruction => rfl

/-- The cursor reads a declaration as an attempt does. -/
theorem declaration?_eq (h : Ends ts front final) (g : Grammar) {i : Nat} (hi : i < front.length)
    {t : Token} (hdrop : front.drop i = t :: front.drop (i + 1)) :
    declaration? g ts i = some ((Attempt.ofTokens g final t (front.drop (i + 1))).outcome,
      front.length - (Attempt.ofTokens g final t (front.drop (i + 1))).rest.length) := by
  rw [declaration?, h.getElem?_eq hi.le, hdrop]
  by_cases ht : t.kind = .identifier
  · rw [Attempt.ofTokens_of_identifier g final _ ht]
    simpa [ht] using label?_eq h hi hdrop ht
  · simpa [ht] using instruction?_eq h g hi hdrop ht

/-! ## Going on after an error -/

/-- The cursor passes what only continues a statement. -/
theorem skip?_eq (h : Ends ts front final) {turns i : Nat} (hi : i ≤ front.length)
    (hturns : front.length - i < turns) :
    skip? ts turns i = some (front.length -
      ((front.drop i).dropWhile fun t => Attempt.onlyContinues t.kind).length) := by
  induction turns generalizing i with
  | zero => cases hturns
  | succ turns ih =>
    have hlength := length_sub_length_drop hi
    rw [skip?, h.getElem?_eq hi]
    rcases h.drop_cases hi with ⟨rfl, hdrop⟩ | ⟨t, hlt, hkind, hdrop⟩
    · simp [hdrop, h.kind_final]
    · rw [hdrop] at hlength ⊢
      by_cases hcontinues : Attempt.onlyContinues t.kind
      · rw [List.dropWhile_cons, if_pos hcontinues, ← ih hlt (by omega)]
        simp [hkind, hcontinues, h.advance?_of_lt hlt]
      · rw [List.dropWhile_cons, if_neg hcontinues, hlength]
        simp [hcontinues]

/-- The cursor goes on where reading does. -/
theorem synchronize?_eq (h : Ends ts front final) {turns i : Nat} (hi : i ≤ front.length)
    (hpos : 0 < turns) (hturns : front.length - i ≤ turns) :
    synchronize? ts turns i =
      some (front.length - (Attempt.recover (front.drop i)).length) := by
  rw [synchronize?, Attempt.recover, List.drop_drop]
  rcases Nat.lt_or_eq_of_le hi with hlt | rfl
  · simp only [h.advance?_of_lt hlt, Option.bind_eq_bind, Option.bind_some]
    exact skip?_eq h hlt (by omega)
  · have hend : front.length - front.length < turns := by omega
    simp only [h.advance?_length, Option.bind_eq_bind, Option.bind_some]
    rw [skip?_eq h (Nat.le_refl _) hend, List.drop_length, List.drop_of_length_le (Nat.le_succ _)]

/-- A turn goes over what an attempt uses up and gives up. -/
theorem turn?_eq (h : Ends ts front final) (g : Grammar) {turns i : Nat} (hi : i < front.length)
    (hturns : front.length - i ≤ turns) {t : Token}
    (hdrop : front.drop i = t :: front.drop (i + 1)) :
    let attempt := Attempt.ofTokens g final t (front.drop (i + 1))
    turn? g ts turns i = some ⟨i, front.length - attempt.rest.length,
      front.length - attempt.next.length, attempt.outcome⟩ := by
  intro attempt
  obtain ⟨us, hus⟩ := Attempt.exists_eq_append_rest g final t (front.drop (i + 1))
  rw [turn?, declaration?_eq h g hi hdrop]
  rw [← hdrop] at hus
  obtain ⟨hcursor, hrest⟩ := drop_of_drop_eq_append hi.le hus
  cases hattempt : attempt with
  | read s rest =>
    simp only [attempt] at hattempt
    simp [hattempt, Attempt.outcome, Attempt.next, Attempt.rest]
  | failed e rest =>
    simp only [attempt] at hattempt
    rw [hattempt, Attempt.rest] at hcursor hrest
    have hinside : i + us.length ≤ front.length := by omega
    have hsynchronize := synchronize?_eq h hinside (by omega) (by omega : _ ≤ turns)
    simp [hattempt, Attempt.outcome, Attempt.next, Attempt.rest, hcursor, hsynchronize, hrest]

end Cursor

end AqaAssembly
