import AqaAssembly.Proofs.Program.Language
import Mathlib.Data.List.TakeWhile

/-!
# Recovering from syntax errors

The tokens in front of the end of a program fall into regions, one for each attempt to read a
declaration: the tokens that the attempt used up, and those that were given up because it failed
(`Reading.Splits`).  Where an attempt stops and what it then reports is said without the reader, by
`Stops`.

The main result is `Reading.gives_up_only_reported`: a token that could begin a declaration is only
given up when it is the one that the error names, or when it stands behind an instruction whose rule
does not fit it.  The exception is real (`Reading.swallowed_behind_unfit_rule`): there the error
names the mnemonic, which is used up already, and the token that is given up in its place is not
reported.
-/

namespace AqaAssembly

/-- The tokens are what an attempt to read a declaration can use up: a label with or without its
colon, or a mnemonic with tokens for the first of its slots. -/
inductive IsBegun (g : Grammar) : List Token → Prop
  | nothing : IsBegun g []
  | label {t : Token} (ht : t.kind = .identifier) : IsBegun g [t]
  | declared {t colon : Token} (ht : t.kind = .identifier) (hcolon : colon.kind = .colon) :
    IsBegun g [t, colon]
  | instruction {t : Token} {m : Mnemonic} {slots later : List Slot} {us : List Token}
    (ht : t.kind = .mnemonic m) (hslots : g.slots? m = some (slots ++ later))
    (htake : List.Forall₂ Slot.Takes slots us) : IsBegun g (t :: us)

/-- Reading a declaration stops with the error, behind the first tokens and in front of the others.
At the end of the program, `final` is what stands there. -/
inductive Stops (g : Grammar) (final : Token) : List Token → List Token → SyntaxError → Prop
  | unexpected {t : Token} {ts : List Token} (hlabel : t.kind ≠ .identifier)
    (hinstruction : ∀ m, t.kind = .mnemonic m → g.slots? m = none) :
    Stops g final [] (t :: ts) ⟨.unexpectedToken, t, "Unexpected token"⟩
  | noColon {t : Token} {ts : List Token} (ht : t.kind = .identifier)
    (hts : ∀ u ∈ ts.head?, u.kind ≠ .colon) :
    Stops g final [t] ts ⟨.expectedColon, ts.headD final, "Expect colon after label identifier"⟩
  | noOperand {t : Token} {m : Mnemonic} {slots later : List Slot} {slot : Slot}
    {us ts : List Token} (ht : t.kind = .mnemonic m)
    (hslots : g.slots? m = some (slots ++ slot :: later))
    (htake : List.Forall₂ Slot.Takes slots us) (hts : ∀ u ∈ ts.head?, ¬ slot.Takes u) :
    Stops g final (t :: us) ts ⟨.expectedSlot slot.kind, ts.headD final, slot.message⟩
  | unfitRule {t : Token} {m : Mnemonic} {slots : List Slot} {us : List Token} (ts : List Token)
    (ht : t.kind = .mnemonic m) (hslots : g.slots? m = some slots)
    (htake : List.Forall₂ Slot.Takes slots us)
    (hread : Instruction.ofTokens? m (Slot.operandTokens slots us) = none) :
    Stops g final (t :: us) ts ⟨.unfitRule (.mnemonic m), t, "malformed syntax table entry"⟩

theorem IsDeclaration.isBegun {g : Grammar} {us : List Token} {s : Statement}
    (h : IsDeclaration g us s) : IsBegun g us := by
  cases h with
  | label ht hcolon => exact .declared ht hcolon
  | @instruction _ _ slots _ _ ht hslots htake _ =>
    rw [← List.append_nil slots] at hslots
    exact .instruction ht hslots htake

namespace Stops

variable {g : Grammar} {final : Token} {us ts : List Token} {e : SyntaxError}

theorem isBegun (h : Stops g final us ts e) : IsBegun g us := by
  cases h with
  | unexpected _ _ => exact .nothing
  | noColon ht _ => exact .label ht
  | noOperand ht hslots htake _ => exact .instruction ht hslots htake
  | @unfitRule _ _ slots _ _ ht hslots htake _ =>
    rw [← List.append_nil slots] at hslots
    exact .instruction ht hslots htake

/-- The error names the token in front of which reading stopped.  Only when a rule does not fit its
instruction it names the mnemonic. -/
theorem token_eq (h : Stops g final us ts e) :
    e.token = ts.headD final ∨
      ∃ m, e.cause = .unfitRule (.mnemonic m) ∧ us.head? = some e.token := by
  cases h with
  | unexpected _ _ => exact .inl rfl
  | noColon _ _ => exact .inl rfl
  | noOperand _ _ _ _ => exact .inl rfl
  | unfitRule _ _ _ _ _ => exact .inr ⟨_, rfl, rfl⟩

end Stops

/-! ## One attempt -/

theorem Filling.eq_missing_of_addOperand {t : Token} {f : Filling} {slot : Slot} {rest : List Token}
    (h : f.addOperand t = .missing slot rest) : f = .missing slot rest := by
  cases f with
  | complete operands r => cases h
  | missing s r => exact h

/-- Slots that are not filled are filled up to the one whose token is missing. -/
theorem Filling.exists_of_ofTokens_eq_missing {slots : List Slot} {slot : Slot}
    {ts rest : List Token} (h : ofTokens slots ts = .missing slot rest) :
    ∃ filled later us, slots = filled ++ slot :: later ∧ List.Forall₂ Slot.Takes filled us ∧
      ts = us ++ rest ∧ ∀ u ∈ rest.head?, ¬ slot.Takes u := by
  fun_induction ofTokens slots ts with
  | case1 ts => cases h
  | case2 slot slots =>
    cases h
    exact ⟨[], slots, [], rfl, .nil, rfl, fun _ hu => by cases hu⟩
  | case3 s slots t ts hadmits _ ih =>
    obtain ⟨filled, later, us, rfl, hus, rfl, hrest⟩ := ih h
    exact ⟨s :: filled, later, t :: us, rfl, .cons (Slot.admits_iff.1 hadmits) hus, rfl, hrest⟩
  | case4 s slots t ts hadmits _ ih =>
    obtain ⟨filled, later, us, rfl, hus, rfl, hrest⟩ := ih (eq_missing_of_addOperand h)
    exact ⟨s :: filled, later, t :: us, rfl, .cons (Slot.admits_iff.1 hadmits) hus, rfl, hrest⟩
  | case5 s slots t ts hadmits =>
    cases h
    refine ⟨[], slots, [], rfl, .nil, rfl, fun u hu => ?_⟩
    cases hu
    exact fun htakes => hadmits (Slot.admits_iff.2 htakes)

namespace Attempt

/-- The kinds that only continue a statement. -/
theorem onlyContinues_eq (k : Token.Kind) :
    onlyContinues k =
      decide (k ∈ [.register, .immediate, .address, .operand, .colon, .comma]) := by
  cases k with
  | mnemonic m => simp [onlyContinues]
  | _ => rfl

/-- Reading goes on behind the first token, at the next one that is no operand, no colon and no comma. -/
theorem recover_eq (ts : List Token) :
    recover ts = (ts.drop 1).dropWhile fun t =>
      t.kind ∈ [.register, .immediate, .address, .operand, .colon, .comma] := by
  simp only [recover, onlyContinues_eq]

/-- The tokens that are given up when reading has stopped in front of some tokens: the first, and
then operands, colons and commas. -/
def givenUp (ts : List Token) : List Token :=
  ts.take 1 ++ (ts.drop 1).takeWhile fun t =>
    t.kind ∈ [.register, .immediate, .address, .operand, .colon, .comma]

/-- Reading goes on behind what is given up. -/
theorem givenUp_append_recover (ts : List Token) : givenUp ts ++ recover ts = ts := by
  rw [givenUp, recover_eq, List.append_assoc, List.takeWhile_append_dropWhile,
    List.take_append_drop]

/-- A token that could begin a declaration is only given up if reading has stopped at it. -/
theorem head?_of_mem_givenUp {t : Token} {ts : List Token} (ht : t ∈ givenUp ts)
    (hkind : t.kind ∉ [.register, .immediate, .address, .operand, .colon, .comma]) :
    ts.head? = some t := by
  cases ts with
  | nil => cases ht
  | cons u ts =>
    rcases List.mem_cons.1 ht with rfl | ht
    · rfl
    · have hcontinues := List.mem_takeWhile_imp ht
      exact absurd (of_decide_eq_true hcontinues) hkind

theorem head?_givenUp (ts : List Token) : (givenUp ts).head? = ts.head? := by
  cases ts with
  | nil => rfl
  | cons t ts => rfl

theorem stops_of_ofLabel_eq_failed {g : Grammar} {final t : Token} {ts rest : List Token}
    {e : SyntaxError} (ht : t.kind = .identifier)
    (h : ofLabel final ⟨t, ht⟩ ts = .failed e rest) :
    ts = rest ∧ Stops g final [t] rest e := by
  unfold ofLabel at h
  split at h
  · split at h
    · cases h
    · rename_i hcolon
      cases h
      refine ⟨rfl, .noColon ht fun u hu => ?_⟩
      cases hu
      exact hcolon
  · cases h
    exact ⟨rfl, .noColon ht fun _ hu => by cases hu⟩

theorem stops_of_ofMnemonic_eq_failed {g : Grammar} {final t : Token} {m : Mnemonic}
    {slots : List Slot} {ts rest : List Token} {e : SyntaxError} (ht : t.kind = .mnemonic m)
    (hslots : g.slots? m = some slots) (h : ofMnemonic final m t slots ts = .failed e rest) :
    ∃ us, ts = us ++ rest ∧ Stops g final (t :: us) rest e := by
  unfold ofMnemonic at h
  split at h
  · rename_i slot r hfilling
    cases h
    obtain ⟨filled, later, us, rfl, hus, rfl, hrest⟩ :=
      Filling.exists_of_ofTokens_eq_missing hfilling
    exact ⟨us, rfl, .noOperand ht hslots hus hrest⟩
  · rename_i operands r hfilling
    obtain ⟨us, hus, rfl, rfl⟩ := Filling.exists_of_ofTokens_eq_complete hfilling
    split at h
    · cases h
    · rename_i hread
      cases h
      exact ⟨us, rfl, .unfitRule _ ht hslots hus hread⟩

/-- An attempt that fails stops somewhere in the tokens. -/
theorem stops_of_ofTokens_eq_failed {g : Grammar} {final t : Token} {ts rest : List Token}
    {e : SyntaxError} (h : ofTokens g final t ts = .failed e rest) :
    ∃ us, t :: ts = us ++ rest ∧ Stops g final us rest e := by
  by_cases ht : t.kind = .identifier
  · rw [ofTokens_of_identifier g final ts ht] at h
    obtain ⟨rfl, hstops⟩ := stops_of_ofLabel_eq_failed ht h
    exact ⟨[t], rfl, hstops⟩
  · cases hm : t.kind.mnemonic? with
    | none =>
      rw [ofTokens_of_ne g final ts ht hm] at h
      cases h
      refine ⟨[], rfl, .unexpected ht fun m hkind => ?_⟩
      rw [hkind] at hm
      cases hm
    | some m =>
      have hkind : t.kind = .mnemonic m := Token.Kind.mnemonic?_eq_some_iff.1 hm
      rw [ofTokens_of_mnemonic g final ts hkind] at h
      cases hslots : g.slots? m with
      | some slots =>
        rw [hslots] at h
        obtain ⟨us, rfl, hstops⟩ := stops_of_ofMnemonic_eq_failed hkind hslots h
        exact ⟨t :: us, rfl, hstops⟩
      | none =>
        rw [hslots] at h
        cases h
        refine ⟨[], rfl, .unexpected ht fun n hn => ?_⟩
        rw [hkind] at hn
        cases hn
        exact hslots

end Attempt

/-! ## Regions -/

/-- Consecutive tokens of a program and what became of them. -/
structure Region where
  /-- The tokens that an attempt to read a declaration used up. -/
  used : List Token
  /-- The tokens that were given up behind them. -/
  dropped : List Token
  /-- What was read, or the error that was reported. -/
  outcome : Except SyntaxError Statement

namespace Region

/-- All tokens of the region. -/
def tokens (r : Region) : List Token := r.used ++ r.dropped

/-- The region arises in front of some tokens: it is a declaration, or what is given up when reading
one stops. -/
inductive Arises (g : Grammar) (final : Token) : Region → List Token → Prop
  | read {us : List Token} {s : Statement} (h : IsDeclaration g us s) (rest : List Token) :
    Arises g final ⟨us, [], .ok s⟩ rest
  | failed {us ts : List Token} {e : SyntaxError} (h : Stops g final us ts e) :
    Arises g final ⟨us, Attempt.givenUp ts, .error e⟩ (Attempt.recover ts)

variable {g : Grammar} {final : Token} {r : Region} {rest : List Token}

theorem Arises.isBegun (h : r.Arises g final rest) : IsBegun g r.used := by
  cases h with
  | read h rest => exact h.isBegun
  | failed h => exact h.isBegun

/-- A token that could begin a declaration is only given up when it is the one that the error names,
or behind an instruction whose rule does not fit it. -/
theorem Arises.reported (h : r.Arises g final rest) {t : Token} (ht : t ∈ r.dropped)
    (hkind : t.kind ∉ [.register, .immediate, .address, .operand, .colon, .comma]) :
    r.dropped.head? = some t ∧ ∃ e, r.outcome = .error e ∧
      (e.token = t ∨ ∃ m, e.cause = .unfitRule (.mnemonic m) ∧ r.used.head? = some e.token) := by
  cases h with
  | read h rest => cases ht
  | @failed us ts e h =>
    have hhead := Attempt.head?_of_mem_givenUp ht hkind
    refine ⟨(Attempt.head?_givenUp ts).trans hhead, e, rfl, h.token_eq.imp_left fun htoken => ?_⟩
    rw [htoken, List.headD_eq_head?_getD, hhead]
    rfl

end Region

/-- Every attempt makes a region in front of the tokens with which reading goes on. -/
theorem Attempt.exists_arises (g : Grammar) (final t : Token) (ts : List Token) :
    ∃ r : Region, r.Arises g final (ofTokens g final t ts).next ∧
      r.outcome = (ofTokens g final t ts).outcome ∧
      t :: ts = r.tokens ++ (ofTokens g final t ts).next := by
  cases hattempt : ofTokens g final t ts with
  | read s rest =>
    obtain ⟨us, hus, rfl⟩ := exists_of_ofTokens_eq_read hattempt
    refine ⟨⟨t :: us, [], .ok s⟩, .read hus rest, rfl, ?_⟩
    rw [Region.tokens, List.append_nil]
    rfl
  | failed e rest =>
    obtain ⟨us, hus, hstops⟩ := stops_of_ofTokens_eq_failed hattempt
    refine ⟨⟨us, givenUp rest, .error e⟩, .failed hstops, rfl, ?_⟩
    rw [hus, Region.tokens, List.append_assoc]
    exact congrArg (us ++ ·) (givenUp_append_recover rest).symm

namespace Reading

/-- The tokens fall into the regions, one for each attempt to read a declaration. -/
inductive Splits (g : Grammar) (final : Token) : List Token → List Region → Prop
  | nil : Splits g final [] []
  | cons {r : Region} {rest : List Token} {rs : List Region} (hr : r.Arises g final rest)
    (hrest : Splits g final rest rs) : Splits g final (r.tokens ++ rest) (r :: rs)

namespace Splits

variable {g : Grammar} {final : Token} {ts : List Token} {rs : List Region}

/-- No token is lost between regions. -/
theorem flatMap_tokens (h : Splits g final ts rs) : rs.flatMap Region.tokens = ts := by
  induction h with
  | nil => rfl
  | cons _ _ ih => rw [List.flatMap_cons, ih]

theorem exists_arises (h : Splits g final ts rs) {r : Region} (hr : r ∈ rs) :
    ∃ rest, r.Arises g final rest := by
  induction h with
  | nil => cases hr
  | @cons r' rest rs hr' _ ih =>
    rcases List.mem_cons.1 hr with rfl | hr
    · exact ⟨rest, hr'⟩
    · exact ih hr

end Splits

/-- Reading splits its tokens into regions, and tells what became of each. -/
theorem exists_splits (g : Grammar) (final : Token) (ts : List Token) :
    ∃ rs, Splits g final ts rs ∧ outcomes g final ts = rs.map Region.outcome := by
  fun_induction outcomes g final ts with
  | case1 => exact ⟨[], .nil, rfl⟩
  | case2 t ts attempt ih =>
    obtain ⟨rs, hsplits, hrs⟩ := ih
    obtain ⟨r, harises, houtcome, htokens⟩ := Attempt.exists_arises g final t ts
    refine ⟨r :: rs, ?_, ?_⟩
    · rw [htokens]
      exact .cons harises hsplits
    · rw [hrs, List.map_cons, houtcome]

/-- Every token in front of the end belongs to the region of one attempt, and reading tells what
became of each attempt.  A token that could begin a declaration is used up by an attempt, as a label,
as a mnemonic or by a slot, or it is the token that the error of the attempt names, with one
exception: behind an instruction whose rule does not fit it, one more token is given up. -/
theorem gives_up_only_reported (g : Grammar) (ts : List Token) : ∃ rs : List Region,
    Splits g (finalToken ts) (ts.takeWhile (·.kind ≠ .endOfText)) rs ∧
    rs.flatMap Region.tokens = ts.takeWhile (·.kind ≠ .endOfText) ∧
    (ofTokens g ts).program = statements (rs.map Region.outcome) ∧
    (ofTokens g ts).errors = failures (rs.map Region.outcome) ∧
    ∀ r ∈ rs, IsBegun g r.used ∧ ∀ t ∈ r.dropped,
      t.kind ∉ [.register, .immediate, .address, .operand, .colon, .comma] →
        r.dropped.head? = some t ∧ ∃ e, r.outcome = .error e ∧
          (e.token = t ∨
            ∃ m, e.cause = .unfitRule (.mnemonic m) ∧ r.used.head? = some e.token) := by
  obtain ⟨rs, hsplits, hrs⟩ :=
    exists_splits g (finalToken ts) (ts.takeWhile (·.kind ≠ .endOfText))
  refine ⟨rs, hsplits, hsplits.flatMap_tokens, congrArg statements hrs, congrArg failures hrs,
    fun r hr => ?_⟩
  obtain ⟨rest, harises⟩ := hsplits.exists_arises hr
  exact ⟨harises.isBegun, fun t ht hkind => harises.reported ht hkind⟩

/-- Every outcome is a statement or a failure. -/
theorem length_statements_add_length_failures (rs : List (Except SyntaxError Statement)) :
    (statements rs).length + (failures rs).length = rs.length := by
  induction rs with
  | nil => rfl
  | cons r rs ih =>
    cases r with
    | ok s =>
      have hstatements : statements (.ok s :: rs) = s :: statements rs := rfl
      have hfailures : failures (.ok s :: rs) = failures rs := rfl
      rw [hstatements, hfailures, List.length_cons, List.length_cons]
      omega
    | error e =>
      have hstatements : statements (.error e :: rs) = statements rs := rfl
      have hfailures : failures (.error e :: rs) = e :: failures rs := rfl
      rw [hstatements, hfailures, List.length_cons, List.length_cons]
      omega

/-- The grammar that asks for a register behind `B`, and for nothing behind `HALT`. -/
def registerBranch : Grammar where
  slots?
    | .b => some [⟨.register, "Expect register"⟩]
    | .halt => some []
    | _ => none
  kind_ne_endOfText m slots h := by
    cases m with
    | b | halt =>
      cases h
      decide
    | _ => cases h

/-- Behind `B r1`, `HALT` is neither read nor reported: the tokens do not fall into regions that
account for every token that could begin a declaration. -/
theorem swallowed_behind_unfit_rule :
    let ts := Source.tokens "B r1\nHALT"
    ¬ ∃ rs : List Region,
      rs.flatMap Region.tokens = ts.takeWhile (·.kind ≠ .endOfText) ∧
      (ofTokens registerBranch ts).program = statements (rs.map Region.outcome) ∧
      (ofTokens registerBranch ts).errors = failures (rs.map Region.outcome) ∧
      ∀ r ∈ rs, IsBegun registerBranch r.used ∧
        ∀ t ∈ r.dropped, t.kind ∉ [.register, .immediate, .address, .operand, .colon, .comma] →
          ∃ e, r.outcome = .error e ∧ e.token = t := by
  intro ts
  let branch : Token := ⟨.mnemonic .b, "B", some (.name "B"), 1, ⟨0, 1⟩⟩
  let register : Token := ⟨.register, "r1", some (.integer 1), 1, ⟨2, 4⟩⟩
  let halt : Token := ⟨.mnemonic .halt, "HALT", some (.name "HALT"), 2, ⟨5, 9⟩⟩
  have hfront : ts.takeWhile (·.kind ≠ .endOfText) = [branch, register, halt] := by
    decide +kernel
  have hprogram : (ofTokens registerBranch ts).program.length = 0 := by decide +kernel
  have herrors : (ofTokens registerBranch ts).errors =
      [⟨.unfitRule (.mnemonic .b), branch, "malformed syntax table entry"⟩] := by decide +kernel
  rw [hfront, herrors]
  rintro ⟨rs, htokens, hstatements, hfailures, hrs⟩
  -- one error and no statement: there is a single region, whose outcome is the error
  have hlength : rs.length = 1 := by
    have hsum := length_statements_add_length_failures (rs.map Region.outcome)
    rw [← hstatements, ← hfailures, hprogram, List.length_map] at hsum
    exact hsum.symm
  obtain ⟨r, rfl⟩ := List.length_eq_one_iff.1 hlength
  obtain ⟨hbegun, hdropped⟩ := hrs r (List.mem_singleton.2 rfl)
  rw [List.flatMap_singleton, Region.tokens] at htokens
  have hhalt : halt ∈ r.dropped := by
    have hshort : r.used.length ≤ 2 := by
      generalize r.used = us at hbegun htokens
      cases hbegun with
      | nothing => exact Nat.zero_le 2
      | label _ => exact Nat.le_succ 1
      | declared _ _ => exact Nat.le_refl 2
      | instruction ht hslots htake =>
        obtain ⟨rfl, -⟩ := List.cons.inj htokens
        cases ht
        have hlater := congrArg List.length (Option.some.inj hslots)
        rw [List.length_append, htake.length_eq, List.length_singleton] at hlater
        rw [List.length_cons]
        omega
    have hlast : (r.used ++ r.dropped)[2]? = some halt := by
      rw [htokens]
      rfl
    rw [List.getElem?_append_right hshort] at hlast
    exact List.mem_of_getElem? hlast
  obtain ⟨e, he, htoken⟩ := hdropped halt hhalt (by decide)
  rw [List.map_singleton, he] at hfailures
  have hreported : e = ⟨.unfitRule (.mnemonic .b), branch, "malformed syntax table entry"⟩ :=
    (List.cons.inj hfailures).1.symm
  rw [hreported] at htoken
  exact absurd htoken (by decide)

end Reading

end AqaAssembly
