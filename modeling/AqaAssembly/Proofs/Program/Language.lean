import AqaAssembly.Grammar.Standard
import AqaAssembly.Program.Parse
import Mathlib.Data.List.Forall2

/-!
# The language of a grammar

A grammar describes a language: programs are declarations one after another, and a declaration is a
label with its colon, or a mnemonic with one token for every slot that the grammar has for it
(`IsDeclaration`).  Nothing is said here about how declarations are found.

The main result is `errors_eq_nil_iff_decomposes`: reading reports no error exactly if the tokens in
front of the end can be decomposed into declarations, they can be in one way only, and the program
that is read is the statements of these declarations in order.
-/

namespace AqaAssembly

/-- Does the token belong into the slot? -/
def Slot.Takes (slot : Slot) (t : Token) : Prop :=
  if slot.kind = .operand then t.kind = .register ∨ t.kind = .immediate else t.kind = slot.kind

/-- The tokens in the slots that do not ask for a comma. -/
def Slot.operandTokens (slots : List Slot) (ts : List Token) : List Token :=
  (slots.zip ts).filterMap fun (slot, t) => if slot.kind = .comma then none else some t

/-- The tokens are the declaration of the statement. -/
inductive IsDeclaration (g : Grammar) : List Token → Statement → Prop
  | label {t colon : Token} (ht : t.kind = .identifier) (hcolon : colon.kind = .colon) :
    IsDeclaration g [t, colon] (.label ⟨t, ht⟩)
  | instruction {t : Token} {m : Mnemonic} {slots : List Slot} {ts : List Token} {i : Instruction}
    (ht : t.kind = .mnemonic m) (hslots : g.slots? m = some slots)
    (htake : List.Forall₂ Slot.Takes slots ts)
    (hread : Instruction.ofTokens? m (Slot.operandTokens slots ts) = some i) :
    IsDeclaration g (t :: ts) (.instruction i)

/-- The tokens are these declarations, each given with its statement, one after another. -/
def Decomposes (g : Grammar) (ts : List Token) (ds : List (List Token × Statement)) : Prop :=
  (∀ d ∈ ds, IsDeclaration g d.1 d.2) ∧ ds.flatMap Prod.fst = ts

/-! ## Slots -/

theorem Slot.admits_iff {slot : Slot} {t : Token} : slot.admits t.kind ↔ slot.Takes t := by
  unfold Slot.admits Slot.Takes
  split
  · rename_i h
    rw [if_pos h]
    simp
  · rename_i k h
    rw [if_neg h]
    simp

theorem Slot.operandTokens_cons (slot : Slot) (slots : List Slot) (t : Token) (ts : List Token) :
    Slot.operandTokens (slot :: slots) (t :: ts) =
      if slot.kind = .comma then Slot.operandTokens slots ts
      else t :: Slot.operandTokens slots ts := by
  unfold Slot.operandTokens
  rw [List.zip_cons_cons, List.filterMap_cons]
  by_cases h : slot.kind = .comma
  · simp [h]
  · simp [h]

namespace Filling

/-- Tokens that belong into the slots fill them. -/
theorem ofTokens_append {slots : List Slot} {us : List Token}
    (h : List.Forall₂ Slot.Takes slots us) (rest : List Token) :
    ofTokens slots (us ++ rest) = .complete (Slot.operandTokens slots us) rest := by
  induction h with
  | nil => rfl
  | @cons slot u slots us hu hus ih =>
    rw [List.cons_append, ofTokens, if_pos (Slot.admits_iff.2 hu), ih, Slot.operandTokens_cons]
    split
    · rfl
    · rfl

theorem eq_complete_of_addOperand {t : Token} {f : Filling} {operands rest : List Token}
    (h : f.addOperand t = .complete operands rest) :
    ∃ os, operands = t :: os ∧ f = .complete os rest := by
  cases f with
  | complete os r =>
    cases h
    exact ⟨os, rfl, rfl⟩
  | missing slot r => cases h

/-- Slots that are filled are filled with the first tokens. -/
theorem exists_of_ofTokens_eq_complete {slots : List Slot} {ts operands rest : List Token}
    (h : ofTokens slots ts = .complete operands rest) :
    ∃ us, List.Forall₂ Slot.Takes slots us ∧ operands = Slot.operandTokens slots us ∧
      ts = us ++ rest := by
  fun_induction ofTokens slots ts generalizing operands with
  | case1 ts =>
    cases h
    exact ⟨[], .nil, rfl, rfl⟩
  | case2 slot slots => cases h
  | case3 slot slots t ts hadmits hcomma ih =>
    obtain ⟨us, hus, rfl, rfl⟩ := ih h
    refine ⟨t :: us, .cons (Slot.admits_iff.1 hadmits) hus, ?_, rfl⟩
    rw [Slot.operandTokens_cons, if_pos hcomma]
  | case4 slot slots t ts hadmits hcomma ih =>
    obtain ⟨os, rfl, hos⟩ := eq_complete_of_addOperand h
    obtain ⟨us, hus, rfl, rfl⟩ := ih hos
    refine ⟨t :: us, .cons (Slot.admits_iff.1 hadmits) hus, ?_, rfl⟩
    rw [Slot.operandTokens_cons, if_neg hcomma]
  | case5 slot slots t ts hadmits => cases h

end Filling

/-! ## One declaration -/

namespace Attempt

/-- A declaration is read, whatever follows it. -/
theorem ofTokens_append {g : Grammar} {t : Token} {us : List Token} {s : Statement}
    (h : IsDeclaration g (t :: us) s) (final : Token) (rest : List Token) :
    ofTokens g final t (us ++ rest) = .read s rest := by
  unfold ofTokens
  cases h with
  | label ht hcolon => simp [Operand.Label.ofToken?, ht, ofLabel, hcolon]
  | instruction ht hslots htake hread =>
    have hlabel : Operand.Label.ofToken? t = none := by simp [Operand.Label.ofToken?, ht]
    simp only [hlabel, ht, hslots]
    rw [ofMnemonic, Filling.ofTokens_append htake]
    simp only [hread]

theorem exists_of_ofLabel_eq_read {g : Grammar} {final t : Token} {ts rest : List Token}
    {s : Statement} (ht : t.kind = .identifier) (h : ofLabel final ⟨t, ht⟩ ts = .read s rest) :
    ∃ us, IsDeclaration g (t :: us) s ∧ ts = us ++ rest := by
  unfold ofLabel at h
  split at h
  · rename_i colon ts
    split at h
    · rename_i hcolon
      cases h
      exact ⟨[colon], .label ht hcolon, rfl⟩
    · cases h
  · cases h

theorem exists_of_ofMnemonic_eq_read {g : Grammar} {final t : Token} {m : Mnemonic}
    {slots : List Slot} {ts rest : List Token} {s : Statement} (ht : t.kind = .mnemonic m)
    (hslots : g.slots? m = some slots) (h : ofMnemonic final m t slots ts = .read s rest) :
    ∃ us, IsDeclaration g (t :: us) s ∧ ts = us ++ rest := by
  unfold ofMnemonic at h
  split at h
  · cases h
  · rename_i operands r hfilling
    obtain ⟨us, hus, rfl, rfl⟩ := Filling.exists_of_ofTokens_eq_complete hfilling
    split at h
    · rename_i i hi
      cases h
      exact ⟨us, .instruction ht hslots hus hi, rfl⟩
    · cases h

/-- A statement that is read was declared by the first tokens. -/
theorem exists_of_ofTokens_eq_read {g : Grammar} {final t : Token} {ts rest : List Token}
    {s : Statement} (h : ofTokens g final t ts = .read s rest) :
    ∃ us, IsDeclaration g (t :: us) s ∧ ts = us ++ rest := by
  unfold ofTokens at h
  split at h
  · rename_i l hl
    unfold Operand.Label.ofToken? at hl
    split at hl
    · rename_i ht
      cases hl
      exact exists_of_ofLabel_eq_read ht h
    · cases hl
  · rename_i m hm
    split at h
    · rename_i slots hslots
      exact exists_of_ofMnemonic_eq_read hm hslots h
    · cases h
  · cases h

end Attempt

/-! ## Declarations one after another -/

theorem IsDeclaration.exists_cons {g : Grammar} {us : List Token} {s : Statement}
    (h : IsDeclaration g us s) : ∃ t ts, us = t :: ts := by
  cases h with
  | label _ _ => exact ⟨_, _, rfl⟩
  | instruction _ _ _ _ => exact ⟨_, _, rfl⟩

namespace Decomposes

theorem nil_iff {g : Grammar} {ds : List (List Token × Statement)} :
    Decomposes g [] ds ↔ ds = [] := by
  constructor
  · rintro ⟨hds, hts⟩
    cases ds with
    | nil => rfl
    | cons d ds =>
      obtain ⟨t, ts, hd⟩ := (hds d (by simp)).exists_cons
      simp [hd] at hts
  · rintro rfl
    exact ⟨by simp, rfl⟩

/-- The first declaration of a decomposition is the one that is read. -/
theorem ofTokens_eq_read {g : Grammar} {t : Token} {ts : List Token}
    {d : List Token × Statement} {ds : List (List Token × Statement)}
    (h : Decomposes g (t :: ts) (d :: ds)) (final : Token) :
    ∃ us rest, d.1 = t :: us ∧ ts = us ++ rest ∧ Decomposes g rest ds ∧
      Attempt.ofTokens g final t ts = .read d.2 rest := by
  obtain ⟨hds, hts⟩ := h
  have hd := hds d (by simp)
  obtain ⟨u, us, hus⟩ := hd.exists_cons
  rw [List.flatMap_cons, hus, List.cons_append] at hts
  obtain ⟨rfl, rfl⟩ := List.cons.inj hts
  rw [hus] at hd
  exact ⟨us, _, hus, rfl, ⟨fun e he => hds e (by simp [he]), rfl⟩,
    Attempt.ofTokens_append hd final _⟩

/-- Tokens decompose in one way only: what the first declaration is, reading tells. -/
theorem unique {g : Grammar} {ts : List Token} {ds es : List (List Token × Statement)}
    (hds : Decomposes g ts ds) (hes : Decomposes g ts es) : es = ds := by
  induction ds generalizing ts es with
  | nil =>
    obtain rfl : ts = [] := hds.2.symm
    exact nil_iff.1 hes
  | cons d ds ih =>
    cases ts with
    | nil => cases nil_iff.1 hds
    | cons t ts =>
      cases es with
      | nil => cases hes.2
      | cons e es =>
        obtain ⟨us, rest, hd, hts, hrest, hread⟩ := hds.ofTokens_eq_read t
        obtain ⟨us', rest', he, hts', hrest', hread'⟩ := hes.ofTokens_eq_read t
        rw [hread] at hread'
        obtain ⟨hstatement, rfl⟩ := Attempt.read.inj hread'
        have hus : us' = us := List.append_cancel_right (hts'.symm.trans hts)
        have hed : e = d := Prod.ext (by rw [he, hd, hus]) hstatement.symm
        rw [hed, ih hrest hrest']

end Decomposes

/-! ## Reading -/

namespace Reading

/-- Tokens that decompose into declarations are read as the statements of these. -/
theorem outcomes_of_decomposes {g : Grammar} {ts : List Token}
    {ds : List (List Token × Statement)} (h : Decomposes g ts ds) (final : Token) :
    outcomes g final ts = ds.map fun d => .ok d.2 := by
  induction ds generalizing ts with
  | nil =>
    obtain rfl : ts = [] := h.2.symm
    exact outcomes_nil g final
  | cons d ds ih =>
    cases ts with
    | nil => cases Decomposes.nil_iff.1 h
    | cons t ts =>
      obtain ⟨us, rest, -, -, hrest, hread⟩ := h.ofTokens_eq_read final
      rw [outcomes_cons, hread, List.map_cons]
      exact congrArg _ (ih hrest)

/-- Tokens that are read without an error decompose into declarations. -/
theorem exists_decomposes {g : Grammar} {final : Token} {ts : List Token}
    (h : failures (outcomes g final ts) = []) : ∃ ds, Decomposes g ts ds := by
  fun_induction outcomes g final ts with
  | case1 => exact ⟨[], Decomposes.nil_iff.2 rfl⟩
  | case2 t ts attempt ih =>
    cases hattempt : attempt with
    | failed error rest =>
      rw [hattempt] at h
      cases h
    | read s rest =>
      rw [hattempt] at h ih
      obtain ⟨us, hus, rfl⟩ := Attempt.exists_of_ofTokens_eq_read hattempt
      obtain ⟨ds, hds, hrest⟩ := ih h
      refine ⟨(t :: us, s) :: ds, fun d hd => ?_, ?_⟩
      · rcases List.mem_cons.1 hd with rfl | hd
        · exact hus
        · exact hds d hd
      · rw [List.flatMap_cons, hrest]
        rfl

theorem failures_map_ok (ss : List Statement) : failures (ss.map .ok) = [] := by
  rw [failures, List.filterMap_map, List.filterMap_eq_nil_iff]
  intro s _
  rfl

theorem statements_map_ok (ss : List Statement) : statements (ss.map .ok) = ss := by
  rw [statements, List.filterMap_map]
  exact List.filterMap_some

/-- Tokens that decompose are read without an error. -/
theorem ofTokens_of_decomposes {g : Grammar} {ts : List Token}
    {ds : List (List Token × Statement)}
    (h : Decomposes g (ts.takeWhile (·.kind ≠ .endOfText)) ds) :
    ofTokens g ts = ⟨ds.map Prod.snd, []⟩ := by
  have houtcomes : outcomes g (finalToken ts) (ts.takeWhile (·.kind ≠ .endOfText)) =
      (ds.map Prod.snd).map .ok := by
    rw [outcomes_of_decomposes h, List.map_map]
    rfl
  simp only [ofTokens, houtcomes, statements_map_ok, failures_map_ok]

/-- Reading reports no error exactly if the tokens in front of the end decompose into declarations.
They do so in one way at most, and then the statements of the declarations are what is read. -/
theorem errors_eq_nil_iff_decomposes (g : Grammar) (ts : List Token) :
    ((ofTokens g ts).errors = [] ↔
      ∃ ds, Decomposes g (ts.takeWhile (·.kind ≠ .endOfText)) ds) ∧
    ∀ ds, Decomposes g (ts.takeWhile (·.kind ≠ .endOfText)) ds →
      (∀ es, Decomposes g (ts.takeWhile (·.kind ≠ .endOfText)) es → es = ds) ∧
      (ofTokens g ts).program = ds.map Prod.snd := by
  refine ⟨⟨exists_decomposes, ?_⟩, fun ds hds => ⟨fun es hes => hds.unique hes, ?_⟩⟩
  · rintro ⟨ds, hds⟩
    rw [ofTokens_of_decomposes hds]
  · rw [ofTokens_of_decomposes hds]

/-- The word `loop`, followed by `: B loop`, the end of the text, and one more word. -/
def endlessLoop (loop : Token) : List Token :=
  [loop, ⟨.colon, ":", none, 1, ⟨4, 5⟩⟩, ⟨.mnemonic .b, "B", some (.name "B"), 1, ⟨6, 7⟩⟩, loop,
    .endOfText 1 12, loop]

/-- A label and a branch to it are read, and nothing behind the end is. -/
theorem ofTokens_endlessLoop : ∃ l : Operand.Label,
    (ofTokens .standard (endlessLoop l.token)).errors = [] ∧
    (ofTokens .standard (endlessLoop l.token)).program =
      [.label l, .instruction (.branch .always l)] := by
  let l : Operand.Label := ⟨⟨.identifier, "loop", some (.name "loop"), 1, ⟨0, 4⟩⟩, rfl⟩
  let tokens := endlessLoop l.token
  have hlabel : IsDeclaration .standard (tokens.take 2) (.label l) := .label rfl rfl
  have hbranch : IsDeclaration .standard ((tokens.drop 2).take 2)
      (.instruction (.branch .always l)) :=
    .instruction rfl rfl (.cons rfl .nil) rfl
  have hds : Decomposes .standard (tokens.takeWhile (·.kind ≠ .endOfText))
      [(tokens.take 2, .label l),
        ((tokens.drop 2).take 2, .instruction (.branch .always l))] := by
    refine ⟨fun d hd => ?_, rfl⟩
    rcases List.mem_pair.1 hd with rfl | rfl
    · exact hlabel
    · exact hbranch
  obtain ⟨haccepts, hread⟩ := errors_eq_nil_iff_decomposes .standard tokens
  exact ⟨l, haccepts.2 ⟨_, hds⟩, (hread _ hds).2⟩

end Reading

end AqaAssembly
