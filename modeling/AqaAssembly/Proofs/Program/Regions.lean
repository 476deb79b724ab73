import AqaAssembly.Grammar.Standard
import AqaAssembly.Proofs.Program.Cursor
import Mathlib.Order.Bounds.Defs

/-!
# The regions of a program

A walk with a cursor over the tokens of a program comes to an end, whatever the tokens are, and goes
over each token in front of the end once.  Its turns are regions that lie one behind the other
(`Covers`), one for each statement and for each error: a declaration, or what lies between the
beginning of a declaration that cannot be read and the place where reading goes on
(`Stretch.IsRegion`).

The main result is `Reading.accounts_for_every_token`: reading gives what such a walk finds.
-/

namespace AqaAssembly

namespace Stretch

/-- Reading goes on at the first place behind the cursor whose token is no operand, no colon and no
comma, and at the end of the tokens if there is none. -/
def Resumes (front : List Token) (cursor stop : Nat) : Prop :=
  IsLeast {i | min (cursor + 1) front.length ≤ i ∧ ∀ t ∈ front[i]?,
    t.kind ∉ [.register, .immediate, .address, .operand, .colon, .comma]} stop

/-- The stretch is a declaration, or what is given up because a declaration could not be read. -/
inductive IsRegion (g : Grammar) (final : Token) (front : List Token) : Stretch → Prop
  | declaration {start stop : Nat} {s : Statement}
    (hread : IsDeclaration g ((front.drop start).take (stop - start)) s) :
    IsRegion g final front ⟨start, stop, stop, .ok s⟩
  | error {start cursor stop : Nat} {e : SyntaxError} (hstart : start ≤ cursor)
    (hcursor : cursor ≤ front.length)
    (hstops : Stops g final ((front.drop start).take (cursor - start)) (front.drop cursor) e)
    (hresumes : Resumes front cursor stop) :
    IsRegion g final front ⟨start, cursor, stop, .error e⟩

/-- Where the token stands that the error names: at the cursor, or at the beginning if the rule of
an instruction does not fit it. -/
def place? (r : Stretch) : Option Nat :=
  match r.outcome with
  | .ok _ => none
  | .error e =>
    match e.cause with
    | .unfitRule _ => some r.start
    | .unexpectedToken | .expectedColon | .expectedSlot _ => some r.cursor

end Stretch

/-- The stretches lie one behind the other from one place to another, and none of them is empty. -/
def Covers : Nat → List Stretch → Nat → Prop
  | i, [], j => i = j
  | i, r :: rs, j => r.start = i ∧ i < r.stop ∧ Covers r.stop rs j

/-! ## Places in a list of tokens -/

theorem resumes_recover {front : List Token} {cursor : Nat} (h : cursor ≤ front.length) :
    let stop := front.length - (Attempt.recover (front.drop cursor)).length
    Stretch.Resumes front cursor stop ∧ front.drop stop = Attempt.recover (front.drop cursor) := by
  intro stop
  rcases Nat.lt_or_eq_of_le h with hlt | rfl
  · let p : Token → Bool := fun t =>
      t.kind ∈ [.register, .immediate, .address, .operand, .colon, .comma]
    have hsplit : front.drop (cursor + 1) =
        (front.drop (cursor + 1)).takeWhile p ++ Attempt.recover (front.drop cursor) := by
      rw [Attempt.recover_eq, List.drop_drop, List.takeWhile_append_dropWhile]
    obtain ⟨hstop, hdrop⟩ := drop_of_drop_eq_append hlt hsplit
    have hstop : stop = cursor + 1 + ((front.drop (cursor + 1)).takeWhile p).length := hstop
    rw [← hstop] at hdrop
    refine ⟨⟨⟨by omega, ?_⟩, ?_⟩, hdrop⟩
    · intro t ht
      have hhead := List.head?_dropWhile_not p (front.drop (cursor + 1))
      rw [← List.head?_drop, hdrop, Attempt.recover_eq, List.drop_drop] at ht
      rw [Option.mem_def.1 ht] at hhead
      simpa [p] using hhead
    · rintro j ⟨hj, hends⟩
      by_contra hbefore
      -- between the cursor and the stop, every token only continues a statement
      have hin : j - (cursor + 1) < ((front.drop (cursor + 1)).takeWhile p).length := by omega
      have hget : front[j]? = some ((front.drop (cursor + 1)).takeWhile p)[j - (cursor + 1)] := by
        rw [← List.getElem?_eq_getElem hin, ← List.getElem?_append_left hin, ← hsplit,
          List.getElem?_drop]
        congr 1
        omega
      have hcontinues := List.mem_takeWhile_imp (List.getElem_mem hin)
      exact hends _ hget (of_decide_eq_true hcontinues)
  · have hstop : stop = front.length := by simp [stop, Attempt.recover]
    rw [hstop]
    refine ⟨⟨⟨Nat.min_le_right _ _, by simp⟩, fun j hj => ?_⟩, by simp [Attempt.recover]⟩
    simpa using hj.1

/-! ## The turns of a walk -/

/-- One turn goes over a region. -/
theorem isRegion_ofTokens (g : Grammar) (final : Token) {t : Token} {front : List Token} {i : Nat}
    (hi : i < front.length) (hdrop : front.drop i = t :: front.drop (i + 1)) :
    let attempt := Attempt.ofTokens g final t (front.drop (i + 1))
    let stop := front.length - attempt.next.length
    (⟨i, front.length - attempt.rest.length, stop, attempt.outcome⟩ : Stretch).IsRegion g final
      front ∧ i < stop ∧ stop ≤ front.length ∧ front.drop stop = attempt.next := by
  intro attempt stop
  have hless : attempt.next.length < (t :: front.drop (i + 1)).length :=
    Attempt.length_next_lt g final t _
  have hlt : i < stop := by
    rw [← hdrop, List.length_drop] at hless
    omega
  have hle : stop ≤ front.length := Nat.sub_le _ _
  cases hattempt : attempt with
  | read s rest =>
    obtain ⟨us, hus, hrest⟩ := Attempt.exists_of_ofTokens_eq_read hattempt
    rw [hrest, ← List.cons_append] at hdrop
    obtain ⟨hstop, hbehind⟩ := drop_of_drop_eq_append hi.le hdrop
    have hend : stop = i + (t :: us).length := by simp only [stop, hattempt, Attempt.next, hstop]
    refine ⟨?_, hlt, hle, by rw [hend, hbehind, Attempt.next]⟩
    rw [Attempt.rest, hstop, hend]
    refine .declaration ?_
    rwa [hdrop, Nat.add_sub_cancel_left, List.take_left]
  | failed e rest =>
    obtain ⟨us, hus, hstops⟩ := Attempt.stops_of_ofTokens_eq_failed hattempt
    rw [hus] at hdrop
    obtain ⟨hcursor, hbehind⟩ := drop_of_drop_eq_append hi.le hdrop
    have hinside : i + us.length ≤ front.length := by omega
    obtain ⟨hresumes, hrecover⟩ := resumes_recover hinside
    rw [hbehind] at hresumes hrecover
    have hend : stop = front.length - (Attempt.recover rest).length := by
      simp only [stop, hattempt, Attempt.next]
    rw [← hend] at hresumes hrecover
    refine ⟨?_, hlt, hle, hrecover⟩
    rw [Attempt.rest, hcursor]
    refine .error (Nat.le_add_right _ _) hinside ?_ hresumes
    rwa [hbehind, hdrop, Nat.add_sub_cancel_left, List.take_left]

namespace Cursor

variable {ts front : List Token} {final : Token}

/-- The walk comes to an end and finds the outcomes of reading, in regions that cover all tokens. -/
theorem exists_walk?_eq (h : Ends ts front final) (g : Grammar) {i : Nat}
    (hi : i ≤ front.length) :
    ∃ rs, (∀ turns, front.length - i < turns → walk? g ts turns i = some rs) ∧
      rs.map Stretch.outcome = Reading.outcomes g final (front.drop i) ∧
      Covers i rs front.length ∧ ∀ r ∈ rs, r.IsRegion g final front := by
  induction hleft : front.length - i using Nat.strong_induction_on generalizing i with
  | _ left ih =>
    subst hleft
    rcases h.drop_cases hi with ⟨hend, hdrop⟩ | ⟨t, hlt, hkind, hdrop⟩
    · refine ⟨[], ?_, by rw [hdrop, Reading.outcomes_nil]; rfl, hend, by simp⟩
      rintro (_ | turns) hturns
      · cases hturns
      · rw [walk?, h.getElem?_eq hi, hdrop]
        simp [h.kind_final]
    · obtain ⟨hregion, hbefore, hstop, hnext⟩ := isRegion_ofTokens g final hlt hdrop
      obtain ⟨rs, hwalk, hrs, hcovers, hregions⟩ := ih _ (by omega) hstop rfl
      refine ⟨⟨i, _, _, _⟩ :: rs, ?_, ?_, ⟨rfl, hbefore, hcovers⟩,
        List.forall_mem_cons.2 ⟨hregion, hregions⟩⟩
      · rintro (_ | turns) hturns
        · cases hturns
        · have hturn := turn?_eq h g hlt (Nat.le_of_lt_succ hturns) hdrop
          have hrest := hwalk turns (by omega)
          rw [walk?, h.getElem?_eq hi, hdrop]
          simp [hkind, hturn, hrest]
      · rw [List.map_cons, hdrop, Reading.outcomes_cons, hrs, hnext]

end Cursor

/-! ## Where errors are -/

/-- Stretches that cover some tokens are not more than these. -/
theorem Covers.length_le {i j : Nat} {rs : List Stretch} (h : Covers i rs j) :
    i + rs.length ≤ j := by
  induction rs generalizing i with
  | nil => exact Nat.le_of_eq h
  | cons r rs ih =>
    obtain ⟨-, hlt, hrest⟩ := h
    have := ih hrest
    rw [List.length_cons]
    omega

section

variable {g : Grammar} {ts front : List Token} {final : Token}

/-- The token that an error names stands in the region of the error, or at the end. -/
theorem Stretch.IsRegion.exists_place?_eq (h : Cursor.Ends ts front final) {r : Stretch}
    (hr : r.IsRegion g final front) (hne : r.start < r.stop) {e : SyntaxError}
    (he : r.outcome = .error e) :
    ∃ k, r.place? = some k ∧ ts[k]? = some e.token ∧ r.start ≤ k ∧ k ≤ front.length ∧
      (k < r.stop ∨ front.length ≤ r.stop) := by
  cases hr with
  | declaration _ => cases he
  | @error start cursor stop _ hstart hcursor hstops hresumes =>
    cases he
    have hstop : min (cursor + 1) front.length ≤ stop := hresumes.1.1
    have hbehind : cursor < stop ∨ front.length ≤ stop := by omega
    have hget := h.getElem?_eq hcursor
    generalize hused : (front.drop start).take (cursor - start) = us at hstops
    generalize front.drop cursor = rest at hstops hget
    cases hstops with
    | unexpected _ _ => exact ⟨cursor, rfl, hget, hstart, hcursor, hbehind⟩
    | noColon _ _ => exact ⟨cursor, rfl, hget, hstart, hcursor, hbehind⟩
    | noOperand _ _ _ _ => exact ⟨cursor, rfl, hget, hstart, hcursor, hbehind⟩
    | @unfitRule t m slots us _ _ _ _ _ =>
      have hle : start ≤ front.length := hstart.trans hcursor
      refine ⟨start, rfl, ?_, Nat.le_refl _, hle, .inl hne⟩
      rw [h.getElem?_eq hle]
      cases hdrop : front.drop start with
      | nil => simp [hdrop] at hused
      | cons u us =>
        -- the mnemonic is the first token that was used up
        cases hlength : cursor - start with
        | zero => simp [hlength] at hused
        | succ k =>
          rw [hdrop, hlength, List.take_succ_cons] at hused
          rw [List.headD_cons, (List.cons.inj hused).1]

/-- The errors of regions that cover the tokens name tokens further and further behind. -/
theorem Covers.pairwise_places (h : Cursor.Ends ts front final) {i : Nat} {rs : List Stretch}
    (hcovers : Covers i rs front.length) (hregions : ∀ r ∈ rs, r.IsRegion g final front) :
    List.Forall₂ (fun k e => ts[k]? = some e.token) (rs.filterMap Stretch.place?)
        (Reading.failures (rs.map Stretch.outcome)) ∧
      (∀ k ∈ rs.filterMap Stretch.place?, i ≤ k ∧ k ≤ front.length) ∧
      (rs.filterMap Stretch.place?).Pairwise (· < ·) := by
  induction rs generalizing i with
  | nil => exact ⟨.nil, by simp, .nil⟩
  | cons r rs ih =>
    obtain ⟨hstart, hlt, hrest⟩ := hcovers
    obtain ⟨hr, hregions⟩ := List.forall_mem_cons.1 hregions
    obtain ⟨htokens, hbounds, hpairwise⟩ := ih hrest hregions
    have hlater : ∀ k ∈ rs.filterMap Stretch.place?, i ≤ k ∧ k ≤ front.length := by
      intro k hk
      have := hbounds k hk
      omega
    cases he : r.outcome with
    | ok s =>
      have hplace : r.place? = none := by simp [Stretch.place?, he]
      rw [List.filterMap_cons_none hplace, List.map_cons, he]
      exact ⟨htokens, hlater, hpairwise⟩
    | error e =>
      obtain ⟨k, hplace, htoken, hk, hle, hstop⟩ := hr.exists_place?_eq h (hstart ▸ hlt) he
      rw [List.filterMap_cons_some hplace, List.map_cons, he]
      refine ⟨.cons htoken htokens, List.forall_mem_cons.2 ⟨by omega, hlater⟩,
        List.pairwise_cons.2 ⟨fun j hj => ?_, hpairwise⟩⟩
      have hbound := hbounds j hj
      rcases hstop with hbefore | hend
      · omega
      · -- a region that reaches the end is the last one
        have hlast := hrest.length_le
        have hnil : rs = [] := List.length_eq_zero_iff.1 (by omega)
        simp [hnil] at hj

/-- Of several errors that name tokens further and further behind, only the last names the end. -/
theorem kind_ne_endOfText_of_pairwise (h : Cursor.Ends ts front final) {places : List Nat}
    {es : List SyntaxError} (htokens : List.Forall₂ (fun k e => ts[k]? = some e.token) places es)
    (hle : ∀ k ∈ places, k ≤ front.length) (hplaces : places.Pairwise (· < ·)) :
    ∀ e ∈ es.dropLast, e.token.kind ≠ .endOfText := by
  induction htokens with
  | nil => simp
  | @cons k e ks es htoken htokens ih =>
    obtain ⟨hfirst, hks⟩ := List.pairwise_cons.1 hplaces
    obtain ⟨-, hle⟩ := List.forall_mem_cons.1 hle
    cases htokens with
    | nil => simp
    | @cons j e' ks' es' _ _ =>
      rw [List.dropLast_cons_cons]
      refine List.forall_mem_cons.2 ⟨?_, ih hle hks⟩
      have hlt : k < front.length :=
        Nat.lt_of_lt_of_le (hfirst j List.mem_cons_self) (hle j List.mem_cons_self)
      rw [h.getElem?_eq hlt.le, List.drop_eq_getElem_cons hlt, List.headD_cons] at htoken
      rw [← Option.some.inj htoken]
      exact h.kind_front _ (List.getElem_mem hlt)

end

/-! ## Reading -/

namespace Reading

/-- What stands behind the end of the tokens is not read. -/
theorem ofTokens_append_cons (g : Grammar) (ts later : List Token) {final : Token}
    (hfinal : final.kind = .endOfText) :
    ofTokens g (ts ++ final :: later) = ofTokens g (ts ++ [final]) := by
  have hfront : ∀ more : List Token, (ts ++ final :: more).takeWhile (·.kind ≠ .endOfText) =
      ts.takeWhile (·.kind ≠ .endOfText) := by
    intro more
    rw [List.takeWhile_append, List.takeWhile_cons_of_neg (by simp [hfinal])]
    split
    · rename_i hlength
      rw [List.append_nil, (List.takeWhile_prefix _).eq_of_length hlength]
    · rfl
  have hend : ∀ more : List Token, finalToken (ts ++ final :: more) =
      (ts.find? (·.kind = .endOfText)).getD final := by
    intro more
    unfold finalToken
    rw [List.find?_append, List.find?_cons_of_pos (by simp [hfinal])]
    cases ts.find? (·.kind = .endOfText) with
    | none => rfl
    | some t => rfl
  simp only [ofTokens, hfront, hend]

/-- The tokens in front of the end fall into regions, one behind the other and none of them empty.  A
walk with a cursor goes over them turn after turn; it comes to an end without looking for a token
that is not there.  There is a region for each statement that is read and for each error that is
reported, in their order, so these are not more than the tokens.  The tokens that the errors name
stand further and further behind, and only the last of them can be the end.  What follows the end is
of no account. -/
theorem accounts_for_every_token (g : Grammar) (ts : List Token) :
    let front := ts.takeWhile (·.kind ≠ .endOfText)
    let reading := ofTokens g ts
    (∃ rs : List Stretch,
      (∀ spare, Cursor.walk? g (terminated ts) (front.length + 1 + spare) 0 = some rs) ∧
      Covers 0 rs front.length ∧
      (∀ r ∈ rs, r.IsRegion g (finalToken ts) front) ∧
      reading.program = statements (rs.map Stretch.outcome) ∧
      reading.errors = failures (rs.map Stretch.outcome) ∧
      reading.program.length + reading.errors.length = rs.length ∧
      rs.length ≤ front.length ∧
      List.Forall₂ (fun k e => (terminated ts)[k]? = some e.token) (rs.filterMap Stretch.place?)
        reading.errors ∧
      (rs.filterMap Stretch.place?).Pairwise (· < ·)) ∧
    (∀ e ∈ reading.errors.dropLast, e.token.kind ≠ .endOfText) ∧
    ∀ final later, final.kind = .endOfText →
      ofTokens g (ts ++ final :: later) = ofTokens g (ts ++ [final]) := by
  intro front reading
  have hends : Cursor.Ends (terminated ts) front (finalToken ts) := Cursor.ends_terminated ts
  obtain ⟨rs, hwalk, hrs, hcovers, hregions⟩ := Cursor.exists_walk?_eq hends g (Nat.zero_le _)
  rw [List.drop_zero] at hrs
  have hprogram : reading.program = statements (rs.map Stretch.outcome) :=
    congrArg statements hrs.symm
  have herrors : reading.errors = failures (rs.map Stretch.outcome) := congrArg failures hrs.symm
  obtain ⟨htokens, hbounds, hpairwise⟩ := hcovers.pairwise_places hends hregions
  rw [← herrors] at htokens
  refine ⟨⟨rs, fun spare => hwalk _ (by omega), hcovers, hregions, hprogram, herrors, ?_, ?_,
    htokens, hpairwise⟩, ?_, fun final later hfinal => ofTokens_append_cons g ts later hfinal⟩
  · rw [hprogram, herrors, length_statements_add_length_failures, List.length_map]
  · simpa using hcovers.length_le
  · exact kind_ne_endOfText_of_pairwise hends htokens (fun k hk => (hbounds k hk).2) hpairwise

/-- A label without its colon is given up together with all the operands behind it and what stands
between them, `HALT` is read, and what follows the end is not looked at. -/
theorem accounts_for_every_token_cut_short :
    let ts := Source.tokens "x r1, #2: 3, r2\nHALT"
    let register : Token := ⟨.register, "r1", some (.integer 1), 1, ⟨2, 4⟩⟩
    (∃ rs, Cursor.walk? .standard (terminated ts) 10 0 = some rs ∧ Covers 0 rs 9 ∧
      rs.map (fun r => (r.start, r.cursor, r.stop)) = [(0, 1, 8), (8, 9, 9)] ∧
      rs.filterMap Stretch.place? = [1]) ∧
    (ofTokens .standard ts).errors.map (·.token) = [register] ∧
    ofTokens .standard (ts ++ [register]) = ofTokens .standard ts := by
  intro ts register
  have hsplit : ts = ts.dropLast ++ [.endOfText 2 20] := by decide +kernel
  obtain ⟨-, -, hlater⟩ := accounts_for_every_token .standard ts.dropLast
  obtain ⟨⟨rs, hwalk, hcovers, -⟩, -⟩ := accounts_for_every_token .standard ts
  have hfront : (ts.takeWhile (·.kind ≠ .endOfText)).length = 9 := by decide +kernel
  rw [hfront] at hwalk hcovers
  have hstretches : (Cursor.walk? .standard (terminated ts) 10 0).map (fun rs =>
      (rs.map (fun r => (r.start, r.cursor, r.stop)), rs.filterMap Stretch.place?)) =
      some ([(0, 1, 8), (8, 9, 9)], [1]) := by
    decide +kernel
  have hfound : Cursor.walk? .standard (terminated ts) 10 0 = some rs := hwalk 0
  rw [hfound, Option.map_some, Option.some.injEq, Prod.mk.injEq] at hstretches
  refine ⟨⟨rs, hfound, hcovers, hstretches⟩, by decide +kernel, ?_⟩
  rw [hsplit, List.append_assoc]
  exact hlater (.endOfText 2 20) [register] rfl

end Reading

end AqaAssembly
