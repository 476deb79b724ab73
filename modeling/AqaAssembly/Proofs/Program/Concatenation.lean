import AqaAssembly.Proofs.Program.Execution
import AqaAssembly.Proofs.Program.Layout
import AqaAssembly.Proofs.Program.Provenance
import AqaAssembly.Proofs.Source.Concatenation

/-!
# Programs one behind the other

A program may be continued on a new line.  What is read from the first text is not touched by what
follows, and the second text is read as if it stood alone: its statements, and everything that is
wrong with it, only move (`Source.concatenates`).

* `Statement.Like.eq_moved`, `SyntaxError.Like.eq_moved`: what is read from tokens that are moved is
  itself moved;
* `Reading.outcomes_append`: behind declarations, reading goes on as at the beginning.
-/

namespace AqaAssembly

open Operand

/-! ## Statements that are moved -/

section

variable (lines bytes : Nat)

/-- The operand with more lines and more bytes in front of it. -/
def Operand.Number.moved {form : Numeral} (x : Number form) : Number form :=
  ⟨x.value, x.token.moved lines bytes, x.kind_token, x.integer?_token⟩

/-- The label with more lines and more bytes in front of it. -/
def Operand.Label.moved (l : Label) : Label := ⟨l.token.moved lines bytes, l.kind_token⟩

/-- The flexible operand with more lines and more bytes in front of it. -/
def Operand.Flexible.moved : Flexible → Flexible
  | immediate i => immediate (i.moved lines bytes)
  | register r => register (r.moved lines bytes)

/-- The instruction with more lines and more bytes in front of it. -/
def Instruction.moved : Instruction → Instruction
  | load d a => load (d.moved lines bytes) (a.moved lines bytes)
  | store d a => store (d.moved lines bytes) (a.moved lines bytes)
  | compute op d l r => compute op (d.moved lines bytes) (l.moved lines bytes) (r.moved lines bytes)
  | shift direction d v n =>
    shift direction (d.moved lines bytes) (v.moved lines bytes) (n.moved lines bytes)
  | move d s => move (d.moved lines bytes) (s.moved lines bytes)
  | complement d s => complement (d.moved lines bytes) (s.moved lines bytes)
  | compare l r => compare (l.moved lines bytes) (r.moved lines bytes)
  | branch condition l => branch condition (l.moved lines bytes)
  | halt => halt

/-- The statement with more lines and more bytes in front of it. -/
def Statement.moved : Statement → Statement
  | instruction i => instruction (i.moved lines bytes)
  | label l => label (l.moved lines bytes)

/-- The error with more lines and more bytes in front of its token. -/
def SyntaxError.moved (e : SyntaxError) : SyntaxError :=
  { e with token := e.token.moved lines bytes }

/-- The errors with more lines and more bytes in front of them. -/
def StaticErrors.moved (e : StaticErrors) : StaticErrors :=
  ⟨e.lexical.map (LexicalError.moved lines), e.syntactic.map (SyntaxError.moved lines bytes)⟩

end

variable {lines bytes : Nat}

theorem eq_map_of_forall₂ {α β : Type} {f : α → β} {as : List α} {bs : List β}
    (h : List.Forall₂ (fun a b => b = f a) as bs) : bs = as.map f := by
  induction h with
  | nil => rfl
  | cons hb _ ih => rw [hb, ih, List.map_cons]

theorem moved_le_alike (lines bytes : Nat) :
    (fun t u => u = t.moved lines bytes) ≤ Token.Alike := by
  rintro t _ rfl
  exact ⟨rfl, rfl, fun _ => rfl⟩

theorem Operand.Number.Like.eq_moved {form : Numeral} {x y : Number form}
    (h : x.Like (fun t u => u = t.moved lines bytes) y) : y = x.moved lines bytes := by
  have hread : Number.ofToken? (x.moved lines bytes).token = some y :=
    Number.ofToken?_eq_some_iff.2 h.token
  rw [Number.ofToken?_token] at hread
  exact (Option.some.inj hread).symm

theorem Operand.Label.Like.eq_moved {l k : Label}
    (h : l.Like (fun t u => u = t.moved lines bytes) k) : k = l.moved lines bytes := by
  obtain ⟨u, hu⟩ := k
  obtain rfl : u = l.token.moved lines bytes := h.token
  rfl

theorem Operand.Flexible.Like.eq_moved {f g : Flexible}
    (h : f.Like (fun t u => u = t.moved lines bytes) g) : g = f.moved lines bytes := by
  cases h with
  | immediate h => rw [h.eq_moved, Flexible.moved]
  | register h => rw [h.eq_moved, Flexible.moved]

theorem Instruction.Like.eq_moved {i j : Instruction}
    (h : i.Like (fun t u => u = t.moved lines bytes) j) : j = i.moved lines bytes := by
  cases h with
  | load hd ha => rw [hd.eq_moved, ha.eq_moved, Instruction.moved]
  | store hd ha => rw [hd.eq_moved, ha.eq_moved, Instruction.moved]
  | compute op hd hl hr => rw [hd.eq_moved, hl.eq_moved, hr.eq_moved, Instruction.moved]
  | shift direction hd hv hn => rw [hd.eq_moved, hv.eq_moved, hn.eq_moved, Instruction.moved]
  | move hd hs => rw [hd.eq_moved, hs.eq_moved, Instruction.moved]
  | complement hd hs => rw [hd.eq_moved, hs.eq_moved, Instruction.moved]
  | compare hl hr => rw [hl.eq_moved, hr.eq_moved, Instruction.moved]
  | branch condition hl => rw [hl.eq_moved, Instruction.moved]
  | halt => rfl

/-- A statement that is read from tokens that are moved is moved. -/
theorem Statement.Like.eq_moved {s t : Statement}
    (h : s.Like (fun t u => u = t.moved lines bytes) t) : t = s.moved lines bytes := by
  cases h with
  | instruction h => rw [h.eq_moved, Statement.moved]
  | label h => rw [h.eq_moved, Statement.moved]

/-- An error at a token that is moved is moved. -/
theorem SyntaxError.Like.eq_moved {e f : SyntaxError}
    (h : e.Like (fun t u => u = t.moved lines bytes) f) : f = e.moved lines bytes := by
  obtain ⟨cause, token, message⟩ := f
  obtain ⟨rfl, rfl, rfl⟩ := h
  rfl

/-! ## Reading on -/

namespace Reading

/-- Behind declarations, reading goes on as it would at the beginning. -/
theorem outcomes_append {g : Grammar} {ts : List Token} {ds : List (List Token × Statement)}
    (h : Decomposes g ts ds) (final : Token) (rest : List Token) :
    outcomes g final (ts ++ rest) = ds.map (fun d => .ok d.2) ++ outcomes g final rest := by
  obtain ⟨hds, rfl⟩ := h
  induction ds with
  | nil => rfl
  | cons d ds ih =>
    obtain ⟨hd, hds⟩ := List.forall_mem_cons.1 hds
    obtain ⟨t, us, hus⟩ := hd.exists_cons
    rw [hus] at hd
    rw [List.flatMap_cons, hus, List.cons_append, List.cons_append, List.append_assoc,
      outcomes_cons, Attempt.ofTokens_append hd, Attempt.outcome, Attempt.next, ih hds]
    rfl

theorem statements_append (rs rs' : List (Except SyntaxError Statement)) :
    statements (rs ++ rs') = statements rs ++ statements rs' :=
  List.filterMap_append

theorem failures_append (rs rs' : List (Except SyntaxError Statement)) :
    failures (rs ++ rs') = failures rs ++ failures rs' :=
  List.filterMap_append

/-- Outcomes of tokens that are moved are moved. -/
theorem outcomes_moved (g : Grammar) (lines bytes : Nat) (final : Token) (ts : List Token) :
    let rs := outcomes g final ts
    let rs' := outcomes g (final.moved lines bytes) (ts.map (Token.moved lines bytes))
    statements rs' = (statements rs).map (Statement.moved lines bytes) ∧
      failures rs' = (failures rs).map (SyntaxError.moved lines bytes) := by
  intro rs rs'
  have htokens : List.Forall₂ (fun t u => u = t.moved lines bytes) ts
      (ts.map (Token.moved lines bytes)) := by
    rw [List.forall₂_map_right_iff]
    exact List.forall₂_same.2 fun _ _ => rfl
  have hfinal : (fun t u => u = t.moved lines bytes) final (final.moved lines bytes) := rfl
  have houtcomes := like_outcomes (moved_le_alike lines bytes) g hfinal htokens
  exact ⟨eq_map_of_forall₂ ((forall₂_statements houtcomes).imp fun _ _ h => h.eq_moved),
    eq_map_of_forall₂ ((forall₂_failures houtcomes).imp fun _ _ h => h.eq_moved)⟩

end Reading

/-! ## Texts on lines of their own -/

theorem StaticErrors.isEmpty_moved (e : StaticErrors) (lines bytes : Nat) :
    (e.moved lines bytes).isEmpty = e.isEmpty := by
  rw [Bool.eq_iff_iff, isEmpty_iff, isEmpty_iff, moved, List.map_eq_nil_iff, List.map_eq_nil_iff]

namespace Source

variable {g : Grammar} {u v : String} {p : Program}

/-- What is read from two texts, of which the first is accepted, is the program of the first and,
moved, what is read from the second. -/
theorem ofTokens_tokens_append (hp : Program.ofSource g u = .ok p) (v : String) :
    let moved := Statement.moved (lastLine u) (u.utf8ByteSize + 1)
    let wrong := SyntaxError.moved (lastLine u) (u.utf8ByteSize + 1)
    Reading.ofTokens g (tokens (u ++ "\n" ++ v)) =
      ⟨p ++ (Reading.ofTokens g (tokens v)).program.map moved,
        (Reading.ofTokens g (tokens v)).errors.map wrong⟩ := by
  intro moved wrong
  obtain ⟨ds, hds, rfl⟩ := Program.exists_decomposes_of_ofSource hp
  obtain ⟨hprogram, herrors⟩ := Reading.outcomes_moved g (lastLine u) (u.utf8ByteSize + 1)
    (finalToken v) (words v)
  have hfront : (ds.map fun d => (.ok d.2 : Except SyntaxError Statement)) =
      (ds.map Prod.snd).map .ok := List.map_map.symm
  rw [ofTokens_tokens, ofTokens_tokens, words_append, finalToken_append,
    Reading.outcomes_append hds, hfront, Reading.statements_append, Reading.failures_append,
    Reading.statements_map_ok, Reading.failures_map_ok, hprogram, herrors, List.nil_append]

/-- Two source texts that are not empty, the second on a new line behind the first.  Their tokens
are those of the first without its end, and then those of the second, moved by the lines and the
bytes in front of it.  What is wrong with their words is found likewise.  If the grammar accepts the
first text, the second is read as if it stood alone: its statements follow those of the first, or it
is refused for what is wrong with it and for nothing else, and both are moved as its tokens are. -/
theorem concatenates (g : Grammar) {u v : String} (hu : u ≠ "") (hv : v ≠ "") :
    let w := u ++ "\n" ++ v
    let lines := 1 + u.toList.count '\n'
    let bytes := u.utf8ByteSize + 1
    tokens w = (tokens u).dropLast ++ (tokens v).map (Token.moved lines bytes) ∧
    lexicalErrors w = lexicalErrors u ++ (lexicalErrors v).map (LexicalError.moved lines) ∧
    ∀ p, Program.ofSource g u = .ok p →
      Program.ofSource g w = match Program.ofSource g v with
        | .ok q => .ok (p ++ q.map (Statement.moved lines bytes))
        | .error e => .error (e.moved lines bytes) := by
  intro w lines bytes
  refine ⟨tokens_append u v, lexicalErrors_append hu hv, fun p hp => ?_⟩
  have hreading := ofTokens_tokens_append hp v
  have hlexical : lexicalErrors u = [] := (Program.staticErrors_of_ofSource_eq_ok hp).1
  have herrors : staticErrors g w = (staticErrors g v).moved lines bytes := by
    rw [staticErrors, hreading, lexicalErrors_append hu hv, hlexical, List.nil_append]
    rfl
  rw [Program.ofSource_eq, Program.ofSource_eq, herrors, StaticErrors.isEmpty_moved, hreading]
  split
  · rfl
  · rfl

/-- A comment ends with its line, and a comma at the end of the second text is reported there. -/
theorem concatenates_comment :
    let u := "a: ;x"
    let v := "?\nCMP r1,"
    u ≠ "" ∧ v ≠ "" ∧ ∃ p e, Program.ofSource .standard u = .ok p ∧
      Program.ofSource .standard v = .error e ∧ e.lines = [1, 2] ∧
      Program.ofSource .standard "a: ;x\n?\nCMP r1," = .error (e.moved 1 6) ∧
      (e.moved 1 6).lines = [2, 3] := by
  intro u v
  have hu : u ≠ "" := by decide
  have hv : v ≠ "" := by decide
  obtain ⟨-, -, hread⟩ := concatenates .standard hu hv
  have hjoin : u ++ "\n" ++ v = "a: ;x\n?\nCMP r1," := by decide +kernel
  have hcount : 1 + u.toList.count '\n' = 1 := by decide +kernel
  have hsize : u.utf8ByteSize + 1 = 6 := by decide +kernel
  rw [hjoin, hcount, hsize] at hread
  have hwrong : (staticErrors .standard v).lexical ≠ [] := by decide +kernel
  have hp := @Program.ofSource_eq_ok .standard u (by decide +kernel)
    (by decide +kernel)
  have he := Program.ofSource_eq_error_iff.2 ⟨rfl, .inl hwrong⟩
  have hboth := hread _ hp
  rw [he] at hboth
  exact ⟨hu, hv, _, _, hp, he, by decide +kernel, hboth, by decide +kernel⟩

end Source

end AqaAssembly
