import AqaAssembly.Proofs.Machine.Steps

/-!
# What a run leaves alone

A machine writes nothing that its program does not name.  For each statement it is plain from its
text which register it assigns (`Statement.assigned?`), which memory cell it stores to
(`Statement.stored?`) and whether it sets the flags (`Statement.setsFlags`).  Whatever no statement
of the program writes is left alone, through all loops and branches:

* `Asks.assigned?_eq`, `Asks.stored?_eq`, `Asks.setsFlags_eq`: a statement asks for nothing to be
  written but what is plain from its text;
* `framed_step`, `framed_steps`: a step, and any number of steps, change nothing else.

The main result is `runs_write_what_is_named`.
-/

namespace AqaAssembly

namespace Statement

/-- The number of the register to which the statement assigns a value. -/
def assigned? : Statement → Option Int
  | .instruction (.load rd _) => some rd.value.toInt
  | .instruction (.compute _ rd _ _) => some rd.value.toInt
  | .instruction (.shift _ rd _ _) => some rd.value.toInt
  | .instruction (.move rd _) => some rd.value.toInt
  | .instruction (.complement rd _) => some rd.value.toInt
  | _ => none

/-- The address of the memory cell to which the statement stores a value. -/
def stored? : Statement → Option Int
  | .instruction (.store _ a) => some a.value.toInt
  | _ => none

/-- Does the statement set the flags? -/
def setsFlags : Statement → Bool
  | .instruction (.compare _ _) => true
  | _ => false

end Statement

/-! ## Effects -/

namespace Effect

variable {e : Effect} {old : Option Int64}

/-- A register changes only if it is given a value. -/
theorem eq_setRegister_of_ne {number : Int} (h : e.register number old ≠ old) :
    ∃ v, e = .setRegister number v := by
  cases e with
  | setRegister k v =>
    by_cases hk : number = k
    · exact ⟨v, hk ▸ rfl⟩
    · exact absurd (if_neg hk) h
  | _ => exact absurd rfl h

/-- A memory cell changes only if it is given a value. -/
theorem eq_setCell_of_ne {address : Int} (h : e.cell address old ≠ old) :
    ∃ v, e = .setCell address v := by
  cases e with
  | setCell a v =>
    by_cases ha : address = a
    · exact ⟨v, ha ▸ rfl⟩
    · exact absurd (if_neg ha) h
  | _ => exact absurd rfl h

/-- The flags change only if they are set. -/
theorem eq_setFlags_of_ne {flags : Flags} (h : e.flags flags ≠ flags) :
    ∃ new, e = .setFlags new := by
  cases e with
  | setFlags new => exact ⟨new, rfl⟩
  | _ => exact absurd rfl h

end Effect

namespace Machine

variable {m : Machine} {s : Statement}

/-! ## What a statement asks to be written -/

theorem Asks.assigned?_eq {number : Int} {v : Int64} (h : m.Asks s (.setRegister number v)) :
    s.assigned? = some number := by
  cases h with
  | load _ => rfl
  | compute _ _ _ => rfl
  | shift _ _ _ _ => rfl
  | move _ => rfl
  | complement _ _ => rfl

theorem Asks.stored?_eq {address : Int} {v : Int64} (h : m.Asks s (.setCell address v)) :
    s.stored? = some address := by
  cases h with
  | store _ => rfl

theorem Asks.setsFlags_eq {flags : Flags} (h : m.Asks s (.setFlags flags)) :
    s.setsFlags = true := by
  cases h with
  | compare _ _ _ => rfl

/-! ## The frame of a run -/

/-- Only what the program names was written to the machine, which was `m` and is `after` now. -/
structure Framed (m after : Machine) : Prop extends m.SameMake after where
  register number : after.registers.at? number ≠ m.registers.at? number →
    ∃ s ∈ m.program, s.assigned? = some number
  cell address : after.memory.at? address ≠ m.memory.at? address →
    ∃ s ∈ m.program, s.stored? = some address
  flags : after.flags ≠ m.flags → ∃ s ∈ m.program, s.setsFlags
  capacity : after.trace.capacity = m.trace.capacity

namespace Framed

theorem refl (m : Machine) : m.Framed m where
  toSameMake := .refl m
  register _ h := absurd rfl h
  cell _ h := absurd rfl h
  flags h := absurd rfl h
  capacity := rfl

/-- What differs after two stretches of a run was written in one of them. -/
theorem trans {k l m : Machine} (h : k.Framed l) (h' : l.Framed m) : k.Framed m where
  toSameMake := h.toSameMake.trans h'.toSameMake
  register number hne := by
    -- if the first stretch left it alone, the second has changed it
    by_cases hfirst : l.registers.at? number = k.registers.at? number
    · rw [← h.program]
      exact h'.register number fun heq => hne (heq.trans hfirst)
    · exact h.register number hfirst
  cell address hne := by
    by_cases hfirst : l.memory.at? address = k.memory.at? address
    · rw [← h.program]
      exact h'.cell address fun heq => hne (heq.trans hfirst)
    · exact h.cell address hfirst
  flags hne := by
    by_cases hfirst : l.flags = k.flags
    · rw [← h.program]
      exact h'.flags fun heq => hne (heq.trans hfirst)
    · exact h.flags hfirst
  capacity := h'.capacity.trans h.capacity

end Framed

/-- Counting and recording a statement does not change the capacity of the trace. -/
theorem capacity_complete (m : Machine) (pc : Nat) (s : Statement) :
    (m.complete pc s).machine.trace.capacity = m.trace.capacity := by
  rw [machine_complete]
  show (if m.config.tracing then m.trace.push _ else m.trace).capacity = _
  split
  · exact Trace.capacity_push _ _
  · rfl

/-- A step writes only what the current statement names. -/
theorem framed_step (m : Machine) : m.Framed m.step.machine := by
  have hmake := m.sameMake_step
  have hstep := m.happens_step
  generalize m.step = o at hmake hstep ⊢
  cases hstep with
  | nothing _ => exact .refl m
  | @executed s e after hs _ hasks hafter =>
    have hmem : s ∈ m.program := List.mem_of_getElem? (current?_eq_some_iff.1 hs).2.2
    have hshows := hafter.1.complete m.pc s
    refine ⟨hmake, fun number hne => ?_, fun address hne => ?_, fun hne => ?_, ?_⟩
    · rw [hshows.register] at hne
      obtain ⟨v, rfl⟩ := Effect.eq_setRegister_of_ne hne
      exact ⟨s, hmem, hasks.assigned?_eq⟩
    · rw [hshows.cell] at hne
      obtain ⟨v, rfl⟩ := Effect.eq_setCell_of_ne hne
      exact ⟨s, hmem, hasks.stored?_eq⟩
    · rw [hshows.flags] at hne
      obtain ⟨flags, rfl⟩ := Effect.eq_setFlags_of_ne hne
      exact ⟨s, hmem, hasks.setsFlags_eq⟩
    · rw [capacity_complete, hafter.2.2]
  | faulted _ _ =>
    exact ⟨hmake, fun _ h => absurd rfl h, fun _ h => absurd rfl h, fun h => absurd rfl h, rfl⟩

/-- Any number of steps writes only what the program names. -/
theorem framed_steps (n : Nat) (m : Machine) : m.Framed (m.steps n) := by
  induction n with
  | zero => exact .refl m
  | succ n ih =>
    rw [steps_succ_last]
    exact ih.trans (framed_step _)

/-- However many steps a machine has gone, from whatever state: a register has another value than
at the beginning only if a statement of the program assigns to that register, a memory cell only if
a statement stores to it, and the flags are others only if a statement compares.  The program, the
label table, the configuration, the numbers of registers and of memory cells and the capacity of the
trace are never others. -/
theorem runs_write_what_is_named (m : Machine) (n : Nat) :
    let after := m.steps n
    (∀ number, after.registers.at? number ≠ m.registers.at? number →
      ∃ s ∈ m.program, s.assigned? = some number) ∧
    (∀ address, after.memory.at? address ≠ m.memory.at? address →
      ∃ s ∈ m.program, s.stored? = some address) ∧
    (after.flags ≠ m.flags → ∃ s ∈ m.program, s.setsFlags) ∧
    after.program = m.program ∧ after.labels = m.labels ∧ after.config = m.config ∧
    after.registers.size = m.registers.size ∧ after.memory.size = m.memory.size ∧
    after.trace.capacity = m.trace.capacity := by
  intro after
  have h : m.Framed after := framed_steps n m
  have hlabels : after.labels = m.labels := by
    rw [after.labels_eq, m.labels_eq, h.program]
  exact ⟨h.register, h.cell, h.flags, h.program, hlabels, h.config, h.registers_size,
    h.memory_size, h.capacity⟩

/-- Counts to 3 in `r1` and in the first memory cell. -/
def countingUp : Program :=
  let r1 : Operand.Register := .ofValue .register 1
  let loop : Operand.Label := ⟨⟨.identifier, "loop", some (.name "loop"), 1, ⟨0, 4⟩⟩, rfl⟩
  [.label loop, .instruction (.compute .add r1 r1 (.immediate (.ofValue .immediate 1))),
    .instruction (.store r1 (.ofValue .address 0)),
    .instruction (.compare r1 (.immediate (.ofValue .immediate 3))),
    .instruction (.branch .notEqual loop)]

/-- What changes is named by a statement, and `r2`, which none assigns, is left alone. -/
theorem runs_write_what_is_named_countingUp :
    let before := load countingUp ⟨2, 2, true⟩
    let after := before.steps 15
    (after.registers.at? 1 ≠ before.registers.at? 1 ∧ ∃ s ∈ countingUp, s.assigned? = some 1) ∧
    (after.memory.at? 0 ≠ before.memory.at? 0 ∧ ∃ s ∈ countingUp, s.stored? = some 0) ∧
    (after.flags ≠ before.flags ∧ ∃ s ∈ countingUp, s.setsFlags) ∧
    after.registers.at? 2 = before.registers.at? 2 := by
  intro before after
  obtain ⟨hregister, hcell, hflags, -⟩ := runs_write_what_is_named before 15
  have hregister' : after.registers.at? 1 ≠ before.registers.at? 1 := by decide +kernel
  have hcell' : after.memory.at? 0 ≠ before.memory.at? 0 := by decide +kernel
  have hflags' : after.flags ≠ before.flags := by decide +kernel
  have hnone : ¬ ∃ s ∈ countingUp, s.assigned? = some 2 := by decide
  refine ⟨⟨hregister', hregister 1 hregister'⟩, ⟨hcell', hcell 0 hcell'⟩,
    ⟨hflags', hflags hflags'⟩, ?_⟩
  by_contra hne
  exact hnone (hregister 2 hne)

end Machine

end AqaAssembly
