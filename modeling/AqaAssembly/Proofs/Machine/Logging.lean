import AqaAssembly.Proofs.Machine.Reachability

/-!
# The log of a machine

Before a machine executes a statement it notes down where it is and what the statement is.  Behind
it, if the machine traces and the statement was executed, it notes down the snapshot
(`Machine.noted`).  These notes are all there is in the log at the level of tracing: what is noted
down when the labels are resolved and when a run ends is of other levels (`filter_recordsOf`).

So the log tells a run apart into the statements that were executed and those that were not
(`countP_announces_notes`), and it shows every snapshot, also those that the trace has dropped
(`filter_not_announces_notes`).  The main result is `Machine.log_is_complete`.
-/

namespace AqaAssembly

/-- What a snapshot is shown as begins in one of two ways. -/
theorem Snapshot.exists_text_eq (x : Snapshot) :
    ∃ rest, x.text = "Entering " ++ rest ∨ x.text = "Current Instruction Register: " ++ rest := by
  rw [Snapshot.text, Snapshot.lines]
  cases x.label? with
  | none =>
    simp only [Option.map_none, Option.toList_none, List.nil_append, String.intercalate_cons_append]
    exact ⟨_, .inr rfl⟩
  | some l =>
    simp only [Option.map_some, Option.toList_some, List.singleton_append, String.append_assoc,
      String.intercalate_cons_append]
    exact ⟨_, .inl rfl⟩

namespace LogRecord

/-- The record is worded like one about a statement that is about to be executed. -/
def announces (r : LogRecord) : Bool := r.message.startsWith "executing "

@[simp] theorem announces_executing (pc : Nat) (s : Statement) : announces (.executing pc s) := by
  have hmessage : (executing pc s).message =
      "executing " ++ (Decimal.textNat pc ++ (": " ++ s.text)) := by
    -- unfolding `message` would go through the wording of every other record
    show "executing " ++ Decimal.textNat pc ++ ": " ++ s.text = _
    simp only [String.append_assoc]
  rw [announces, hmessage, String.startsWith_string_iff, String.toList_append]
  exact List.prefix_append _ _

/-- No snapshot is shown in these words. -/
@[simp] theorem announces_completed (x : Snapshot) : announces (.completed x) = false := by
  have hmessage : (completed x).message = x.text := rfl
  rw [announces, hmessage, ← Bool.not_eq_true, String.startsWith_string_iff]
  obtain ⟨rest, h | h⟩ := x.exists_text_eq
  · simp [h]
  · simp [h]

end LogRecord

/-- Resolving the labels of a program is noted down at other levels. -/
theorem LabelTable.filter_records (p : Program) :
    ((records p).filter fun r => r.level = .trace) = [] := by
  simp [records, LogRecord.level]

namespace Machine

/-- What is noted down in the next step: the statement that is about to be executed, if there is
one, and then, if it was executed and the machine traces, the snapshot after it. -/
def noted (m : Machine) : List LogRecord :=
  (m.current?.map (.executing m.pc)).toList ++
    if m.config.tracing then m.shown?.toList.map .completed else []

/-- What is noted down in so many steps, in order. -/
def notes : Nat → Machine → List LogRecord
  | 0, _ => []
  | n + 1, m => m.noted ++ notes n m.step.machine

/-- What is noted down in calls, in order. -/
def recordsOf : List Call → Machine → List LogRecord
  | [], _ => []
  | call :: calls, m =>
    (call.outcome m).records.toList ++ recordsOf calls (call.outcome m).machine

/-! ## One step -/

theorem noted_of_isDone {m : Machine} (h : m.isDone) : m.noted = [] := by
  have hnone : m.current? = none := by rwa [isDone, Option.isNone_iff_eq_none] at h
  simp [noted, hnone, shown?_of_isDone h]

theorem records_complete (m : Machine) (pc : Nat) (s : Statement) :
    (m.complete pc s).records.toList =
      .executing pc s :: if m.config.tracing then [.completed (m.snapshot pc s)] else [] := by
  rw [complete]
  split
  · rfl
  · rfl

/-- A step notes down nothing else. -/
theorem toList_records_step (m : Machine) : m.step.records.toList = m.noted := by
  have hstep := m.happens_step
  generalize m.step = o at hstep ⊢
  cases hstep with
  | nothing hdone => simp [noted_of_isDone hdone]
  | @executed s _ after hs hperform _ hafter =>
    simp [noted, hs, shown?_of_ok hs hperform, records_complete, hafter.1.config]
  | faulted hs hperform => simp [noted, hs, shown?_of_error hs hperform]

theorem level_of_mem_noted {m : Machine} {r : LogRecord} (h : r ∈ m.noted) : r.level = .trace := by
  rcases List.mem_append.1 h with h | h
  · obtain ⟨s, -, rfl⟩ := Option.map_eq_some_iff.1 (Option.mem_toList.1 h)
    rfl
  · split at h
    · obtain ⟨x, -, rfl⟩ := List.mem_map.1 h
      rfl
    · cases h

/-- One statement is announced for each that is executed and each that cannot be. -/
theorem countP_announces_noted (m : Machine) :
    m.noted.countP LogRecord.announces =
      m.shown?.toList.length + m.step.fault?.toList.length := by
  have hstep := m.happens_step
  generalize m.step = o at hstep ⊢
  cases hstep with
  | nothing hdone => simp [noted_of_isDone hdone, shown?_of_isDone hdone]
  | executed hs hperform _ _ =>
    rw [noted, hs, shown?_of_ok hs hperform, fault?_complete]
    split
    · simp
    · simp
  | faulted hs hperform => simp [noted, hs, shown?_of_error hs hperform]

/-- What is not announced is a snapshot. -/
theorem filter_not_announces_noted (m : Machine) :
    m.noted.filter (!·.announces) =
      if m.config.tracing then m.shown?.toList.map .completed else [] := by
  have hannounced :
      (m.current?.map (LogRecord.executing m.pc)).toList.filter (!·.announces) = [] := by
    cases m.current? with
    | none => rfl
    | some s => simp
  rw [noted, List.filter_append, hannounced, List.nil_append]
  split
  · cases m.shown? with
    | none => rfl
    | some x => simp
  · rfl

/-! ## Any number of steps -/

theorem notes_of_isDone {m : Machine} (h : m.isDone) (n : Nat) : notes n m = [] := by
  induction n with
  | zero => rfl
  | succ n ih => rw [notes, noted_of_isDone h, step_of_isDone h, ih, List.append_nil]

/-- Notes are taken step after step. -/
theorem notes_eq_flatMap (n : Nat) (m : Machine) :
    notes n m = (List.range n).flatMap fun k => (m.steps k).noted := by
  induction n generalizing m with
  | zero => rfl
  | succ n ih =>
    rw [notes, ih, List.range_succ_eq_map, List.flatMap_cons, List.flatMap_map]
    rfl

theorem notes_add (n k : Nat) (m : Machine) :
    notes (n + k) m = notes n m ++ notes k (m.steps n) := by
  simp only [notes_eq_flatMap, List.range_add, List.flatMap_append, List.flatMap_map, steps_add]

theorem level_of_mem_notes {n : Nat} {m : Machine} {r : LogRecord} (h : r ∈ notes n m) :
    r.level = .trace := by
  rw [notes_eq_flatMap] at h
  obtain ⟨k, -, hr⟩ := List.mem_flatMap.1 h
  exact level_of_mem_noted hr

/-- As many statements are announced as are executed, and those that cannot be. -/
theorem countP_announces_notes (n : Nat) (m : Machine) :
    (notes n m).countP LogRecord.announces = (history n m).length + (faultsMet n m).length := by
  induction n generalizing m with
  | zero => rfl
  | succ n ih =>
    rw [notes, List.countP_append, countP_announces_noted, ih, history, faultsMet,
      List.length_append, List.length_append]
    omega

/-- The other notes are the history of the machine, if it traces. -/
theorem filter_not_announces_notes (n : Nat) (m : Machine) :
    (notes n m).filter (!·.announces) =
      if m.config.tracing then (history n m).map .completed else [] := by
  induction n generalizing m with
  | zero => exact (ite_self _).symm
  | succ n ih =>
    rw [notes, List.filter_append, filter_not_announces_noted, ih, (sameMake_step m).config,
      history]
    split
    · rw [List.map_append]
    · rfl

/-! ## Calls -/

/-- While it goes on, a run notes down what its steps do. -/
theorem toList_records_advanceBy (n : Nat) (o : Outcome) :
    (advanceBy n o).records.toList = o.records.toList ++ notes n o.machine := by
  -- a run that stops early leaves out steps in which nothing is noted down
  induction n generalizing o with
  | zero => exact (List.append_nil _).symm
  | succ n ih =>
    rw [advanceBy]
    split
    · rename_i hdone
      rw [notes_of_isDone hdone, List.append_nil]
    · rw [ih, Outcome.next, Array.toList_append, toList_records_step, List.append_assoc, notes]

theorem level_ending (o : Outcome) : o.ending.level = .debug := by
  rw [Outcome.ending]
  split
  · rfl
  · split
    · rfl
    · rfl

/-- At the level of tracing there is nothing else in the records of a call. -/
theorem filter_outcome (call : Call) (m : Machine) :
    ((call.outcome m).records.toList.filter fun r => r.level = .trace) = notes call.limit m := by
  have hnotes (n : Nat) : (notes n m).filter (fun r => r.level = .trace) = notes n m :=
    List.filter_eq_self.2 fun r hr => decide_eq_true (level_of_mem_notes hr)
  cases call with
  | step =>
    have hone : notes 1 m = m.noted := List.append_nil _
    rw [Call.limit, ← hnotes, hone, ← toList_records_step]
    rfl
  | runFor limit =>
    have hrun : ((Call.runFor limit).outcome m).records.toList =
        notes limit.toNat m ++ [(advanceBy limit.toNat (.start m)).ending] := by
      rw [Call.outcome, runFor, Outcome.finish, Array.toList_push, toList_records_advanceBy]
      rfl
    rw [hrun, List.filter_append, hnotes]
    simp [level_ending, Call.limit]

theorem filter_recordsOf (calls : List Call) (m : Machine) :
    ((recordsOf calls m).filter fun r => r.level = .trace) =
      notes (calls.map Call.limit).sum m := by
  induction calls generalizing m with
  | nil => rfl
  | cons call calls ih =>
    rw [recordsOf, List.filter_append, filter_outcome, ih, machine_outcome, List.map_cons,
      List.sum_cons, notes_add]

/-! ## In words -/

theorem map_message_noted (m : Machine) :
    m.noted.map LogRecord.message =
      (m.current?.map fun s => "executing " ++ Decimal.textNat m.pc ++ ": " ++ s.text).toList ++
        if m.config.tracing then m.shown?.toList.map Snapshot.text else [] := by
  rw [noted, List.map_append]
  congr 1
  · cases m.current? with
    | none => rfl
    | some s => rfl
  · split
    · exact List.map_map
    · rfl

/-- The notes in words, those of one step after those of another. -/
theorem map_message_notes (n : Nat) (m : Machine) :
    (notes n m).map LogRecord.message = (List.range n).flatMap fun k =>
      ((m.steps k).current?.map fun s =>
        "executing " ++ Decimal.textNat (m.steps k).pc ++ ": " ++ s.text).toList ++
      if m.config.tracing then (m.steps k).shown?.toList.map Snapshot.text else [] := by
  simp only [notes_eq_flatMap, List.map_flatMap, map_message_noted, (sameMake_steps _ m).config]

/-- A machine is loaded with a program and an empty trace of any capacity, and called in any way;
`n` is the number of steps that the calls allow.  At the level of tracing its log consists of what
its first `n` steps have noted down, in order: where the machine was and which statement it was
about to execute, if there was one, and then, if the machine traces and the statement was executed,
the snapshot after it.  As long as fewer than `2 ^ 64` statements are executed, the statements that
are announced are as many as the machine has counted and the faults that it has met.  If the machine
traces, the snapshots that its trace still holds are shown as the last of those in the log. -/
theorem log_is_complete (p : Program) (config : Config) (c : Nat) (calls : List Call) :
    let m := loadTraced p config c
    let n := (calls.map Call.limit).sum
    let after := m.after calls
    let logged := (LabelTable.records p ++ recordsOf calls m).filter fun r => r.level = .trace
    (logged.map LogRecord.message = (List.range n).flatMap fun k =>
      let now := m.steps k
      (now.current?.map fun s =>
        "executing " ++ Decimal.textNat now.pc ++ ": " ++ s.text).toList ++
      if config.tracing then now.shown?.toList.map Snapshot.text else []) ∧
    faultsMet n m = after.fault?.toList ∧
    ((history n m).length < 2 ^ 64 →
      logged.countP (fun r => r.message.startsWith "executing ") =
        after.executed.toNat + (faultsMet n m).length) ∧
    (config.tracing →
      let shown := (logged.filter fun r => !r.message.startsWith "executing ").map LogRecord.message
      after.trace.snapshots.map Snapshot.text = shown.rtake after.trace.snapshots.length) := by
  intro m n after logged
  have hlogged : logged = notes n m := by
    simp only [logged, List.filter_append, LabelTable.filter_records, filter_recordsOf,
      List.nil_append, n]
  have hafter : after = m.steps n := after_eq_steps calls m
  have hrecords : m.Records (history n m) after := by
    rw [hafter]
    exact records_history n m
  refine ⟨?_, ?_, fun hlt => ?_, fun htracing => ?_⟩
  · rw [hlogged]
    exact map_message_notes n m
  · rw [hafter, toList_fault?_steps]
    rfl
  · have hexecuted : after.executed = 0 + .ofNat (history n m).length := hrecords.executed
    have hcount := countP_announces_notes n m
    rw [hlogged, hexecuted, UInt64.zero_add, UInt64.toNat_ofNat_of_lt' hlt]
    exact hcount
  · intro shown
    have hshown : shown = (history n m).map Snapshot.text := by
      have htraces : m.config.tracing = true := htracing
      have hsnapshots := filter_not_announces_notes n m
      rw [if_pos htraces] at hsnapshots
      show (logged.filter (!·.announces)).map LogRecord.message = _
      rw [hlogged, hsnapshots]
      exact List.map_map
    obtain ⟨hheld, -⟩ := hrecords.trace_of_empty (c := c) rfl htracing
    rw [hshown, hheld]
    simp only [List.rtake, List.length_map, List.length_drop, List.map_drop]
    congr 1
    omega

/-- Of three statements the last reads a cell that is not there.  All three are announced, though
only two are counted, and the trace holds the second of two snapshots. -/
theorem log_is_complete_doublings :
    let m := loadTraced doublings ⟨1, 16, true⟩ 1
    let calls : List Call := [.step, .runFor 9]
    let after := m.after calls
    let logged :=
      (LabelTable.records doublings ++ recordsOf calls m).filter fun r => r.level = .trace
    (history 10 m).length < 2 ^ 64 ∧ after.executed.toNat = 2 ∧
      logged.countP (fun r => r.message.startsWith "executing ") = 3 ∧
      after.trace.snapshots.map Snapshot.text =
        ((logged.filter fun r => !r.message.startsWith "executing ").map LogRecord.message).rtake
          1 := by
  intro m calls after logged
  obtain ⟨-, hfaults, hcount, htrace⟩ := log_is_complete doublings ⟨1, 16, true⟩ 1 calls
  have hlt : (history 10 m).length < 2 ^ 64 := by decide +kernel
  have hexecuted : after.executed.toNat = 2 := by decide +kernel
  have hfault : after.fault?.toList.length = 1 := by decide +kernel
  have hheld : after.trace.snapshots.length = 1 := by decide +kernel
  have hshown := htrace rfl
  dsimp only at hshown
  rw [hheld] at hshown
  refine ⟨hlt, hexecuted, ?_, hshown⟩
  rw [hcount hlt, hfaults, hfault, hexecuted]

end Machine

end AqaAssembly
