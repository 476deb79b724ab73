import AqaAssembly.Machine.Trace
import Mathlib.Algebra.Group.Nat.Defs
import Mathlib.Data.List.DropRight

/-!
# What a trace holds

A trace is a queue that is never longer than its capacity.  Whatever was recorded one after another,
it holds the last of it, as many as it can, and it has counted the rest (`snapshots_foldl_push`,
`dropped_foldl_push`).

A trace may also be cleared in between.  Then it is the empty trace again, so only what was recorded
since the last time counts (`after_eq_foldl_push`).  The main result is
`Trace.holds_last_recorded`.
-/

namespace AqaAssembly

namespace Trace

@[simp] theorem capacity_foldl_push (t : Trace) (xs : List Snapshot) :
    (xs.foldl push t).capacity = t.capacity := by
  induction xs generalizing t with
  | nil => rfl
  | cons x xs ih => rw [List.foldl_cons, ih, capacity_push]

theorem length_push (t : Trace) (x : Snapshot) :
    (t.push x).snapshots.length = min (t.snapshots.length + 1) t.capacity := by
  rw [push, List.length_drop, List.length_append, List.length_singleton]
  omega

/-- The trace holds what it held and what was recorded, as far as it can, from the new end. -/
theorem snapshots_foldl_push (t : Trace) (xs : List Snapshot) :
    (xs.foldl push t).snapshots =
      (t.snapshots ++ xs).drop (t.snapshots.length + xs.length - t.capacity) := by
  induction xs generalizing t with
  | nil =>
    have hall : t.snapshots.length + 0 - t.capacity = 0 := Nat.sub_eq_zero_of_le t.length_le
    rw [List.foldl_nil, List.append_nil, List.length_nil, hall, List.drop_zero]
  | cons x xs ih =>
    have hfirst : t.snapshots.length + 1 - t.capacity ≤ (t.snapshots ++ [x]).length := by
      rw [List.length_append, List.length_singleton]
      exact Nat.sub_le _ _
    have hdrop : (t.push x).snapshots ++ xs =
        (t.snapshots ++ x :: xs).drop (t.snapshots.length + 1 - t.capacity) := by
      rw [push, ← List.drop_append_of_le_length hfirst, List.append_assoc, List.singleton_append]
    rw [List.foldl_cons, ih, hdrop, List.drop_drop, capacity_push, length_push, List.length_cons]
    congr 1
    omega

/-- What the trace does not hold was dropped. -/
theorem dropped_foldl_push (t : Trace) (xs : List Snapshot) :
    (xs.foldl push t).dropped =
      t.dropped + .ofNat (t.snapshots.length + xs.length - t.capacity) := by
  induction xs generalizing t with
  | nil =>
    have hall : t.snapshots.length + 0 - t.capacity = 0 := Nat.sub_eq_zero_of_le t.length_le
    rw [List.foldl_nil, List.length_nil, hall]
    exact (UInt64.add_zero _).symm
  | cons x xs ih =>
    have hcount : t.snapshots.length + 1 - t.capacity +
        ((t.push x).snapshots.length + xs.length - t.capacity) =
        t.snapshots.length + (x :: xs).length - t.capacity := by
      rw [length_push, List.length_cons]
      omega
    rw [List.foldl_cons, ih, capacity_push, ← hcount, UInt64.ofNat_add, ← UInt64.add_assoc]
    rfl

/-! ## Traces that were empty -/

/-- What a trace that was empty does not hold is what is too much for it. -/
theorem length_add_sub_empty (c : Nat) (xs : List Snapshot) :
    (empty c).snapshots.length + xs.length - (empty c).capacity =
      xs.length - min xs.length c := by
  simp only [empty, List.length_nil]
  omega

/-- A trace that was empty holds the last of what was recorded, as much as it can. -/
theorem snapshots_foldl_push_empty (c : Nat) (xs : List Snapshot) :
    (xs.foldl push (empty c)).snapshots = xs.rtake (min xs.length c) := by
  rw [snapshots_foldl_push, length_add_sub_empty]
  simp [empty, List.rtake]

/-- It has counted what it does not hold. -/
theorem dropped_foldl_push_empty (c : Nat) (xs : List Snapshot) :
    (xs.foldl push (empty c)).dropped = .ofNat (xs.length - min xs.length c) := by
  rw [dropped_foldl_push, length_add_sub_empty]
  simp [empty]

/-! ## Recording and clearing -/

/-- A way to change a trace. -/
inductive Change
  /-- Record a snapshot. -/
  | push (x : Snapshot)
  | clear
  deriving DecidableEq

namespace Change

/-- The trace afterwards. -/
def next : Change → Trace → Trace
  | push x, t => t.push x
  | clear, t => t.clear

/-- The snapshot that is recorded. -/
def snapshot? : Change → Option Snapshot
  | push x => some x
  | clear => none

end Change

/-- The trace after one change after another. -/
def after (changes : List Change) (t : Trace) : Trace :=
  changes.foldl (fun t change => change.next t) t

/-- The snapshots that were recorded since the trace was last cleared, in order. -/
def recorded (changes : List Change) : List Snapshot :=
  (changes.rtakeWhile (· ≠ .clear)).filterMap Change.snapshot?

theorem recorded_concat_push (changes : List Change) (x : Snapshot) :
    recorded (changes ++ [.push x]) = recorded changes ++ [x] := by
  simp [recorded, Change.snapshot?]

theorem recorded_concat_clear (changes : List Change) :
    recorded (changes ++ [.clear]) = [] := by
  simp [recorded]

/-- No more was recorded since the last time than at all. -/
theorem length_recorded_le (changes : List Change) :
    (recorded changes).length ≤ (changes.filterMap Change.snapshot?).length :=
  ((List.rtakeWhile_suffix _ changes).sublist.filterMap _).length_le

/-- Only what was recorded since the trace was last cleared has left anything in it. -/
theorem after_eq_foldl_push (c : Nat) (changes : List Change) :
    (empty c).after changes = (recorded changes).foldl push (empty c) := by
  induction changes using List.reverseRecOn with
  | nil => rfl
  | append_singleton changes change ih =>
    have hlast : (empty c).after (changes ++ [change]) =
        change.next ((empty c).after changes) := by
      simp [after]
    rw [hlast, ih]
    cases change with
    | push x =>
      rw [recorded_concat_push, List.foldl_append]
      rfl
    | clear =>
      rw [recorded_concat_clear, Change.next, clear, capacity_foldl_push]
      rfl

/-- Snapshots are recorded in a trace of any capacity, and it is cleared now and then.  It keeps its
capacity, and it holds, of the snapshots that were recorded since it was last cleared, exactly the
last ones in their order: all of them, or as many as it has room for.  The most recent snapshot is
the last of these.  As long as fewer than `2 ^ 64` snapshots are recorded, it has counted the
others. -/
theorem holds_last_recorded (c : Nat) (changes : List Change) :
    let t := (empty c).after changes
    let xs := recorded changes
    t.capacity = c ∧
    t.snapshots = xs.rtake (min xs.length c) ∧
    t.last? = (xs.rtake (min xs.length c)).getLast? ∧
    (0 < c → t.last? = xs.getLast?) ∧
    t.snapshots.length = min xs.length c ∧
    ((changes.filterMap Change.snapshot?).length < 2 ^ 64 →
      t.dropped.toNat = xs.length - t.snapshots.length) := by
  intro t xs
  have ht : t = xs.foldl push (empty c) := after_eq_foldl_push c changes
  have hsnapshots : t.snapshots = xs.rtake (min xs.length c) := by
    rw [ht, snapshots_foldl_push_empty]
  have hlength : t.snapshots.length = min xs.length c := by
    rw [hsnapshots, List.rtake, List.length_drop]
    omega
  have hlast : t.last? = (xs.rtake (min xs.length c)).getLast? := by
    rw [last?, hsnapshots]
  refine ⟨?_, hsnapshots, hlast, fun hroom => ?_, hlength, fun hpushes => ?_⟩
  · rw [ht, capacity_foldl_push]
    rfl
  · rw [hlast, List.rtake, List.getLast?_drop]
    by_cases hnone : xs = []
    · simp [hnone]
    · have hpos : 0 < xs.length := List.length_pos_iff.2 hnone
      rw [if_neg (by omega)]
  · have hfits : xs.length - min xs.length c < 2 ^ 64 :=
      ((Nat.sub_le _ _).trans (length_recorded_le changes)).trans_lt hpushes
    rw [hlength, ht, dropped_foldl_push_empty, UInt64.toNat_ofNat_of_lt' hfits]

/-- A trace with room for one snapshot is cleared after one snapshot, and two more are recorded: it
holds the last, and has dropped one. -/
theorem holds_last_recorded_cleared :
    let shot (place : Nat) : Snapshot := ⟨place, place + 1, "HALT", none, [], {}, []⟩
    let changes : List Change := [.push (shot 0), .clear, .push (shot 1), .push (shot 2)]
    let t := (empty 1).after changes
    (changes.filterMap Change.snapshot?).length < 2 ^ 64 ∧ t.snapshots = [shot 2] ∧
      t.last? = some (shot 2) ∧ t.dropped.toNat = 1 ∧ t.capacity = 1 := by
  intro shot changes t
  obtain ⟨hcapacity, hsnapshots, -, hlast, hlength, hdropped⟩ := holds_last_recorded 1 changes
  have hpushes : (changes.filterMap Change.snapshot?).length < 2 ^ 64 := by decide
  have hrecorded : recorded changes = [shot 1, shot 2] := rfl
  rw [hrecorded] at hsnapshots hlast hlength hdropped
  exact ⟨hpushes, hsnapshots, hlast Nat.one_pos, by rw [hdropped hpushes, hlength]; rfl, hcapacity⟩

end Trace

end AqaAssembly
