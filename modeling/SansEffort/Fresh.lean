import SansEffort.Table
import SansEffort.Library.Transition

/-!
# Fresh handles

Handles come from a counter and, while a thread replays, from the handles a recording names
(`Table::issue`). The counter stays above whatever either has issued, until it comes to the end of
the handles there are and starts again.
-/

namespace SansEffort

namespace Table

/-- `u64::MAX`. -/
def maxHandle : Nat := 2 ^ 64 - 1

/-- The counter passes `u64::MAX` before the loop of `issue` comes to a handle that is free. -/
def passesEnd : Nat → Table → Bool
  | 0, _ => false
  | tries + 1, t =>
    t.inUse t.next &&
      (t.next = maxHandle || passesEnd tries { t with next := (successor t.next).getD 1 })

/-- The handle comes from the re-issue queue. -/
def reissues (t : Table) : List Nat → Bool
  | [] => false
  | handle :: _ => handle ≠ 0 && !t.inUse handle

theorem successor_of_lt {handle : Nat} (below : handle < maxHandle) :
    successor handle = some (handle + 1) := by
  have small : handle + 1 < 2 ^ 64 := by
    unfold maxHandle at below
    omega
  rw [successor, if_pos small]

theorem successor_le (handle : Nat) : (successor handle).getD 1 ≤ maxHandle := by
  unfold successor maxHandle
  split
  · simp
    omega
  · simp

/-- How many times round the loop comes to `handle`. -/
def distance (next handle : Nat) : Nat :=
  if next ≤ handle then handle - next else (maxHandle - next) + handle

/-- The loop comes to a free handle, if there is one. -/
theorem fresh_of_free {tries : Nat} {t : Table} {handle : Nat} (free : t.inUse handle = false)
    (positive : 0 < handle) (inRange : handle ≤ maxHandle) (counter : 0 < t.next)
    (bounded : t.next ≤ maxHandle) (enough : distance t.next handle < tries) :
    ∃ found after, t.fresh tries = some (found, after) := by
  induction tries generalizing t with
  | zero => omega
  | succ tries ih =>
    rw [Table.fresh]
    cases used : t.inUse t.next with
    | false =>
      have unused : Table.inUse { t with next := (successor t.next).getD 1 } t.next = false := used
      simp [unused]
    | true =>
      have other : t.next ≠ handle := by
        rintro rfl
        simp [free] at used
      have taken : Table.inUse { t with next := (successor t.next).getD 1 } t.next = true := used
      simp only [taken, Bool.not_true, Bool.false_eq_true, if_false]
      -- the next number is one nearer
      unfold distance at enough
      apply ih (t := { t with next := (successor t.next).getD 1 })
      · exact free
      · exact successor_pos t.next
      · exact successor_le t.next
      · show distance ((successor t.next).getD 1) handle < tries
        rcases Nat.lt_or_ge t.next maxHandle with below | last
        · rw [successor_of_lt below, Option.getD_some]
          unfold distance
          split at enough <;> split <;> omega
        · have wraps : (successor t.next).getD 1 = 1 := by
            unfold successor maxHandle at *
            rw [if_neg (by omega), Option.getD_none]
          rw [wraps]
          unfold distance
          split at enough <;> split <;> omega

theorem fresh_bounds {tries : Nat} {t after : Table} {handle : Nat}
    (found : t.fresh tries = some (handle, after)) (counter : 0 < t.next)
    (bounded : t.next ≤ maxHandle) : 0 < after.next ∧ after.next ≤ maxHandle := by
  induction tries generalizing t with
  | zero => cases found
  | succ tries ih =>
    rw [Table.fresh] at found
    split at found
    · cases found
      exact ⟨successor_pos t.next, successor_le t.next⟩
    · exact ih found (successor_pos t.next) (successor_le t.next)

/-- A handle from the counter, where it has not passed the end, is at least what the counter was. -/
theorem fresh_above {tries : Nat} {t after : Table} {handle : Nat} (counter : 0 < t.next)
    (bounded : t.next ≤ maxHandle) (found : t.fresh tries = some (handle, after))
    (short : t.passesEnd tries = false) :
    t.next ≤ handle ∧ handle ≤ maxHandle ∧ (handle < maxHandle → after.next = handle + 1) := by
  induction tries generalizing t with
  | zero => cases found
  | succ tries ih =>
    rw [Table.fresh] at found
    rw [passesEnd] at short
    cases used : t.inUse t.next with
    | false =>
      have unused : Table.inUse { t with next := (successor t.next).getD 1 } t.next = false := used
      simp only [unused, Bool.not_false, if_true, Option.some.injEq, Prod.mk.injEq] at found
      obtain ⟨rfl, rfl⟩ := found
      refine ⟨Nat.le_refl _, bounded, fun below => ?_⟩
      simp [successor_of_lt below]
    | true =>
      have taken : Table.inUse { t with next := (successor t.next).getD 1 } t.next = true := used
      simp only [taken, Bool.not_true, Bool.false_eq_true, if_false] at found
      simp only [used, Bool.true_and, Bool.or_eq_false_iff, decide_eq_false_iff_not] at short
      rw [successor_of_lt (by omega), Option.getD_some] at found short
      have above : t.next + 1 ≤ handle ∧ handle ≤ maxHandle ∧
          (handle < maxHandle → after.next = handle + 1) := by
        apply ih (t := { t with next := t.next + 1 })
        · exact Nat.succ_pos _
        · show t.next + 1 ≤ maxHandle
          omega
        · exact found
        · exact short.2
      omega

/-- A handle is the next of the queue, and the counter is put past it, or is the counter's. -/
theorem issue_cases {t table : Table} {queue rest : List Nat} {handle : Nat}
    (issued : t.issue queue = some (handle, table, rest)) :
    (t.reissues queue = true ∧ queue.head? = some handle ∧ table = { t with
        next := match successor handle with
          | some past => max t.next past
          | none => t.next }) ∨
      (t.reissues queue = false ∧ t.fresh (2 ^ 64) = some (handle, table)) := by
  unfold Table.issue at issued
  split at issued
  · obtain ⟨⟨found, after⟩, searched, same⟩ := Option.map_eq_some_iff.mp issued
    cases same
    exact .inr ⟨rfl, searched⟩
  · next named rest =>
    split at issued
    · next free =>
      cases issued
      exact .inl ⟨by simp [reissues, free], rfl, rfl⟩
    · next taken =>
      obtain ⟨⟨found, after⟩, searched, same⟩ := Option.map_eq_some_iff.mp issued
      cases same
      refine .inr ⟨?_, searched⟩
      simpa [reissues] using taken

end Table

/-- A table whose handles are followed: every handle it issued, and whether its counter has passed
the end. -/
structure Issuer where
  table : Table
  issued : List Nat
  passed : Bool

/-- A machine is created, with the re-issue queue there is then, or freed. -/
inductive Turnover
  | create (pinned : Bool) (queue : List Nat)
  | free (handle : Nat)

namespace Issuer

def new : Issuer := ⟨Table.new, [], false⟩

def step (s : Issuer) : Turnover → Option Issuer
  | .create pinned queue =>
    (s.table.issue queue).map fun (handle, table, _) =>
      let who : Who := ⟨handle, s.issued.length, pinned⟩
      let table :=
        if pinned then { table with parked := Function.update table.parked handle (some who) }
        else { table with machines := Function.update table.machines handle (some who) }
      ⟨table, handle :: s.issued, s.passed ||
        !s.table.reissues queue && (s.table.passesEnd (2 ^ 64) || handle = Table.maxHandle)⟩
  | .free handle =>
    some { s with table := { s.table with
      machines := Function.update s.table.machines handle none
      parked := Function.update s.table.parked handle none
      pinned := Function.update s.table.pinned handle false } }

/-- No re-issued handle is `u64::MAX`, or above it. -/
def Below : Turnover → Prop
  | .create _ queue => ∀ handle ∈ queue, handle < Table.maxHandle
  | .free _ => True

/-- The counter is a valid handle. -/
structure Counts (s : Issuer) : Prop where
  positive : 0 < s.table.next
  bounded : s.table.next ≤ Table.maxHandle

/-- The counter is ahead of the handles issued until it passes the end. -/
structure Ahead (s : Issuer) : Prop extends Counts s where
  ahead : s.passed = false → ∀ handle ∈ s.issued, handle < s.table.next

theorem counts_new : new.Counts := ⟨by decide, by decide⟩

theorem Counts.issue {s : Issuer} (counts : s.Counts) {queue rest : List Nat} {handle : Nat}
    {table : Table} (issued : s.table.issue queue = some (handle, table, rest)) :
    0 < table.next ∧ table.next ≤ Table.maxHandle := by
  rcases Table.issue_cases issued with ⟨_, _, rfl⟩ | ⟨_, found⟩
  · have inRange := Table.successor_le handle
    cases past : Table.successor handle with
    | none => exact ⟨counts.positive, counts.bounded⟩
    | some past' =>
      rw [past, Option.getD_some] at inRange
      exact ⟨lt_of_lt_of_le counts.positive (Nat.le_max_left _ _), max_le counts.bounded inRange⟩
  · exact Table.fresh_bounds found counts.positive counts.bounded

theorem Counts.step {s next : Issuer} (counts : s.Counts) {turn : Turnover}
    (stepped : s.step turn = some next) : next.Counts := by
  cases turn with
  | free handle =>
    cases stepped
    exact ⟨counts.positive, counts.bounded⟩
  | create pinned queue =>
    obtain ⟨⟨handle, table, rest⟩, issued, rfl⟩ := Option.map_eq_some_iff.mp stepped
    obtain ⟨positive, bounded⟩ := counts.issue issued
    cases pinned <;> exact ⟨positive, bounded⟩

theorem Ahead.step {s next : Issuer} (ahead : s.Ahead) {turn : Turnover} (below : Below turn)
    (stepped : s.step turn = some next) : next.Ahead := by
  refine ⟨ahead.toCounts.step stepped, ?_⟩
  cases turn with
  | free handle =>
    cases stepped
    exact ahead.ahead
  | create pinned queue =>
    obtain ⟨⟨handle, table, rest⟩, issued, rfl⟩ := Option.map_eq_some_iff.mp stepped
    -- both kinds of machine leave the counter where `issue` did
    suffices above : (s.passed || !s.table.reissues queue && (s.table.passesEnd (2 ^ 64) ||
        handle = Table.maxHandle)) = false → ∀ other ∈ handle :: s.issued, other < table.next by
      cases pinned <;> exact above
    intro unpassed other member
    rcases Table.issue_cases issued with ⟨again, queued, rfl⟩ | ⟨counted, found⟩
    · have small := below handle (List.mem_of_mem_head? queued)
      simp only [again, Bool.not_true, Bool.false_and, Bool.or_false] at unpassed
      simp only [Table.successor_of_lt small]
      rcases List.mem_cons.mp member with rfl | older
      · exact Nat.lt_of_lt_of_le (Nat.lt_succ_self _) (Nat.le_max_right _ _)
      · exact Nat.lt_of_lt_of_le (ahead.ahead unpassed other older) (Nat.le_max_left _ _)
    · simp only [counted, Bool.not_false, Bool.true_and, Bool.or_eq_false_iff,
        decide_eq_false_iff_not] at unpassed
      obtain ⟨unpassed, short, notLast⟩ := unpassed
      obtain ⟨above, inRange, past⟩ := Table.fresh_above ahead.positive ahead.bounded found short
      have next := past (by omega)
      rcases List.mem_cons.mp member with rfl | older
      · omega
      · have before := ahead.ahead unpassed other older
        omega

/-- A handle issued is not `0` and not in use, and there is one as long as a handle is free. Short
of the end of the counter, one the queue does not name is issued for the first time. -/
theorem handles_are_fresh (turns : List Turnover) (s : Issuer)
    (ran : Transition.run Issuer.step new turns = some s) (queue : List Nat) :
    (∀ handle table rest, s.table.issue queue = some (handle, table, rest) →
      handle ≠ 0 ∧ s.table.inUse handle = false) ∧
    ((∃ handle, 0 < handle ∧ handle ≤ Table.maxHandle ∧ s.table.inUse handle = false) →
      ∃ issued, s.table.issue queue = some issued) ∧
    ((∀ turn ∈ turns, Below turn) → s.passed = false → s.table.passesEnd (2 ^ 64) = false →
      s.table.reissues queue = false → ∀ handle table rest,
        s.table.issue queue = some (handle, table, rest) → handle ∉ s.issued) := by
  have counts : s.Counts :=
    Transition.run_invariant Counts (fun _ _ _ counts => counts.step) counts_new ran
  refine ⟨fun handle table rest issued => ?_, ?_, ?_⟩
  · exact ⟨(Table.issue_pos counts.positive issued).1, (Table.issue_spec issued).1⟩
  · rintro ⟨handle, positive, inRange, free⟩
    have near : Table.distance s.table.next handle < 2 ^ 64 := by
      have bounded := counts.bounded
      have start := counts.positive
      unfold Table.distance Table.maxHandle at *
      split <;> omega
    obtain ⟨found, after, searched⟩ :=
      Table.fresh_of_free free positive inRange counts.positive counts.bounded near
    unfold Table.issue
    split
    · exact ⟨_, by rw [searched]; rfl⟩
    · split
      · exact ⟨_, rfl⟩
      · exact ⟨_, by rw [searched]; rfl⟩
  · intro below unpassed short counted handle table rest issued member
    have ahead : s.Ahead := Transition.run_invariant_along (fun _ turn => Below turn) Ahead
      (fun _ _ _ ahead below => ahead.step below) ⟨counts_new, fun _ => by simp [new]⟩
      (Transition.along_of_forall Below below new) ran
    have before := ahead.ahead unpassed handle member
    rcases Table.issue_cases issued with ⟨again, _, _⟩ | ⟨_, found⟩
    · rw [counted] at again
      cases again
    · have above := (Table.fresh_above ahead.positive ahead.bounded found short).1
      omega

/-- A handle from the counter, after a recording's far ahead of it was issued and freed. -/
theorem handles_are_fresh_reissued : ∃ s : Issuer,
    Transition.run Issuer.step new [.create false [], .create true [7], .free 7] = some s ∧
      ∀ handle table rest, s.table.issue [] = some (handle, table, rest) → handle ∉ [7, 1] := by
  refine ⟨_, rfl, ?_⟩
  apply (handles_are_fresh [.create false [], .create true [7], .free 7] _ rfl []).2.2
  · simp [Below, Table.maxHandle]
  · decide
  · decide
  · rfl

end Issuer

end SansEffort
