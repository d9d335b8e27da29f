import SansEffort.Encoded
import SansEffort.Verdict

/-!
# A refused call is invisible

Leaving refused calls out of a run changes nothing that is left of it. The routine may share
its outbox with others here: all that matters is that a refusal puts the handle it took back,
and that the table holds one handle for each id.
-/

namespace SansEffort

variable {σ E H V : Type}

inductive EncodedCall
  | resume
  | reply (record : Bytes)

namespace Encoded

def call (r : Routine σ E H) (split : E → V × Option Pending)
    (view : V → Writer → Option Writer) (m : Machine σ E H) :
    EncodedCall → Option (Coded × Machine σ E H)
  | .resume => resume r split view m
  | .reply record => reply r split view m record

/-- What one act returns to the host, if it is a call. -/
def act (r : Routine σ E H) (split : E → V × Option Pending)
    (view : V → Writer → Option Writer) (m : Machine σ E H) :
    HostAct EncodedCall E → Option (Option Coded × Machine σ E H)
  | .call c => (call r split view m c).map fun (coded, m) => (some coded, m)
  | .other op => (m.other op).map (none, ·)
  | .wake => some (none, m.wake)

/-- A run's acts, each with what it returned. -/
abbrev Trace (E : Type) := List (HostAct EncodedCall E × Option Coded)

def run (r : Routine σ E H) (split : E → V × Option Pending) (view : V → Writer → Option Writer)
    (m : Machine σ E H) : List (HostAct EncodedCall E) → Option (Trace E × Machine σ E H)
  | [] => some ([], m)
  | a :: rest => (act r split view m a).bind fun (returned, m) =>
      (run r split view m rest).map fun (trace, m) => ((a, returned) :: trace, m)

/-- `kept` is `trace` without some of the calls that were refused. -/
inductive Pruned : Trace E → Trace E → Prop
  | nil : Pruned [] []
  | keep {trace kept : Trace E} (entry : HostAct EncodedCall E × Option Coded)
      (rest : Pruned trace kept) : Pruned (entry :: trace) (entry :: kept)
  | drop {trace kept : Trace E} (a : HostAct EncodedCall E) (error : Error)
      (rest : Pruned trace kept) : Pruned ((a, some (.error error)) :: trace) kept

/-- `trace` without any call that was refused. -/
def unrefused (trace : Trace E) : Trace E :=
  trace.filter fun entry => match entry.2 with
    | some (.error _) => false
    | _ => true

theorem pruned_unrefused (trace : Trace E) : Pruned trace (unrefused trace) := by
  induction trace with
  | nil => exact .nil
  | cons entry trace ih =>
    obtain ⟨a, returned⟩ := entry
    match returned with
    | some (.error error) => exact .drop a error ih
    | some (.ok reported) => exact .keep (a, some (.ok reported)) ih
    | none => exact .keep (a, none) ih

end Encoded

namespace Machine

/-! ### One handle for each id -/

/-- The table holds one handle for each id, all of requests shown. -/
def Distinct (split : E → V × Option Pending) (m : Machine σ E H) : Prop :=
  (m.pending.map Prod.fst).Nodup ∧
    m.pending.map Prod.fst ⊆ shownIds split m.driver.outbox.log

theorem Alike.distinct {split : E → V × Option Pending} {m m' : Machine σ E H}
    (alike : Alike m m') (distinct : m.Distinct split) : m'.Distinct split := by
  refine ⟨(alike.pending.map _).nodup_iff.mpr distinct.1, ?_⟩
  rw [alike.driver]
  exact List.Subset.trans (alike.pending.map Prod.fst).subset distinct.2

private theorem distinct_shown {split : E → V × Option Pending} {n : Machine σ E H}
    {after : Stepper σ E H} {yielded : Yield E} {before : List (Event E)}
    (nodup : (n.pending.map Prod.fst).Nodup) (shown : n.pending.map Prod.fst ⊆ shownIds split before)
    (more : emitted after.outbox.log = emitted before ++ yielded.effects)
    (sorted : (shownIds split after.outbox.log).Pairwise (· < ·)) :
    ({ n with driver := after }.showYield split yielded).2.Distinct split := by
  have ids : shownIds split after.outbox.log =
      shownIds split before ++ (handles split yielded.effects).map Pending.id := by
    unfold shownIds handles
    rw [more, List.filterMap_append, List.map_append]
  rw [ids, List.pairwise_append] at sorted
  obtain ⟨_, fresh, above⟩ := sorted
  have pending := (showYield_pending split { n with driver := after } yielded).map Prod.fst
  rw [List.map_append, List.map_map] at pending
  refine ⟨List.Nodup.sublist pending ?_, ?_⟩
  · refine List.nodup_append.mpr ⟨nodup, fresh.imp Nat.ne_of_lt, ?_⟩
    rintro id member _ new rfl
    exact Nat.lt_irrefl _ (above id (shown member) id new)
  · rw [showYield_driver, ids]
    refine List.Subset.trans pending.subset (List.append_subset.mpr ⟨?_, List.subset_append_right _ _⟩)
    exact List.Subset.trans shown (List.subset_append_left _ _)

theorem Distinct.removed {split : E → V × Option Pending} {m n : Machine σ E H}
    (distinct : m.Distinct split) {taken : List (Nat × Pending)}
    (removed : (taken ++ n.pending).Perm m.pending) :
    (n.pending.map Prod.fst).Nodup ∧
      n.pending.map Prod.fst ⊆ shownIds split m.driver.outbox.log := by
  have perm := removed.map Prod.fst
  rw [List.map_append] at perm
  refine ⟨(List.nodup_append.mp (perm.nodup_iff.mpr distinct.1)).2.1, ?_⟩
  exact List.Subset.trans (List.subset_append_right _ _)
    (List.Subset.trans perm.subset distinct.2)

theorem Distinct.call {split : E → V × Option Pending} {driver : Nat} (r : Routine σ E H)
    {m m' : Machine σ E H} (distinct : m.Distinct split) (kept : m.driver.outbox.Kept) {c : Call}
    {result : Except Error (Yield (Shown V))} (returned : m.call r split c = some (result, m'))
    (lawful : Lawful split driver m'.driver.outbox.log) : m'.Distinct split := by
  have sorted := shownIds_sorted (Hosted.call_later r split kept returned).kept.valid lawful
  cases result with
  | error error =>
    exact (call_refused r split kept returned).distinct distinct
  | ok shown =>
    obtain ⟨taken, n, after, yielded, removed, rfl, more, _⟩ :=
      Hosted.call_shown r split kept returned
    rw [showYield_driver] at sorted
    obtain ⟨nodup, subset⟩ := distinct.removed removed
    exact distinct_shown nodup subset more sorted

theorem Distinct.other {split : E → V × Option Pending} {m m' : Machine σ E H}
    (distinct : m.Distinct split) (kept : m.driver.outbox.Kept) {op : Outbox.Op E}
    (done : m.other op = some m') : m'.Distinct split := by
  unfold Machine.other at done
  split at done
  · next side =>
    obtain ⟨outbox, moved, rfl⟩ := Option.map_eq_some_iff.mp done
    refine ⟨distinct.1, ?_⟩
    show m.pending.map Prod.fst ⊆ shownIds split outbox.log
    unfold shownIds
    rw [(kept.step_grown side moved).emitted]
    exact distinct.2
  · cases done

/-! ### Machines alike behave alike -/

theorem Alike.yielded (split : E → V × Option Pending) {n n' : Machine σ E H} (alike : Alike n n')
    (driver : Stepper σ E H) (yielded : Yield E) :
    ({ n' with driver }.showYield split yielded).1 = ({ n with driver }.showYield split yielded).1 ∧
      Alike ({ n with driver }.showYield split yielded).2
        ({ n' with driver }.showYield split yielded).2 :=
  (⟨rfl, alike.pending, alike.highest, alike.never⟩ :
    Alike { n with driver } { n' with driver }).showYield yielded

theorem Alike.resumeShown {r : Routine σ E H} {split : E → V × Option Pending}
    {m m' n : Machine σ E H} (alike : Alike m m') {result : Except Error (Yield (Shown V))}
    (returned : m.resumeShown r split = some (result, n)) :
    ∃ n', m'.resumeShown r split = some (result, n') ∧ Alike n n' := by
  unfold Machine.resumeShown at returned ⊢
  rw [alike.isFinished, alike.driver]
  split at returned
  · next finished =>
    cases returned
    exact ⟨m', if_pos finished, alike⟩
  · next unfinished =>
    obtain ⟨⟨yielded, after⟩, polled, same⟩ := Option.map_eq_some_iff.mp returned
    obtain ⟨shown, alike⟩ := alike.yielded split after yielded
    cases same
    rw [if_neg unfinished, polled]
    exact ⟨_, congrArg (fun y => some (Except.ok y, _)) shown, alike⟩

theorem Alike.replyShown {r : Routine σ E H} {split : E → V × Option Pending}
    {m m' n : Machine σ E H} (alike : Alike m m') (distinct : m.Distinct split) {id : Nat}
    {value : Value} {result : Except Error (Yield (Shown V))}
    (returned : m.replyShown r split id value = some (result, n)) :
    ∃ n', m'.replyShown r split id value = some (result, n') ∧ Alike n n' := by
  unfold Machine.replyShown at returned ⊢
  rcases alike.take distinct.1 id with ⟨p, t, t', taken, taken', rest, _⟩ | ⟨error, taken, taken'⟩
  · rw [taken] at returned
    rw [taken']
    simp only at returned ⊢
    cases unwrapped : value.kind.fromPending p with
    | error q =>
      rw [unwrapped] at returned
      cases returned
      exact ⟨_, rfl, rest.driver, rest.pending.append_right _, rest.highest, rest.never⟩
    | ok reply =>
      rw [unwrapped] at returned
      simp only [Machine.deliver] at returned ⊢
      obtain ⟨⟨outcome, after⟩, tried, same⟩ := Option.map_eq_some_iff.mp returned
      rw [rest.driver, tried]
      cases outcome with
      | ok yielded =>
        obtain ⟨shown, alike⟩ := rest.yielded split after yielded
        cases same
        exact ⟨_, congrArg (fun y => some (Except.ok y, _)) shown, alike⟩
      | error refused =>
        cases same
        exact ⟨_, rfl, rfl, rest.pending.append_right _, rest.highest, rest.never⟩
  · rw [taken] at returned
    rw [taken']
    cases returned
    exact ⟨m', rfl, alike⟩

theorem Alike.other {m m' n : Machine σ E H} (alike : Alike m m') {op : Outbox.Op E}
    (done : m.other op = some n) : ∃ n', m'.other op = some n' ∧ Alike n n' := by
  unfold Machine.other at done ⊢
  rw [alike.driver]
  split at done
  · next side =>
    obtain ⟨outbox, moved, rfl⟩ := Option.map_eq_some_iff.mp done
    refine ⟨m'.setOutbox outbox, by rw [if_pos side, moved]; rfl, ?_⟩
    refine ⟨?_, alike.pending, alike.highest, alike.never⟩
    unfold Machine.setOutbox
    rw [alike.driver]
  · cases done

theorem Alike.wake {m m' : Machine σ E H} (alike : Alike m m') : Alike m.wake m'.wake := by
  refine ⟨?_, alike.pending, alike.highest, alike.never⟩
  unfold Machine.wake
  rw [alike.driver]

end Machine

/-! ### The byte layer -/

namespace Encoded

variable {r : Routine σ E H} {split : E → V × Option Pending} {view : V → Writer → Option Writer}

theorem report_machine {result : Except Error (Yield (Shown V))} {m n : Machine σ E H}
    {coded : Coded} (reported : report view (result, m) = some (coded, n)) : n = m := by
  cases result with
  | error error =>
    cases reported
    rfl
  | ok shown =>
    obtain ⟨_, _, same⟩ := Option.map_eq_some_iff.mp reported
    exact (congrArg Prod.snd same).symm

theorem report_error {result : Except Error (Yield (Shown V))} {m n : Machine σ E H}
    {error : Error} (reported : report view (result, m) = some (.error error, n)) :
    result = .error error := by
  cases result with
  | error error =>
    cases reported
    rfl
  | ok shown =>
    obtain ⟨_, _, same⟩ := Option.map_eq_some_iff.mp reported
    cases same

/-- What is reported is decided by the result and the driver. -/
theorem report_alike {result : Except Error (Yield (Shown V))} {m m' n : Machine σ E H}
    {coded : Coded} (alike : m.Alike m') (reported : report view (result, m) = some (coded, n)) :
    report view (result, m') = some (coded, m') := by
  cases result with
  | error error =>
    cases reported
    rfl
  | ok shown =>
    obtain ⟨bytes, encoded, same⟩ := Option.map_eq_some_iff.mp reported
    cases same
    simp only [report, encoded, Option.map_some, Machine.status, alike.driver]

/-- A call on the byte layer is refused with its record, or is a call on the machine. -/
theorem call_cases {m n : Machine σ E H} {c : EncodedCall} {coded : Coded}
    (returned : call r split view m c = some (coded, n)) :
    (∃ error, coded = .error error ∧ n = m ∧
      ∀ m' : Machine σ E H, call r split view m' c = some (coded, m')) ∨
    ∃ inner result, m.call r split inner = some (result, n) ∧
      report view (result, n) = some (coded, n) ∧
      ∀ m' n' : Machine σ E H, m'.call r split inner = some (result, n') →
        call r split view m' c = report view (result, n') := by
  cases c with
  | resume =>
    obtain ⟨⟨result, last⟩, called, reported⟩ := Option.bind_eq_some_iff.mp returned
    obtain rfl := report_machine reported
    refine .inr ⟨.resume, result, called, reported, fun m' n' called' => ?_⟩
    exact congrArg (·.bind (report view)) called'
  | reply record =>
    simp only [call, reply] at returned ⊢
    cases decoded : Input.decode record with
    | error error =>
      rw [decoded] at returned
      cases returned
      exact .inl ⟨_, rfl, rfl, fun _ => rfl⟩
    | ok input =>
      rw [decoded] at returned
      obtain ⟨⟨result, last⟩, called, reported⟩ := Option.bind_eq_some_iff.mp returned
      obtain rfl := report_machine reported
      refine .inr ⟨.reply input.id input.value, result, called, reported, fun m' n' called' => ?_⟩
      exact congrArg (·.bind (report view)) called'

/-- What holds of the machine between the acts of a run, as far as the effects so far are
lawful. -/
structure Settled (split : E → V × Option Pending) (driver : Nat) (m : Machine σ E H) : Prop where
  kept : m.driver.outbox.Kept
  distinct : Lawful split driver m.driver.outbox.log → m.Distinct split

theorem settled_new (split : E → V × Option Pending) (driver : Nat) (waker : Waker)
    (make : Prog E σ) :
    Settled split driver (.fromDriver (.new driver waker make) : Machine σ E H) :=
  ⟨(Stepper.kept_new driver waker make).1, fun _ => ⟨.nil, List.nil_subset _⟩⟩

theorem Settled.act {driver : Nat} {m n : Machine σ E H} (settled : Settled split driver m)
    {a : HostAct EncodedCall E} {returned : Option Coded}
    (acted : act r split view m a = some (returned, n)) :
    Settled split driver n ∧ m.driver.outbox.log <:+ n.driver.outbox.log := by
  cases a with
  | call c =>
    obtain ⟨⟨coded, last⟩, called, same⟩ := Option.map_eq_some_iff.mp acted
    cases same
    rcases call_cases called with ⟨_, _, rfl, _⟩ | ⟨inner, result, called, _, _⟩
    · exact ⟨settled, List.suffix_refl _⟩
    · have later := Hosted.call_later r split settled.kept called
      refine ⟨⟨later.kept, fun lawful => ?_⟩, later.log⟩
      exact (settled.distinct (lawful.of_suffix later.log)).call r settled.kept called lawful
  | other op =>
    obtain ⟨last, done, same⟩ := Option.map_eq_some_iff.mp acted
    cases same
    have grown : n.driver.outbox.Kept ∧ m.driver.outbox.log <:+ n.driver.outbox.log := by
      unfold Machine.other at done
      split at done
      · next side =>
        obtain ⟨outbox, moved, rfl⟩ := Option.map_eq_some_iff.mp done
        exact ⟨settled.kept.step moved, (settled.kept.step_grown side moved).log⟩
      · cases done
    refine ⟨⟨grown.1, fun lawful => ?_⟩, grown.2⟩
    exact (settled.distinct (lawful.of_suffix grown.2)).other settled.kept done
  | wake =>
    cases acted
    exact ⟨⟨settled.kept, settled.distinct⟩, List.suffix_refl _⟩

/-- A refused call only reorders the table. -/
theorem act_refused {m n : Machine σ E H} (kept : m.driver.outbox.Kept)
    {a : HostAct EncodedCall E} {error : Error}
    (acted : act r split view m a = some (some (.error error), n)) : m.Alike n := by
  cases a with
  | call c =>
    obtain ⟨⟨coded, last⟩, called, same⟩ := Option.map_eq_some_iff.mp acted
    cases same
    rcases call_cases called with ⟨_, _, rfl, _⟩ | ⟨inner, result, called, reported, _⟩
    · exact .refl _
    · obtain rfl := report_error reported
      exact Machine.call_refused r split kept called
  | other op =>
    obtain ⟨_, _, same⟩ := Option.map_eq_some_iff.mp acted
    cases same
  | wake => cases acted

/-- Machines alike return the same, and stay alike. -/
theorem act_alike {m m' n : Machine σ E H} (alike : m.Alike m') (distinct : m.Distinct split)
    {a : HostAct EncodedCall E} {returned : Option Coded}
    (acted : act r split view m a = some (returned, n)) :
    ∃ n', act r split view m' a = some (returned, n') ∧ n.Alike n' := by
  cases a with
  | call c =>
    obtain ⟨⟨coded, last⟩, called, same⟩ := Option.map_eq_some_iff.mp acted
    cases same
    rcases call_cases called with ⟨_, _, same, again⟩ | ⟨inner, result, called, reported, again⟩
    · subst same
      exact ⟨m', congrArg (Option.map _) (again m'), alike⟩
    · obtain ⟨n', called', alike'⟩ : ∃ n', m'.call r split inner = some (result, n') ∧
          n.Alike n' := by
        cases inner with
        | resume => exact alike.resumeShown called
        | reply id value => exact alike.replyShown distinct called
      refine ⟨n', ?_, alike'⟩
      simp only [act, again m' n' called', report_alike alike' reported, Option.map_some]
  | other op =>
    obtain ⟨last, done, same⟩ := Option.map_eq_some_iff.mp acted
    cases same
    obtain ⟨n', done', alike'⟩ := alike.other done
    exact ⟨n', congrArg (Option.map _) done', alike'⟩
  | wake =>
    cases acted
    exact ⟨m'.wake, rfl, alike.wake⟩

/-! ### Runs -/

theorem run_cons {m final : Machine σ E H} {a : HostAct EncodedCall E}
    {rest : List (HostAct EncodedCall E)} {trace : Trace E}
    (ran : run r split view m (a :: rest) = some (trace, final)) :
    ∃ returned next more, act r split view m a = some (returned, next) ∧
      run r split view next rest = some (more, final) ∧ trace = (a, returned) :: more := by
  obtain ⟨⟨returned, next⟩, acted, ran⟩ := Option.bind_eq_some_iff.mp ran
  obtain ⟨⟨more, last⟩, ran, same⟩ := Option.map_eq_some_iff.mp ran
  cases same
  exact ⟨returned, next, more, acted, ran, rfl⟩

theorem run_suffix {driver : Nat} {m final : Machine σ E H} (settled : Settled split driver m)
    {acts : List (HostAct EncodedCall E)} {trace : Trace E}
    (ran : run r split view m acts = some (trace, final)) :
    m.driver.outbox.log <:+ final.driver.outbox.log := by
  induction acts generalizing m trace with
  | nil =>
    cases ran
    exact List.suffix_refl _
  | cons a rest ih =>
    obtain ⟨_, _, _, acted, ran, _⟩ := run_cons ran
    obtain ⟨settled', suffix⟩ := settled.act acted
    exact suffix.trans (ih settled' ran)

/-- A run from a machine alike, with some of the refused calls left out. -/
theorem run_pruned {driver : Nat} {m m' final : Machine σ E H} (settled : Settled split driver m)
    (alike : m.Alike m') {trace kept : Trace E} (pruned : Pruned trace kept)
    (ran : run r split view m (trace.map Prod.fst) = some (trace, final))
    (lawful : Lawful split driver final.driver.outbox.log) :
    ∃ final', run r split view m' (kept.map Prod.fst) = some (kept, final') ∧
      final.Alike final' := by
  induction pruned generalizing m m' with
  | nil =>
    cases ran
    exact ⟨m', rfl, alike⟩
  | keep entry rest ih =>
    obtain ⟨_, _⟩ := entry
    obtain ⟨returned, next, more, acted, ran, same⟩ := run_cons ran
    cases same
    obtain ⟨settled', suffix⟩ := settled.act acted
    have now := lawful.of_suffix (suffix.trans (run_suffix settled' ran))
    obtain ⟨next', acted', alike'⟩ := act_alike alike (settled.distinct now) acted
    obtain ⟨final', ran', alike''⟩ := ih settled' alike' ran
    refine ⟨final', ?_, alike''⟩
    simp only [List.map_cons, run, acted', ran', Option.bind_some, Option.map_some]
  | drop a error rest ih =>
    obtain ⟨returned, next, more, acted, ran, same⟩ := run_cons ran
    cases same
    exact ih (settled.act acted).1 ((act_refused settled.kept acted).symm.trans alike) ran

theorem run_acts {m final : Machine σ E H} {acts : List (HostAct EncodedCall E)} {trace : Trace E}
    (ran : run r split view m acts = some (trace, final)) : trace.map Prod.fst = acts := by
  induction acts generalizing m trace with
  | nil =>
    cases ran
    rfl
  | cons a rest ih =>
    obtain ⟨_, _, _, _, remaining, rfl⟩ := run_cons ran
    exact congrArg (a :: ·) (ih remaining)

/-- The run up to an act, and the act. -/
theorem run_split {driver : Nat} {m final : Machine σ E H} (settled : Settled split driver m)
    {front rest : Trace E} {a : HostAct EncodedCall E} {returned : Option Coded}
    (ran : run r split view m ((front ++ (a, returned) :: rest).map Prod.fst) =
      some (front ++ (a, returned) :: rest, final)) :
    ∃ before after, run r split view m (front.map Prod.fst) = some (front, before) ∧
      Settled split driver before ∧ act r split view before a = some (returned, after) ∧
      after.driver.outbox.log <:+ final.driver.outbox.log := by
  induction front generalizing m with
  | nil =>
    obtain ⟨_, after, _, acted, ran, same⟩ := run_cons ran
    cases same
    exact ⟨m, after, rfl, settled, acted, run_suffix (settled.act acted).1 ran⟩
  | cons entry front ih =>
    obtain ⟨_, _⟩ := entry
    obtain ⟨_, next, _, acted, ran, same⟩ := run_cons ran
    cases same
    obtain ⟨before, after, ran', settled', acted', suffix⟩ := ih (settled.act acted).1 ran
    refine ⟨before, after, ?_, settled', acted', suffix⟩
    simp only [List.map_cons, run, acted, ran', Option.bind_some, Option.map_some]

/-- Leaving out refused calls, all of them or some, changes nothing that the calls left return,
and the driver ends the same. A refused call leaves the driver as it was and the table but for
its order, and whatever is called next returns what it would have without the refusal. -/
theorem refused_calls_are_invisible (r : Routine σ E H) (split : E → V × Option Pending)
    (view : V → Writer → Option Writer) (driver : Nat) (waker : Waker) (make : Prog E σ)
    (acts : List (HostAct EncodedCall E)) (trace : Trace E) (final : Machine σ E H)
    (ran : run r split view (.fromDriver (.new driver waker make)) acts = some (trace, final))
    (lawful : Lawful split driver final.driver.outbox.log) :
    (∀ kept, Pruned trace kept → ∃ final' : Machine σ E H,
      run r split view (.fromDriver (.new driver waker make)) (kept.map Prod.fst) =
        some (kept, final') ∧ final'.driver = final.driver) ∧
    (∀ front a error rest, trace = front ++ (a, some (.error error)) :: rest →
      ∃ before after : Machine σ E H,
        run r split view (.fromDriver (.new driver waker make)) (front.map Prod.fst) =
          some (front, before) ∧
        act r split view before a = some (some (.error error), after) ∧
        after.driver = before.driver ∧ after.pending.Perm before.pending ∧
        ∀ next returned m, act r split view before next = some (returned, m) →
          ∃ m', act r split view after next = some (returned, m')) := by
  have settled := settled_new (H := H) split driver waker make
  have acts := run_acts ran
  refine ⟨fun kept pruned => ?_, fun front a error rest same => ?_⟩
  · obtain ⟨final', ran', alike⟩ := run_pruned settled (.refl _) pruned (acts ▸ ran) lawful
    exact ⟨final', ran', alike.driver⟩
  · subst same
    obtain ⟨before, after, ran', settled', acted, suffix⟩ := run_split settled (acts ▸ ran)
    have alike := act_refused settled'.kept acted
    have now := lawful.of_suffix ((settled'.act acted).2.trans suffix)
    refine ⟨before, after, ran', acted, alike.driver, alike.pending,
      fun next returned m acted => ?_⟩
    obtain ⟨m', acted', _⟩ := act_alike alike (settled'.distinct now) acted
    exact ⟨m', acted'⟩

end Encoded

namespace Echo

def View.write : View → Writer → Option Writer
  | .ask id, w => some (w.u64 id)
  | .say text, w => w.str text

/-- Two refusals after one resume: a record that does not parse, and one of the wrong kind. -/
def refusals : Encoded.Trace Effect :=
  [(.call .resume, some (.ok ([2, 8, 0, 0, 0, 1, 0, 0, 0, 0, 0, 0, 0], .awaiting))),
    (.call (.reply [9]), some (.error (.malformed (.unknownTag 9)))),
    (.call (.reply [3, 1, 0, 0, 0, 0, 0, 0, 0]), some (.error (.wrongKind 1 .str .unit)))]

theorem refused_calls_are_invisible_twice :
    ∃ final : Machine State Effect Unit,
      Encoded.run program.routine Effect.split View.write (.fromDriver (.new 1 0 (.ret .start)))
        (refusals.map Prod.fst) = some (refusals, final) ∧
      ∃ final' : Machine State Effect Unit,
        Encoded.run program.routine Effect.split View.write
          (.fromDriver (.new 1 0 (.ret .start))) [.call .resume] =
            some (Encoded.unrefused refusals, final') ∧
        final'.driver = final.driver := by
  refine ⟨_, rfl, ?_⟩
  exact (Encoded.refused_calls_are_invisible program.routine Effect.split View.write 1 0
    (.ret .start) (refusals.map Prod.fst) refusals _ rfl (lawful_of_all rfl)).1 _
    (Encoded.pruned_unrefused refusals)

end Echo

end SansEffort
