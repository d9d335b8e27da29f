import SansEffort.Hosting

/-!
# What a reply returns

The machine decides from three fields it keeps as it shows effects. `verdict` decides from
everything the host has been shown, has replied and has been told is closed. They agree after
any run.
-/

namespace SansEffort

variable {σ E H V : Type}

/-- The answer a request was opened with. -/
def awaited (id : Nat) : List (Event E) → Option Answer
  | [] => none
  | .opened i _ a :: log => if i = id then some a else awaited id log
  | _ :: log => awaited id log

theorem mem_openings_of_awaited {log : List (Event E)} {id : Nat} {a : Answer}
    (found : awaited id log = some a) : (id, a) ∈ openings log := by
  induction log with
  | nil => cases found
  | cons event log ih =>
    cases event
    case opened i e b =>
      simp only [awaited] at found
      split at found
      · next same =>
        cases found
        exact same ▸ List.mem_cons_self
      · exact List.mem_cons_of_mem _ (ih found)
    all_goals exact ih found

theorem awaited_of_mem_openings {log : List (Event E)} {id : Nat} {a : Answer}
    (opened : (id, a) ∈ openings log) : ∃ b, awaited id log = some b := by
  induction log with
  | nil => cases opened
  | cons event log ih =>
    cases event
    case opened i e b =>
      simp only [awaited]
      split
      · exact ⟨b, rfl⟩
      · next away =>
        rcases List.mem_cons.mp opened with same | earlier
        · cases same
          exact absurd rfl away
        · exact ih earlier
    all_goals exact ih opened

theorem Valid.awaited_iff {log : List (Event E)} (valid : Valid log) (id : Nat) (a : Answer) :
    awaited id log = some a ↔ (id, a) ∈ openings log := by
  refine ⟨mem_openings_of_awaited, fun opened => ?_⟩
  obtain ⟨b, found⟩ := awaited_of_mem_openings opened
  rw [found, valid.openings_unique opened (mem_openings_of_awaited found)]

namespace Hosted

/-- What a reply must return, `none` being `Ok`. -/
def verdict (split : E → V × Option Pending) (s : Hosted σ E H V) (id : Nat) (value : Value) :
    Option Error :=
  if s.machine.isFinished then some .finished
  else if id ∉ shownIds split s.outbox.log then some .badInput
  else if id ∈ (accepted s.heard).map Prod.fst ∨ id ∈ closedIds s.heard then some (.stale id)
  else match awaited id s.outbox.log with
    | none => none
    | some a =>
      if value.kind ≠ a.wire then some (.wrongKind id a.wire value.kind)
      else match a.check value with
        | some (.error error) => some (.malformed error)
        | _ => none

/-- An accepted reply: the handle is taken out of the table, the value delivered, and the
routine polled. -/
structure Replied (r : Routine σ E H) (split : E → V × Option Pending) (s : Hosted σ E H V)
    (id : Nat) (value : Value) (result : Except Error (Yield (Shown V))) (m' : Machine σ E H) :
    Prop where
  intro ::
  ran : ∃ (yielded : Yield E) (middle after : Stepper σ E H) (removed : Machine σ E H)
      (replied : Outbox E),
    result = .ok ({ removed with driver := after }.showYield split yielded).1 ∧
    m' = ({ removed with driver := after }.showYield split yielded).2 ∧
    replied.log = .delivered id value :: s.outbox.log ∧
    replied.mail.driver = s.outbox.mail.driver ∧ Outbox.Grown replied middle.outbox ∧
    (r.Private → beingBuilt middle.outbox.log = beingBuilt replied.log) ∧
    Stepper.Polled r middle after yielded ∧
    removed.Tabled (Machine.handles split (emitted s.outbox.log))
      (gone (.delivered id value :: s.outbox.log))

/-- The reply is not to a request whose future was dropped since the last drain, of which the
host cannot know. -/
def Prompt (split : E → V × Option Pending) (s : Hosted σ E H V) (id : Nat) (value : Value) : Prop :=
  s.machine.isFinished = false → id ∈ shownIds split s.outbox.log →
    (∃ a, awaited id s.outbox.log = some a ∧ a.wire = value.kind) → id ∉ s.outbox.mail.closed

theorem Orderly.reply_spec {split : E → V × Option Pending} {driver : Nat} {s : Hosted σ E H V}
    (orderly : Orderly split driver s) (lawful : Lawful split driver s.outbox.log)
    (r : Routine σ E H) (id : Nat) (value : Value) (prompt : s.Prompt split id value) :
    match s.verdict split id value with
    | some error => ∃ m', s.machine.replyShown r split id value = some (.error error, m') ∧
        Machine.Alike s.machine m'
    | none => id ∈ shownIds split s.outbox.log ∧ ¬ gone s.outbox.log id ∧
        ∀ result m', s.machine.replyShown r split id value = some (result, m') →
        Replied r split s id value result m' := by
  unfold verdict Machine.replyShown
  -- a routine that is complete refuses every reply
  cases finished : s.machine.isFinished with
  | true =>
    rw [s.machine.take_finished finished id]
    exact ⟨s.machine, rfl, rfl, .refl _, rfl, rfl⟩
  | false =>
    simp only [Bool.false_eq_true, if_false, orderly.accepted, orderly.closed]
    obtain ⟨p, m, taken, member, rfl, here, removed, driver', highest, never⟩ |
      ⟨taken, member, gone⟩ | ⟨taken, absent⟩ := orderly.table.take_cases finished id
    -- its handle is there: it was shown, and opened for an answer `a` of that kind
    · have shown : p.id ∈ shownIds split s.outbox.log := List.mem_map_of_mem member
      obtain ⟨a, opened, handle⟩ := shown_opened orderly.kept.valid lawful member
      have awaits := (orderly.kept.valid.awaited_iff p.id a).mpr opened
      have kind : p.kind = a.wire := by rw [handle, Kind.intoPending_kind]
      have open_still : ¬ (p.id ∈ (deliveries s.outbox.log).map Prod.fst ∨
          p.id ∈ listed s.outbox.log) := here
      rw [taken, if_neg (not_not.mpr shown), if_neg open_still, awaits]
      simp only
      have unwrap := Kind.fromPending_intoPending a.wire value.kind ⟨driver, p.id⟩
      rw [← handle] at unwrap
      rw [unwrap]
      -- a value of another kind is refused, and the handle put back
      by_cases same : a.wire = value.kind
      · rw [if_pos same, if_neg (not_not.mpr same.symm)]
        simp only
        -- nothing has settled it, so its life is still to wait
        have waits := orderly.waits opened here (prompt finished shown ⟨a, awaits, same⟩)
        obtain ⟨outcome, verdict⟩ := a.check_of_kind value same.symm
        have own : (⟨driver, p.id⟩ : ReplyHandle).driver = m.driver.outbox.mail.driver := by
          rw [driver']
          exact orderly.own.symm
        have tried := Stepper.tryReply_cases r (driver' ▸ orderly.kept) ⟨driver, p.id⟩ value own
        have alive : (life p.id m.driver.outbox.log).answer = some a := by
          rw [driver']
          exact congrArg Life.answer waits
        simp only [alive, verdict] at tried
        rw [verdict]
        unfold Machine.deliver
        cases outcome with
        | error error =>
          simp only at tried ⊢
          rw [tried]
          refine ⟨_, rfl, driver', ?_, highest, never⟩
          show (m.pending ++ [(p.id, value.kind.intoPending ⟨driver, p.id⟩)]).Perm _
          rw [← same, ← handle]
          exact (List.perm_append_comm).trans removed
        | ok _ =>
          simp only at tried ⊢
          refine ⟨shown, here, fun result m' returned => ?_⟩
          obtain ⟨⟨outcome, after⟩, attempted, same⟩ := Option.map_eq_some_iff.mp returned
          obtain ⟨yielded, replied, middle, rfl, _, log, driver'', kept, grown, built, unfinished,
            polled⟩ := tried outcome after attempted
          cases same
          refine ⟨yielded, middle, after, m, replied.outbox, rfl, rfl, ?_, ?_, grown, built, ?_, ?_⟩
          · rw [log, driver']
          · rw [driver'', driver']
          -- the routine was not complete, so the wake was followed by a poll
          · rcases Stepper.poll_cases r kept polled with ⟨completed, _, _⟩ | polled
            · rw [driver'] at unfinished
              have : middle.isFinished = true := by
                unfold Stepper.isFinished
                rw [completed]
                rfl
              rw [unfinished] at this
              exact absurd (finished.symm.trans this) Bool.false_ne_true
            · exact polled
          · refine orderly.table.taken removed highest never fun other => ?_
            unfold gone
            simp only [deliveries, listed, List.map_cons, List.mem_cons, or_assoc]
      · rw [if_neg same, if_pos (Ne.symm same)]
        simp only [kind]
        refine ⟨_, rfl, driver', ?_, highest, never⟩
        exact List.perm_append_comm.trans removed
    -- it was shown, and is gone from the table
    · have went : id ∈ (deliveries s.outbox.log).map Prod.fst ∨ id ∈ listed s.outbox.log := gone
      have shown : id ∈ shownIds split s.outbox.log := member
      rw [taken, if_neg (not_not.mpr shown), if_pos went]
      exact ⟨s.machine, rfl, rfl, .refl _, rfl, rfl⟩
    -- it was never shown
    · have unseen : id ∉ shownIds split s.outbox.log := absent
      rw [taken, if_pos unseen]
      exact ⟨s.machine, rfl, rfl, .refl _, rfl, rfl⟩

/-- A routine that uses its outbox alone drops nothing between two calls. -/
theorem Sound.prompt {split : E → V × Option Pending} {driver : Nat} {s : Hosted σ E H V}
    (sound : Sound split driver s) (id : Nat) (value : Value) : s.Prompt split id value := by
  intro _ shown _ dropped
  obtain ⟨_, member, _⟩ := List.mem_map.mp shown
  obtain ⟨_, inside, _⟩ := List.mem_filterMap.mp member
  rw [(sound.flushed (drains_of_emitted inside)).1] at dropped
  cases dropped

theorem call_later (r : Routine σ E H) (split : E → V × Option Pending) {m m' : Machine σ E H}
    (kept : m.driver.outbox.Kept) {c : Call} {result : Except Error (Yield (Shown V))}
    (returned : m.call r split c = some (result, m')) : Stepper.Later r m.driver m'.driver := by
  cases c with
  | resume =>
    simp only [Machine.call, Machine.resumeShown] at returned
    split at returned
    · cases returned
      exact .refl kept
    · obtain ⟨⟨yielded, after⟩, polled, same⟩ := Option.map_eq_some_iff.mp returned
      cases same
      rw [Machine.showYield_driver]
      exact Stepper.poll_later r kept polled
  | reply id value =>
    simp only [Machine.call, Machine.replyShown] at returned
    split at returned
    · cases returned
      exact .refl kept
    · next p removed taken =>
      -- taking the handle out leaves the driver as it was
      have driver := Machine.take_driver taken
      split at returned
      · next reply _ =>
        obtain ⟨⟨outcome, after⟩, tried, same⟩ := Option.map_eq_some_iff.mp returned
        have later := Stepper.tryReply_later r (driver ▸ kept) tried
        rw [driver] at later
        cases outcome with
        | ok yielded =>
          obtain rfl := congrArg Prod.snd same
          show Stepper.Later r m.driver (Machine.showYield split _ yielded).2.driver
          rw [Machine.showYield_driver]
          exact later
        | error refused =>
          cases same
          exact later
      · cases returned
        exact (congrArg (Stepper.Later r m.driver) driver).mpr (.refl kept)

/-- A call that returned `Ok` showed what the routine recorded. A reply took its handle out
first. -/
theorem call_shown (r : Routine σ E H) (split : E → V × Option Pending) {m m' : Machine σ E H}
    (kept : m.driver.outbox.Kept) {c : Call} {shown : Yield (Shown V)}
    (returned : m.call r split c = some (.ok shown, m')) :
    ∃ (taken : List (Nat × Pending)) (n : Machine σ E H) (after : Stepper σ E H)
      (yielded : Yield E), (taken ++ n.pending).Perm m.pending ∧
      m' = ({ n with driver := after }.showYield split yielded).2 ∧
      emitted after.outbox.log = emitted m.driver.outbox.log ++ yielded.effects ∧
      after.outbox.mail.driver = m.driver.outbox.mail.driver := by
  cases c with
  | resume =>
    simp only [Machine.call, Machine.resumeShown] at returned
    split at returned
    · cases returned
    · obtain ⟨⟨yielded, after⟩, polled, same⟩ := Option.map_eq_some_iff.mp returned
      refine ⟨[], m, after, yielded, .refl _, (congrArg Prod.snd same).symm, ?_, ?_⟩
      · exact Stepper.poll_emitted r kept polled
      · exact Stepper.poll_own r kept polled
  | reply id value =>
    simp only [Machine.call, Machine.replyShown] at returned
    cases finished : m.isFinished with
    | true =>
      rw [m.take_finished finished id] at returned
      cases returned
    | false =>
      -- only a handle that was there is answered
      rcases m.take_spec finished id with ⟨p, n, taken, removed, driver, _, _⟩ | ⟨_, taken⟩
      · rw [taken] at returned
        simp only at returned
        split at returned
        · next reply _ =>
          obtain ⟨⟨outcome, after⟩, tried, same⟩ := Option.map_eq_some_iff.mp returned
          cases outcome with
          | error refused => cases same
          | ok yielded =>
            refine ⟨[(id, p)], n, after, yielded, removed, (congrArg Prod.snd same).symm, ?_, ?_⟩
              <;> rw [← driver]
            · exact Stepper.tryReply_emitted r (driver ▸ kept) tried
            · exact Stepper.tryReply_own r (driver ▸ kept) tried
        · cases returned
      · rw [taken] at returned
        split at returned
        · cases returned
        · next same =>
          split at same <;> cases same

theorem step_later (r : Routine σ E H) (split : E → V × Option Pending)
    {s next : Hosted σ E H V} (kept : s.outbox.Kept) {a : HostAct Call E}
    (stepped : s.step r split a = some next) :
    next.outbox.Kept ∧ s.outbox.log <:+ next.outbox.log := by
  cases a with
  | call c =>
    obtain ⟨⟨result, machine⟩, returned, rfl⟩ := Option.map_eq_some_iff.mp stepped
    have later := call_later r split kept returned
    exact ⟨later.kept, later.log⟩
  | other op =>
    obtain ⟨machine, done, rfl⟩ := Option.map_eq_some_iff.mp stepped
    unfold Machine.other at done
    split at done
    · next side =>
      obtain ⟨outbox, moved, rfl⟩ := Option.map_eq_some_iff.mp done
      exact ⟨kept.step moved, (kept.step_grown side moved).log⟩
    · cases done
  | wake =>
    cases stepped
    exact ⟨kept, List.suffix_refl _⟩

/-- An accepted reply leaves everything in step. -/
theorem Orderly.replied {split : E → V × Option Pending} {driver : Nat} {r : Routine σ E H}
    {s : Hosted σ E H V} (orderly : Orderly split driver s) {id : Nat}
    {value : Value} {result : Except Error (Yield (Shown V))} {m' : Machine σ E H}
    (replied : Replied r split s id value result m') (shown : id ∈ shownIds split s.outbox.log)
    (here : ¬ gone s.outbox.log id) (lawful : Lawful split driver m'.driver.outbox.log)
    (clear : ∀ y older, m'.driver.outbox.log = .drained y :: older → Unhindered older) :
    Orderly split driver ⟨m', (.reply id value, result) :: s.heard⟩ := by
  obtain ⟨yielded, middle, after, removed, replied, rfl, rfl, log, own, grown, built, polled,
    table⟩ := replied
  rw [Machine.showYield_driver] at lawful clear
  -- one more delivery, and nothing emitted or listed before the next batch
  have deliveries : deliveries middle.outbox.log =
      (id, value) :: SansEffort.deliveries s.outbox.log := by
    rw [grown.deliveries, log, SansEffort.deliveries]
  have emitted : emitted middle.outbox.log = SansEffort.emitted s.outbox.log := by
    rw [grown.emitted, log]
    rfl
  have listed : listed middle.outbox.log = SansEffort.listed s.outbox.log := by
    rw [grown.listed, log]
    rfl
  refine orderly_yielded polled lawful clear ((grown.driver.trans own).trans orderly.own) ?_ ?_ ?_
    ?_ ?_
  -- what is gone was shown: this one, and those before
  · unfold gone shownIds
    rw [deliveries, emitted, listed]
    rintro other (answered | closed)
    · rcases List.mem_cons.mp answered with rfl | earlier
      · exact shown
      · exact orderly.known other (.inl earlier)
    · exact orderly.known other (.inr closed)
  · rw [deliveries]
    -- and none is answered twice
    exact List.nodup_cons.mpr ⟨fun earlier => here (.inl earlier), orderly.once⟩
  · rw [emitted]
    refine table.congr (.refl _) rfl rfl fun other => ?_
    unfold gone
    rw [deliveries, listed]
    rfl
  · intro y
    rw [deliveries]
    exact congrArg ((id, value) :: ·) orderly.accepted
  · rw [listed]
    exact orderly.closed

/-- A call that returned `Ok` polled the routine. -/
theorem Orderly.call_ok {split : E → V × Option Pending} {driver : Nat} {s : Hosted σ E H V}
    (orderly : Orderly split driver s) (lawful : Lawful split driver s.outbox.log)
    (r : Routine σ E H) {c : Call} (prompt : ∀ id value, c = .reply id value →
      s.Prompt split id value) {y : Yield (Shown V)} {m' : Machine σ E H}
    (returned : s.machine.call r split c = some (.ok y, m')) :
    ∃ (d after : Stepper σ E H) (yielded : Yield E),
      Stepper.Polled r d after yielded ∧ m'.driver = after := by
  cases c with
  | resume =>
    simp only [Machine.call, Machine.resumeShown] at returned
    split at returned
    · cases returned
    · next unfinished =>
      obtain ⟨⟨yielded, after⟩, polled, same⟩ := Option.map_eq_some_iff.mp returned
      cases same
      rcases Stepper.poll_cases r orderly.kept polled with ⟨completed, _, _⟩ | polled
      -- a call that polls finds the routine
      · exact absurd (by rw [Machine.isFinished, Stepper.isFinished, completed]; rfl) unfinished
      · exact ⟨_, after, yielded, polled, Machine.showYield_driver _ _ _⟩
  | reply id value =>
    have spec := orderly.reply_spec lawful r id value (prompt id value rfl)
    -- a refusal is not `Ok`
    cases verdict : s.verdict split id value with
    | some error =>
      rw [verdict] at spec
      obtain ⟨_, refused, _⟩ := spec
      cases refused.symm.trans returned
    | none =>
      rw [verdict] at spec
      obtain ⟨yielded, middle, after, removed, _, _, rfl, _, _, _, _, polled, _⟩ :=
        spec.2.2 _ _ returned
      exact ⟨middle, after, yielded, polled, Machine.showYield_driver _ _ _⟩

/-- One act, by the host or by others. -/
theorem Orderly.step {split : E → V × Option Pending} {driver : Nat} {r : Routine σ E H}
    {s next : Hosted σ E H V} (orderly : Orderly split driver s) {a : HostAct Call E}
    (prompt : ∀ id value, a = .call (.reply id value) → s.Prompt split id value)
    (stepped : s.step r split a = some next) (lawful : Lawful split driver next.outbox.log)
    (clear : ∀ y older, next.outbox.log = .drained y :: older → Unhindered older) :
    Orderly split driver next := by
  -- the log only grows, so it was lawful before
  have before := lawful.of_suffix (step_later r split orderly.kept stepped).2
  cases a with
  | other op =>
    obtain ⟨machine, done, rfl⟩ := Option.map_eq_some_iff.mp stepped
    unfold Machine.other at done
    split at done
    · next side =>
      obtain ⟨outbox, moved, rfl⟩ := Option.map_eq_some_iff.mp done
      exact orderly.grown (orderly.kept.step moved) (orderly.kept.step_grown side moved)
    · cases done
  | wake =>
    cases stepped
    exact ⟨orderly.kept, orderly.own, orderly.accepted, orderly.closed, orderly.once,
      orderly.table.congr (.refl _) rfl rfl fun _ => Iff.rfl, orderly.known⟩
  | call c =>
    obtain ⟨⟨result, machine⟩, returned, rfl⟩ := Option.map_eq_some_iff.mp stepped
    cases c with
    | resume =>
      simp only [Machine.call, Machine.resumeShown] at returned
      split at returned
      · cases returned
        exact orderly.refused .resume .finished (.refl _)
      · next unfinished =>
        obtain ⟨⟨yielded, after⟩, polled, same⟩ := Option.map_eq_some_iff.mp returned
        cases same
        rcases Stepper.poll_cases r orderly.kept polled with ⟨completed, _, _⟩ | polled
        · exact absurd (by rw [Machine.isFinished, Stepper.isFinished, completed]; rfl) unfinished
        · have same := Machine.showYield_driver split { s.machine with driver := after } yielded
          simp only [Hosted.outbox] at lawful clear
          rw [same] at lawful clear
          exact orderly_yielded polled lawful clear orderly.own orderly.known orderly.once
            orderly.table (fun _ => orderly.accepted) orderly.closed
    | reply id value =>
      have spec := orderly.reply_spec before r id value (prompt id value rfl)
      cases verdict : s.verdict split id value with
      | some error =>
        rw [verdict] at spec
        obtain ⟨m', refused, alike⟩ := spec
        cases refused.symm.trans returned
        exact orderly.refused _ _ alike
      | none =>
        rw [verdict] at spec
        obtain ⟨shown, here, replies⟩ := spec
        exact orderly.replied (replies result machine returned) shown here lawful clear

/-- A quiet act leaves nothing half built. -/
theorem step_built {r : Routine σ E H} {split : E → V × Option Pending} {s next : Hosted σ E H V}
    (kept : s.outbox.Kept) (alone : r.Private) {a : HostAct Call E} (quiet : a.isQuiet = true)
    (stepped : s.step r split a = some next) :
    beingBuilt next.outbox.log = beingBuilt s.outbox.log := by
  cases a with
  | other op =>
    cases op with
    | tell effect =>
      cases stepped
      show beingBuilt (s.outbox.tell effect).log = _
      rw [Outbox.tell_log]
      rfl
    | _ => cases quiet
  | wake =>
    cases stepped
    rfl
  | call c =>
    obtain ⟨⟨result, machine⟩, returned, rfl⟩ := Option.map_eq_some_iff.mp stepped
    exact (call_later r split kept returned).built alone

theorem Sound.step {split : E → V × Option Pending} {driver : Nat} {r : Routine σ E H}
    {s next : Hosted σ E H V} (sound : Sound split driver s) (alone : r.Private) {a : HostAct Call E}
    (quiet : a.isQuiet = true) (stepped : s.step r split a = some next)
    (lawful : Lawful split driver next.outbox.log) : Sound split driver next := by
  -- no effect is being built between quiet acts, so nothing holds a batch back
  have built := (step_built sound.kept alone quiet stepped).trans sound.built
  have orderly : Orderly split driver next := by
    refine sound.toOrderly.step (fun id value _ => sound.prompt id value) stepped lawful ?_
    intro y older same id _ r building
    rw [same] at built
    exact absurd building (built ▸ List.not_mem_nil)
  refine ⟨orderly, built, ?_⟩
  cases a with
  | other op =>
    cases op with
    -- an effect told of opens no request
    | tell effect =>
      cases stepped
      have mail : (s.outbox.tell effect).mail = s.outbox.mail := Outbox.record_mail _ _
      show drains (s.outbox.tell effect).log ≠ [] → (s.outbox.tell effect).mail.closed = [] ∧
        ∀ id ∈ (openings (s.outbox.tell effect).log).map Prod.fst,
          id ∈ shownIds split (s.outbox.tell effect).log
      rw [mail, s.outbox.tell_log]
      exact sound.flushed
    | _ => cases quiet
  | wake =>
    cases stepped
    exact sound.flushed
  | call c =>
    have before := lawful.of_suffix (step_later r split sound.kept stepped).2
    obtain ⟨⟨result, machine⟩, returned, rfl⟩ := Option.map_eq_some_iff.mp stepped
    cases result with
    | ok y =>
      obtain ⟨d, after, yielded, polled, same⟩ :=
        sound.call_ok before r (fun id value _ => sound.prompt id value) returned
      obtain ⟨poll, middle, kept, _, _, _, drained, _, _⟩ := polled
      -- a call that showed a batch has drained the outbox
      have outbox : machine.driver.shared.outbox = middle.drain.2.2 := same ▸ drained
      refine fun _ => ⟨congrArg (fun o : Outbox E => o.mail.closed) outbox, fun id opened => ?_⟩
      refine opened_shown orderly.kept lawful (congrArg Outbox.effects outbox) (fun r building => ?_)
        opened
      rw [built] at building
      cases building
    | error error =>
      have alike := Machine.call_refused r split sound.kept returned
      show drains machine.driver.shared.outbox.log ≠ [] → machine.driver.shared.outbox.mail.closed = [] ∧
        ∀ id ∈ (openings machine.driver.shared.outbox.log).map Prod.fst,
          id ∈ shownIds split machine.driver.shared.outbox.log
      rw [alike.driver]
      exact sound.flushed

/-- A host's run from a fresh machine. -/
abbrev Run (r : Routine σ E H) (split : E → V × Option Pending) (driver : Nat) (waker : Waker)
    (make : Prog E σ) (acts : List (HostAct Call E)) (s : Hosted σ E H V) : Prop :=
  Transition.run (Hosted.step r split) (Hosted.new driver waker make) acts = some s

theorem Run.kept {r : Routine σ E H} {split : E → V × Option Pending} {driver : Nat}
    {waker : Waker} {make : Prog E σ} {acts : List (HostAct Call E)} {s : Hosted σ E H V}
    (ran : Run r split driver waker make acts s) : s.outbox.Kept :=
  Transition.run_invariant (fun s : Hosted σ E H V => s.outbox.Kept)
    (fun _ _ _ kept stepped => (step_later r split kept stepped).1)
    (Stepper.kept_new driver waker make).1 ran

theorem Run.sound {r : Routine σ E H} {split : E → V × Option Pending} {driver : Nat}
    {waker : Waker} {make : Prog E σ} {acts : List (HostAct Call E)} {s : Hosted σ E H V}
    (ran : Run r split driver waker make acts s) (alone : r.Private)
    (quiet : ∀ a ∈ acts, a.isQuiet = true) (lawful : Lawful split driver s.outbox.log) :
    Sound split driver s := by
  -- what is lawful now was lawful before, so the law is assumed of each state in turn
  have inv : s.outbox.Kept ∧ (Lawful split driver s.outbox.log → Sound split driver s) := by
    refine Transition.run_invariant_along (fun _ a => a.isQuiet = true)
      (fun s : Hosted σ E H V => s.outbox.Kept ∧
        (Lawful split driver s.outbox.log → Sound split driver s)) ?_ ?_
      (Transition.along_of_forall _ quiet _) ran
    · intro s a next ⟨kept, sound⟩ quiet stepped
      obtain ⟨kept', suffix⟩ := step_later r split kept stepped
      exact ⟨kept', fun lawful => (sound (lawful.of_suffix suffix)).step alone quiet stepped lawful⟩
    · have sound := sound_new (H := H) split driver waker make
      exact ⟨sound.kept, fun _ => sound⟩
  exact inv.2 lawful

/-- How a call failed, if it did. -/
def failure {α : Type} : Except Error α → Option Error
  | .error error => some error
  | .ok _ => none

/-- After any run of calls on a fresh machine, a reply with any id and any value returns its
verdict. Where the verdict is an error, it returns. -/
theorem reply_returns_verdict (p : Program σ E) (split : E → V × Option Pending) (driver : Nat)
    (waker : Waker) (make : Prog E σ) (acts : List (HostAct Call E)) (s : Hosted σ E H V)
    (ran : Run p.routine split driver waker make acts s) (quiet : ∀ a ∈ acts, a.isQuiet = true)
    (lawful : Lawful split driver s.outbox.log) (id : Nat) (value : Value) :
    (∀ result m', s.machine.replyShown p.routine split id value = some (result, m') →
      failure result = s.verdict split id value) ∧
    (∀ error, s.verdict split id value = some error →
      ∃ m', s.machine.replyShown p.routine split id value = some (.error error, m')) := by
  have sound := ran.sound p.routine_private quiet lawful
  have spec := sound.reply_spec lawful p.routine id value (sound.prompt id value)
  cases verdict : s.verdict split id value with
  | some error =>
    rw [verdict] at spec
    obtain ⟨m', refused, _⟩ := spec
    refine ⟨fun result after returned => ?_, fun other same => ?_⟩
    · cases refused.symm.trans returned
      rfl
    · cases same
      exact ⟨m', refused⟩
  | none =>
    rw [verdict] at spec
    refine ⟨fun result after returned => ?_, fun other same => by cases same⟩
    obtain ⟨_, _, _, _, _, rfl, _⟩ := spec.2.2 result after returned
    rfl

end Hosted

/-! ### A routine that echoes -/

namespace Echo

inductive Effect
  | ask (reply : ReplyHandle)
  | say (text : String)

inductive View
  | ask (id : Nat)
  | say (text : String)
  deriving DecidableEq

def Effect.split : Effect → View × Option Pending
  | .ask reply => (.ask reply.id, some (.str reply))
  | .say text => (.say text, none)

/-- Where an `Echo` is suspended. -/
inductive State
  | start
  | asked (id : Nat)
  | done

/-- The rest of an `Echo` from its await on. -/
def awaiting (id : Nat) (waker : Waker) : Prog Effect (Option (Poll × State)) :=
  .collect id waker fun
    | some (.str text) => .close id (.tell (.say text) (.ret (some (.ready, .done))))
    | some _ => .ret none
    | none => .ret (some (.pending, .asked id))

/-- `Echo`: ask for a text, and say it. -/
def program : Program State Effect where
  poll
    | .start, waker =>
      .ask (anyAnswer .str) (fun reply => .ret (some (.ask reply))) fun
        | some id => awaiting id waker
        | none => .ret none
    | .asked id, waker => awaiting id waker
    | .done, _ => .ret none
  drop
    | .asked id => .close id (.ret (some ()))
    | _ => .ret (some ())
  wake state _ := some state

end Echo

namespace Echo

def lawfulEvent : Event Effect → Bool
  | .told (.ask _) => false
  | .opened id (.ask reply) a => reply = ⟨1, id⟩ && a.wire = .str
  | .opened _ (.say _) _ => false
  | _ => true

theorem lawful_of_all {log : List (Event Effect)} (all : log.all lawfulEvent = true) :
    Lawful Effect.split 1 log := by
  rw [List.all_eq_true] at all
  refine ⟨fun e told => ?_, fun id e a opened => ?_⟩
  · cases e with
    | ask _ => exact absurd (all _ told) (by simp [lawfulEvent])
    | say text => rfl
  · have lawful := all _ opened
    cases e with
    | ask reply =>
      obtain ⟨rfl, wire⟩ : reply = ⟨1, id⟩ ∧ a.wire = .str := by simpa [lawfulEvent] using lawful
      rw [wire]
      rfl
    | say text => simp [lawfulEvent] at lawful

/-- The wrong kind, after one resume. -/
theorem reply_returns_verdict_wrong_kind :
    ∃ s : Hosted State Effect Unit View,
      Hosted.Run program.routine Effect.split 1 0 (.ret .start) [.call .resume] s ∧
      ∃ m', s.machine.replyShown program.routine Effect.split 1 (.u64 7) =
        some (.error (.wrongKind 1 .str .u64), m') := by
  refine ⟨_, rfl, ?_⟩
  exact (Hosted.reply_returns_verdict program Effect.split 1 0 (.ret .start) [.call .resume] _ rfl
    (by decide) (lawful_of_all rfl) 1 (.u64 7)).2 _ rfl

end Echo

end SansEffort
