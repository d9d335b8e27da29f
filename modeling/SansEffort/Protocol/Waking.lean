import SansEffort.Protocol.Accounts
import SansEffort.Protocol.Senders

/-!
# Wakes

A machine that waits, and could take a message or see its channel closed, has been woken, and the
host has been told or will be. One place breaks this: a race that is resumed on a closed channel
takes it for one that is still open, and waits on.
-/

namespace SansEffort.Protocol

variable {k : Instance} {races : Prop}

/-- The machine waits on a channel, alone or in a race. -/
def Machine.waits (m : Machine) : Prop :=
  m.status = .idle ∨ m.status = .awaiting ∧ m.racing ≠ 0

/-- The machine ought to be woken when its channel closes. A race is left out unless `races`. -/
def Machine.heedsClosing (races : Prop) (m : Machine) : Prop := m.status = .idle ∨ races ∧ m.waits

namespace Machine

/-- Two machines are in the same wait. -/
structure SameWait (m m' : Machine) : Prop where
  status : m'.status = m.status
  racing : m'.racing = m.racing
  waiting : m'.waiting = m.waiting
  woken : m'.woken = m.woken

theorem SameWait.waits {m m' : Machine} (same : SameWait m m') (waits : m'.waits) :
    m.waits := by
  unfold Machine.waits at waits ⊢
  rw [same.status, same.racing] at waits
  exact waits

theorem SameWait.heedsClosing {m m' : Machine} (same : SameWait m m')
    (heeds : m'.heedsClosing races) : m.heedsClosing races :=
  heeds.imp same.status.symm.trans (And.imp_right same.waits)

theorem SameWait.refl (m : Machine) : SameWait m m := ⟨rfl, rfl, rfl, rfl⟩

end Machine

namespace World

/-- Who waits and could go on has been woken, and is reported or has been `told`. -/
structure Alert (races : Prop) (w : World) (told : Nat → Prop) : Prop where
  fed : ∀ (g : Nat) (m : Machine), w.machines[g]? = some m → m.waits → 0 < w.queued m.waiting → m.woken = true
  shut : ∀ (g : Nat) (m : Machine), w.machines[g]? = some m → m.heedsClosing races → w.senders m.waiting = 0 →
    m.woken = true
  reported : ∀ (g : Nat) (m : Machine), w.machines[g]? = some m → m.waits → m.woken = true → g ∈ w.woke ∨ told g

/-- It has begun to wait, or looked in vain. -/
structure Looked (races : Prop) (w : World) (m : Machine) : Prop where
  asleep : m.woken = false
  empty : w.queued m.waiting = 0
  opened : m.heedsClosing races → w.senders m.waiting ≠ 0

namespace Alert

variable {w w' : World} {told told' : Nat → Prop} {h : Nat}

/-- Each wait goes on as it was, or has just looked. -/
theorem carry (alert : w.Alert races told)
    (each : ∀ (g : Nat) (m' : Machine), w'.machines[g]? = some m' → m'.waits →
      w'.Looked races m' ∨ ∃ m, w.machines[g]? = some m ∧ Machine.SameWait m m' ∧
        (told g → told' g))
    (queued : ∀ c, w'.queued c ≤ w.queued c) (senders : ∀ c, w'.senders c = 0 → w.senders c = 0)
    (woke : w.woke ⊆ w'.woke) : w'.Alert races told' := by
  refine ⟨fun g m' there waits message => ?_, fun g m' there heeds closed => ?_,
    fun g m' there waits woken => ?_⟩
  · obtain looked | ⟨m, before, same, _⟩ := each g m' there waits
    · have := looked.empty
      omega
    · rw [same.woken]
      apply alert.fed g m before (same.waits waits)
      rw [← same.waiting]
      exact lt_of_lt_of_le message (queued _)
  · have waits : m'.waits := heeds.elim .inl And.right
    obtain looked | ⟨m, before, same, _⟩ := each g m' there waits
    · exact absurd closed (looked.opened heeds)
    · rw [same.woken]
      apply alert.shut g m before (same.heedsClosing heeds)
      rw [← same.waiting]
      exact senders _ closed
  · obtain looked | ⟨m, before, same, tell⟩ := each g m' there waits
    · rw [looked.asleep] at woken
      cases woken
    · rw [same.woken] at woken
      exact (alert.reported g m before (same.waits waits) woken).imp (woke ·) tell

/-- Only machine `h` changes, and it waits no more or has just looked. -/
theorem update (alert : w.Alert races told) {f : Machine → Machine}
    (machines : w'.machines = (w.update h f).machines)
    (self : ∀ m, w.machines[h]? = some m → (f m).waits → w'.Looked races (f m))
    (tell : ∀ g, g ≠ h → told g → told' g) (queued : ∀ c, w'.queued c ≤ w.queued c)
    (senders : ∀ c, w'.senders c = 0 → w.senders c = 0) (woke : w.woke ⊆ w'.woke) :
    w'.Alert races told' := by
  apply alert.carry _ queued senders woke
  intro g m' there waits
  rw [machines, getElem?_update] at there
  split at there
  · next here =>
    obtain ⟨m, found, rfl⟩ := Option.map_eq_some_iff.mp there
    exact .inl (self m (here ▸ found) waits)
  · next away => exact .inr ⟨m', there, .refl m', tell g away⟩

/-- Machines are woken, those that wait on channels that close among them. -/
theorem nudged (alert : w.Alert races told) (nudged : w.Nudged w')
    (closing : ∀ (g : Nat) (m : Machine), w'.machines[g]? = some m → w'.senders m.waiting = 0 →
      w.senders m.waiting = 0 ∨ m.woken = true) : w'.Alert races told := by
  refine ⟨fun g m' there waits message => ?_, fun g m' there heeds closed => ?_,
    fun g m' there waits woken => ?_⟩
  all_goals obtain ⟨m, before, same, kept, tell⟩ := nudged.of_machine there
  · apply kept
    rw [same] at waits message
    rw [nudged.queued] at message
    exact alert.fed g m before waits message
  · rcases closing g m' there closed with already | now
    · apply kept
      rw [same] at heeds already
      exact alert.shut g m before heeds already
    · exact now
  · rcases tell woken with already | now
    · rw [same] at waits
      exact (alert.reported g m before waits already).imp_left (nudged.woke ·)
    · exact .inl now

theorem take (alert : w.Alert races told) (c : String) : (w.take c).Alert races told := by
  unfold World.take
  split
  · refine alert.carry (fun g m there _ => .inr ⟨m, there, .refl m, id⟩) (fun d => ?_)
      (fun _ => id) (Finset.Subset.refl _)
    show Function.update w.queued c (w.queued c - 1) d ≤ w.queued d
    by_cases same : d = c
    · subst same
      rw [Function.update_self]
      omega
    · rw [Function.update_of_ne same]
  · exact alert

/-- A message is sent, and those who wait for it are woken. -/
theorem send (alert : w.Alert races told) (c : String)
    (same : w'.machines = w.machines) (queued : ∀ d, d ≠ c → w'.queued d = w.queued d)
    (senders : w'.senders = w.senders) (woke : w'.woke = w.woke) :
    (w'.wakeWaiters c).Alert races told := by
  obtain ⟨nudged, senders', woken⟩ := wakeWaiters_spec w' c
  refine ⟨fun g m' there waits message => ?_, fun g m' there heeds closed => ?_,
    fun g m' there waits awake => ?_⟩
  all_goals
    obtain ⟨m, before, bare, kept, tell⟩ := nudged.of_machine there
    rw [same] at before
  · by_cases here : m'.waiting = c
    · exact woken g m' there here
    · rw [nudged.queued, queued _ here] at message
      rw [bare] at waits message
      exact kept (alert.fed g m before waits message)
  · rw [senders', senders] at closed
    rw [bare] at heeds closed
    exact kept (alert.shut g m before heeds closed)
  · rcases tell awake with already | now
    · rw [bare] at waits
      refine (alert.reported g m before waits already).imp_left fun told => nudged.woke ?_
      rw [woke]
      exact told
    · exact .inl now

theorem dropSenders (alert : w.Alert races told) (chans : List String) :
    (w.dropSenders chans).Alert races told := by
  obtain ⟨nudged, _, closing⟩ := dropSenders_spec w chans
  exact alert.nudged nudged closing

theorem finish (alert : w.Alert races told) (h : Nat) : (w.finish h).Alert races told := by
  unfold World.finish
  split
  · exact alert
  · apply Alert.dropSenders
    refine alert.update (f := (·.over .complete)) rfl (fun m _ waits => ?_) (fun _ _ => id)
      (fun _ => le_refl _) (fun _ => id) (Finset.Subset.refl _)
    simp [Machine.waits, Machine.over] at waits

end Alert

/-- The machine resumed, if it is in a race, is not in one on a closed and empty channel. -/
def RaceOpen (w : World) (e : Event) : Prop :=
  ∀ h m, e = .resume h → w.machines[h]? = some m → m.status = .awaiting → m.racing ≠ 0 →
    w.ready m.waiting → 0 < w.queued m.waiting

/-- No channel has more holders than senders. -/
structure Backed (k : Instance) (w : World) : Prop where
  tidy : w.Tidy
  enough : ∀ c, 0 ≤ w.surplus k c

theorem Backed.senders {w : World} (backed : w.Backed k) (c : String) : 0 ≤ w.senders c := by
  have := backed.enough c
  unfold surplus at this
  omega

theorem Backed.counts {w w' : World} (backed : w.Backed k) (counts : Counts k w w') : w'.Backed k :=
  ⟨counts.tidy backed.tidy, fun c => (counts.surplus backed.tidy c).symm ▸ backed.enough c⟩

namespace Alert

variable {w w' : World} {told told' : Nat → Prop} {h : Nat}

theorem exec (alert : w.Alert races told) (sound : w.Sound k) (backed : w.Backed k) (h : Nat) :
    (w.exec k h).Alert races told := by
  cases found : w.machines[h]? with
  | none =>
    unfold World.exec
    rw [found]
    exact alert
  | some m =>
    -- the machine that runs is `m`
    have only : ∀ {w' : World} {f : Machine → Machine},
        ((f m).waits → w'.Looked races (f m)) →
        ∀ m', w.machines[h]? = some m' → (f m').waits → w'.Looked races (f m') := by
      intro w' f after m' there
      rw [found] at there
      obtain rfl := Option.some.inj there
      exact after
    obtain ⟨_, same⟩ | ⟨running, w', same, ran⟩ := exec_cases (k := k) found
    · rw [same]
      exact alert
    · have direct := ((sound.machines m (List.mem_of_getElem? found)).free (by simp [running])).2
      rw [same]
      cases ran with
      | returns => exact alert.finish h
      | sends c _ =>
        have passed : (w.update h fun m => { m with pc := m.pc + 1 }).Alert races told :=
          alert.update rfl (only fun waits => by simp [Machine.waits, running] at waits)
            (fun _ _ => id) (fun _ => le_refl _) (fun _ => id) (Finset.Subset.refl _)
        exact passed.send c rfl (fun d other => Function.update_of_ne other _ _) rfl rfl
      | takes c _ =>
        refine (alert.take c).update rfl (fun m' there waits => ?_) (fun _ _ => id)
          (fun _ => le_refl _) (fun _ => id) (Finset.Subset.refl _)
        rw [machines_take, found] at there
        obtain rfl := Option.some.inj there
        simp [Machine.waits, running] at waits
      | spawns p pinned _ =>
        refine alert.update rfl (only fun waits => by simp [Machine.waits, running] at waits)
          (fun _ _ => id) (fun _ => le_refl _) (fun c closed => ?_) (Finset.Subset.refl _)
        -- spawning only adds senders
        have more : (w.spawn k h p pinned).senders c = w.senders c + (k.holds p).count c :=
          foldl_spawned _ _ c
        have := backed.senders c
        omega
      | waits c _ unready =>
        refine alert.update rfl (only fun _ => ?_) (fun _ _ => id) (fun _ => le_refl _)
          (fun _ => id) (Finset.Subset.refl _)
        obtain ⟨empty, opened⟩ := not_or.mp unready
        exact ⟨rfl, Nat.eq_zero_of_not_pos empty, fun _ => opened⟩
      | asks _ =>
        exact alert.update rfl (only fun waits => by simp [Machine.waits, direct] at waits)
          (fun _ _ => id) (fun _ => le_refl _) (fun _ => id) (Finset.Subset.refl _)
      | races c _ unready =>
        refine alert.update rfl (only fun _ => ?_) (fun _ _ => id) (fun _ => le_refl _)
          (fun _ => id) (Finset.Subset.refl _)
        obtain ⟨empty, opened⟩ := not_or.mp unready
        exact ⟨rfl, Nat.eq_zero_of_not_pos empty, fun _ => opened⟩
      | panics _ =>
        exact alert.update rfl (only fun waits => by simp [Machine.waits] at waits)
          (fun _ _ => id) (fun _ => le_refl _) (fun _ => id) (Finset.Subset.refl _)

/-- The event is used up: the host is not to resume its machine for it any more. -/
theorem begin (alert : w.Alert races told) (sound : w.Sound k) {e : Event}
    (opened : races → w.RaceOpen e) (tell : ∀ g, e ≠ .resume g → told g → told' g) :
    (w.begin e).Alert races told' := by
  have told_away : ∀ {h g : Nat}, g ≠ h → .resume h ≠ Event.resume g := by
    intro h g away same
    exact away (Event.resume.inj same).symm
  cases found : w.machines[e.target]? with
  | none =>
    rw [begin_none found]
    refine alert.carry (fun g m there waits => .inr ⟨m, there, .refl m, tell g ?_⟩)
      (fun _ => le_refl _) (fun _ => id) (Finset.Subset.refl _)
    rintro rfl
    cases there.symm.trans found
  | some m =>
    have only : ∀ {w' : World} {f : Machine → Machine},
        ((f m).waits → w'.Looked races (f m)) →
        ∀ m', w.machines[e.target]? = some m' → (f m').waits → w'.Looked races (f m') := by
      intro w' f after m' there
      rw [found] at there
      obtain rfl := Option.some.inj there
      exact after
    obtain ⟨w', same, begun⟩ := begin_cases found
    rw [same]
    cases begun with
    -- a machine that runs does not wait
    | starts h _ =>
      exact alert.update (h := h) rfl (only fun waits => by simp [Machine.waits] at waits)
        (fun g away => tell g (told_away away)) (fun _ => le_refl _) (fun _ => id)
        (Finset.Subset.refl _)
    | looks h _ =>
      exact alert.update (h := h) rfl (only fun waits => by simp [Machine.waits] at waits)
        (fun g away => tell g (told_away away)) (fun _ => le_refl _) (fun _ => id)
        (Finset.Subset.refl _)
    | wins h _ _ _ =>
      exact (alert.take m.waiting).update (h := h) rfl
        (fun _ _ waits => by simp [Machine.waits] at waits)
        (fun g away => tell g (told_away away)) (fun _ => le_refl _) (fun _ => id)
        (Finset.Subset.refl _)
    -- it has looked, and there was nothing for it
    | waits h status racing empty =>
      refine alert.update (h := h) rfl (only fun _ => ⟨rfl, empty, fun heeds => ?_⟩)
        (fun g away => tell g (told_away away)) (fun _ => le_refl _) (fun _ => id)
        (Finset.Subset.refl _)
      rcases heeds with idle | ⟨races, _⟩
      · rw [show m.status = .idle from idle] at status
        cases status
      · intro closed
        have := opened races h m rfl found status racing (.inr closed)
        omega
    -- a resume of a machine that does not wait is no loss
    | ignores h _ idle direct =>
      refine alert.carry (fun g m' there waits => .inr ⟨m', there, .refl m', tell g ?_⟩)
        (fun _ => le_refl _) (fun _ => id) (Finset.Subset.refl _)
      rintro ⟨⟩
      obtain rfl := Option.some.inj (found.symm.trans there)
      rcases waits with status | ⟨status, racing⟩
      · exact idle status
      · exact racing (direct status)
    -- an answer is not what an idle machine waits for
    | answers h i taken _ either =>
      rcases either with rfl | rfl
      · exact alert.update (h := h) rfl (fun _ _ waits => by simp [Machine.waits] at waits)
          (fun g _ => tell g (by simp)) (fun _ => le_refl _) (fun _ => id) (Finset.Subset.refl _)
      · exact (alert.take m.waiting).update (h := h) rfl
          (fun _ _ waits => by simp [Machine.waits] at waits)
          (fun g _ => tell g (by simp)) (fun _ => le_refl _) (fun _ => id) (Finset.Subset.refl _)
    | discards h i _ =>
      exact alert.carry (fun g m there _ => .inr ⟨m, there, .refl m, tell g (by simp)⟩)
        (fun _ => le_refl _) (fun _ => id) (Finset.Subset.refl _)

theorem attempt (alert : w.Alert races told) (sound : w.Sound k) (backed : w.Backed k) {e : Event}
    (opened : races → w.RaceOpen e) (tell : ∀ g, e ≠ .resume g → told g → told' g) :
    (w.attempt k e).Alert races told' := by
  have kept := runToWait_keeps (k := k) (h := e.target)
    (fun w => w.Alert races told' ∧ w.Sound k ∧ w.Backed k)
    (fun w held => ⟨held.1.exec held.2.1 held.2.2 _, held.2.1.exec _,
      held.2.2.counts (counts_exec w _)⟩)
    (w := w.begin e) ⟨alert.begin sound opened tell, sound.begin e, backed.counts (counts_begin w e)⟩
  exact kept.1

theorem conclude (alert : w.Alert races told) (h : Nat) : (w.conclude k h).Alert races told := by
  unfold World.conclude
  split
  · unfold World.failCall
    split
    · exact alert
    · apply Alert.dropSenders
      apply Alert.dropSenders
      refine alert.update (f := (·.over .gone)) rfl (fun m _ waits => ?_) (fun _ _ => id)
        (fun _ => le_refl _) (fun _ => id) (Finset.Subset.refl _)
      simp [Machine.waits, Machine.over] at waits
  · refine alert.carry (fun g m there waits => .inr ⟨m, ?_, .refl m, id⟩)
      (fun _ => le_refl _) (fun _ => id) (Finset.Subset.refl _)
    -- a child has not begun, and so waits for nothing
    rw [machines_register] at there
    by_cases low : g < w.machines.length
    · rwa [List.getElem?_append_left low] at there
    · rw [List.getElem?_append_right (by omega), List.getElem?_map] at there
      obtain ⟨child, _, rfl⟩ := Option.map_eq_some_iff.mp there
      simp [Machine.waits, fresh] at waits

theorem own (alert : w.Alert races told) (h worker : Nat) (m : Machine) :
    (w.own h worker m).Alert races told := by
  unfold World.own
  split
  · refine alert.carry (fun g m' there _ => .inr ?_) (fun _ => le_refl _) (fun _ => id)
      (Finset.Subset.refl _)
    rw [getElem?_update] at there
    split at there
    · obtain ⟨before, found, rfl⟩ := Option.map_eq_some_iff.mp there
      exact ⟨before, found, ⟨rfl, rfl, rfl, rfl⟩, id⟩
    · exact ⟨m', there, .refl m', id⟩
  · exact alert

end Alert

end World

/-! ### The host -/

namespace Host

variable {s s' : Host}

/-- The host is to resume the machine, or will be told to. -/
def Told (s : Host) (g : Nat) : Prop :=
  .resume g ∈ s.pending ∨ g ∈ s.wakes ∨ ∃ x out, s.inFlight.lookup x = some out ∧ g ∈ out.woke

/-- A call leaves alert the library it found so. -/
theorem called_alert (alert : s.world.Alert races s.Told) (sound : s.world.Sound k)
    (backed : s.world.Backed k) {e : Event} (opened : races → s.world.RaceOpen e) (worker : Nat)
    (m : Machine) (free : e.target ∉ s.inFlight.keys) :
    (s.called k e worker m).world.Alert races (s.called k e worker m).Told := by
  -- whoever was told is told still, unless by this event
  have ended : (s.world.owned k e worker m).Alert races
      fun g => Told { s with pending := s.pending.erase e } g := by
    apply World.Alert.own
    apply World.Alert.conclude
    apply alert.attempt sound backed opened
    rintro g other (pending | wakes | flying)
    · exact .inl (Finset.mem_erase.mpr ⟨Ne.symm other, pending⟩)
    · exact .inr (.inl wakes)
    · exact .inr (.inr flying)
  refine ⟨ended.fed, ended.shut, fun g m' there waits woken => .inr ?_⟩
  rcases ended.reported g m' there waits woken with now | pending | wakes | ⟨x, out, flying, woke⟩
  · by_cases failed : (s.world.attempt k e).failed e.target
    · refine .inr (.inl ?_)
      rw [called_wakes, if_pos failed]
      exact Finset.mem_union_right _ now
    · refine .inr (.inr ⟨e.target, _, Finmap.lookup_insert _, ?_⟩)
      rwa [output_woke, if_neg failed]
  · exact .inl pending
  · refine .inr (.inl ?_)
    rw [called_wakes]
    split
    · exact Finset.mem_union_left _ wakes
    · exact wakes
  · exact .inr (.inr ⟨x, out, (called_flying k worker m free flying).2, woke⟩)

/-- Whether the machine resumed is in a race on a closed and empty channel. -/
def RaceOpen (s : Host) : Action → Prop
  | .call e _ => s.world.RaceOpen e
  | _ => True

/-- Each wait is as it was or has ended, and the host is told no less of it. -/
theorem alert_carry (alert : s.world.Alert races s.Told)
    (machines : ∀ (g : Nat) (m' : Machine), s'.machines[g]? = some m' → m'.waits →
      s.machines[g]? = some m')
    (queued : s'.queued = s.queued) (senders : s'.senders = s.senders)
    (told : ∀ g, s.Told g → s'.Told g) : s'.world.Alert races s'.Told := by
  refine alert.carry (fun g m there waits => .inr ⟨m, machines g m there waits, .refl m, told g⟩)
    (fun c => (congrFun queued c).le) (fun c closed => ?_) (Finset.Subset.refl _)
  exact (congrFun senders c).symm.trans closed

/-- Replies only are dropped as a call returns. -/
theorem returned_keeps {dropsClosed : Bool} {closed : Finset Nat} {h g : Nat} {p : Finset Event}
    (member : .resume g ∈ p) :
    .resume g ∈ p \ if dropsClosed then closed.image (.reply h) else ∅ := by
  refine Finset.mem_sdiff.mpr ⟨member, ?_⟩
  split <;> simp

theorem returned_told (heeds : k.heedsWoke = true) {h : Nat} {out : Output}
    (found : s.inFlight.lookup h = some out) {g : Nat} (told : s.Told g) :
    (s.returned k h out).Told g := by
  rcases told with pending | wakes | ⟨x, out', flying, woke⟩
  · refine .inl (returned_keeps ?_)
    simp only [Finset.mem_union]
    exact .inl (.inl (.inl (.inl pending)))
  · exact .inr (.inl wakes)
  · by_cases here : x = h
    · subst here
      obtain rfl := Option.some.inj (found.symm.trans flying)
      refine .inl (returned_keeps ?_)
      simp only [Finset.mem_union, if_pos heeds]
      exact .inl (.inl (.inl (.inr (Finset.mem_image_of_mem _ woke))))
    · exact .inr (.inr ⟨x, out', (Finmap.lookup_erase_ne here).trans flying, woke⟩)

theorem step_alert (correct : k.Correct) (alert : s.world.Alert races s.Told)
    (sound : s.world.Sound k) (backed : s.world.Backed k) {a : Action}
    (opened : races → s.RaceOpen a) (taken : s.step k a = some s') :
    s'.world.Alert races s'.Told := by
  cases step_cases taken with
  | refused e worker m found unrouted _ => cases correct.routesPinned.symm.trans unrouted
  | called e worker m _ _ _ _ free _ => exact called_alert alert sound backed opened worker m free
  | returned h out found =>
    refine alert_carry alert (fun g m' there waits => ?_) rfl rfl fun _ =>
      returned_told correct.heedsWoke found
    obtain before | ⟨_, gone, _⟩ := of_retire there
    · exact before
    · simp [Machine.waits, gone] at waits
  | woken _ pending _ _ =>
    refine alert_carry alert (fun _ _ there _ => there) rfl rfl fun g told => ?_
    rcases told with there | wakes | flying
    · rw [pending] at there
      simp at there
    · exact .inl (Finset.mem_image_of_mem _ wakes)
    · exact .inr (.inr flying)
  | judged => exact alert_carry alert (fun _ _ there _ => there) rfl rfl fun _ => id
  | spurred h m _ _ _ _ _ =>
    exact alert_carry alert (fun _ _ there _ => there) rfl rfl fun g told =>
      told.imp_left (Finset.mem_union_left _)
  | killed h m found _ free _ =>
    -- what the host forgets was for the machine that is gone
    have gone : ((s.world.update h (·.over .gone)).dropSenders m.holds).Alert races
        fun g => Told { s with pending := s.pending.filter fun e => e.target ≠ h } g := by
      apply World.Alert.dropSenders
      refine alert.update (f := (·.over .gone)) rfl (fun m _ waits => ?_) (fun g away told => ?_)
        (fun _ => le_refl _) (fun _ => id) (Finset.Subset.refl _)
      · simp [Machine.waits, Machine.over] at waits
      · exact told.imp_left fun pending => Finset.mem_filter.mpr ⟨pending, away⟩
    refine ⟨gone.fed, gone.shut, fun g m' there waits woken => .inr ?_⟩
    rcases gone.reported g m' there waits woken with now | pending | wakes | flying
    · exact .inr (.inl (Finset.mem_union_right _ now))
    · exact .inl pending
    · exact .inr (.inl (Finset.mem_union_left _ wakes))
    · exact .inr (.inr flying)
  | done _ => exact alert

end Host

/-! ### Machines that have not begun -/

namespace World

variable {w w' : World}

/-- The children spawned by the call are those among its effects, and it wakes machines there
are. -/
structure Listed (w : World) : Prop where
  children : ∀ i, .spawned i ∈ w.effects ↔ i < w.children.length
  woke : ∀ g ∈ w.woke, g < w.machines.length

theorem Listed.more (listed : w.Listed) (length : w'.machines.length = w.machines.length)
    (woke : w'.woke = w.woke) (children : w'.children = w.children)
    (effects : w'.effects = w.effects ∨ ∃ id, w'.effects = w.effects ++ [.asked id]) : w'.Listed := by
  refine ⟨fun i => ?_, ?_⟩
  · rw [children, ← listed.children]
    rcases effects with same | ⟨id, asked⟩
    · rw [same]
    · simp [asked]
  · rw [woke, length]
    exact listed.woke

theorem Nudged.listed (nudged : w.Nudged w') (listed : w.Listed) : w'.Listed :=
  ⟨by rw [nudged.children, nudged.effects]; exact listed.children, fun g woke => by
    rw [nudged.length]
    exact (nudged.named g woke).elim (listed.woke g) id⟩

theorem Listed.take (listed : w.Listed) (c : String) : (w.take c).Listed := by
  unfold World.take
  split
  · exact listed.more rfl rfl rfl (.inl rfl)
  · exact listed

theorem Listed.update (listed : w.Listed) (h : Nat) (f : Machine → Machine) :
    (w.update h f).Listed := listed.more (length_update w h f) rfl rfl (.inl rfl)

theorem Listed.exec (listed : w.Listed) (h : Nat) : (w.exec k h).Listed := by
  cases found : w.machines[h]? with
  | none =>
    unfold World.exec
    rw [found]
    exact listed
  | some m =>
    obtain ⟨_, same⟩ | ⟨_, w', same, ran⟩ := exec_cases (k := k) found
    · rw [same]
      exact listed
    · rw [same]
      cases ran with
      | returns =>
        unfold finish
        rw [found]
        apply (dropSenders_spec _ _).1.listed
        exact (listed.update h (·.over .complete)).more rfl rfl rfl (.inl rfl)
      | sends c _ =>
        apply (wakeWaiters_spec _ c).1.listed
        exact (listed.update h fun m => { m with pc := m.pc + 1 }).more rfl rfl rfl (.inl rfl)
      | takes c _ => exact (listed.take c).update h _
      | spawns p pinned _ =>
        refine ⟨fun i => ?_, ?_⟩
        · show .spawned i ∈ w.effects ++ [.spawned w.children.length] ↔
            i < (w.children ++ [(p, pinned)]).length
          rw [List.mem_append, listed.children, List.length_append, List.length_singleton]
          simp
          omega
        · exact (listed.update h fun m => { m with pc := m.pc + 1 }).woke
      | waits | panics => exact listed.update h _
      | asks _ =>
        exact (listed.update h fun m => { m with
          status := .awaiting, asks := m.asks ∪ {m.nextId}, nextId := m.nextId + 1 }).more
            rfl rfl rfl (.inr ⟨m.nextId, rfl⟩)
      | races c _ _ =>
        exact (listed.update h fun m => { m with
          status := .awaiting, waiting := c, woken := false, racing := m.nextId,
          asks := m.asks ∪ {m.nextId}, nextId := m.nextId + 1 }).more
            rfl rfl rfl (.inr ⟨m.nextId, rfl⟩)

theorem Listed.begin (listed : w.Listed) (e : Event) : (w.begin e).Listed := by
  cases found : w.machines[e.target]? with
  | none =>
    rw [begin_none found]
    exact listed
  | some m =>
    obtain ⟨w', same, begun⟩ := begin_cases found
    rw [same]
    cases begun with
    | starts | looks | waits => exact listed.update _ _
    | ignores | discards => exact listed
    | wins h _ _ _ =>
      exact ((listed.take m.waiting).update h fun n => { n with
        status := .running, pc := n.pc + 1, waiting := "", woken := false,
        asks := n.asks \ {m.racing}, racing := 0 }).more rfl rfl rfl (.inl rfl)
    | answers h i taken _ either =>
      rcases either with rfl | rfl
      · exact listed.update h _
      · exact (listed.take m.waiting).update h _

theorem Listed.attempt (listed : w.Listed) (e : Event) : (w.attempt k e).Listed :=
  runToWait_keeps World.Listed (fun _ listed => listed.exec _) (listed.begin e)

theorem mem_spawnedIn {effects : List Effect} {g : Nat} :
    g ∈ spawnedIn effects ↔ .spawned g ∈ effects := by
  unfold spawnedIn
  rw [List.mem_toFinset, List.mem_filterMap]
  constructor
  · rintro ⟨effect, member, same⟩
    cases effect with
    | spawned c =>
      obtain rfl := Option.some.inj same
      exact member
    | asked id => cases same
  · exact fun member => ⟨_, member, rfl⟩

/-- Each child that a call registers is named in its output by its handle. -/
theorem mem_spawnedIn_owned {e : Event} (listed : (w.attempt k e).Listed) (worker : Nat)
    (m : Machine) (ended : ¬ (w.attempt k e).failed e.target) {i : Nat}
    (low : i < (w.attempt k e).children.length) :
    (w.attempt k e).machines.length + i ∈ spawnedIn (w.owned k e worker m).effects := by
  unfold owned conclude
  rw [if_neg ended, own_effects, mem_spawnedIn, spawned_register]
  exact ⟨i, (listed.children i).mpr low, rfl⟩

/-- What is called has begun, unless it is a reply to a machine that has not. -/
theorem begun_attempt {e : Event} {m : Machine} (found : w.machines[e.target]? = some m)
    (begins : m.status ≠ .notStarted ∨ ∃ h, e = .resume h) :
    ∃ a, (w.attempt k e).account e.target = some a ∧ a.machine.status ≠ .notStarted := by
  apply attempt_account found fun a => a.machine.status ≠ .notStarted
  · intro a entry
    cases entry with
    | started | looked | won | answered => simp
    | kept h unstarted _ => exact unstarted
    | discarded h i _ =>
      rcases begins with unstarted | ⟨_, resume⟩
      · exact unstarted
      · cases resume
  · intro n closed asked a running _ turn
    cases turn with
    | passed _ => simp [running]
    | returned | idled | awaited | panicked => simp

end World

namespace Host

variable {s s' : Host}

/-- A machine that has not begun is to be resumed, or named to the host by the call that spawned
it. -/
def Unbegun (s : Host) : Prop :=
  ∀ g m, s.machines[g]? = some m → m.status = .notStarted →
    .resume g ∈ s.pending ∨ ∃ x out, s.inFlight.lookup x = some out ∧ g ∈ spawnedIn out.effects

theorem step_unbegun (correct : k.Correct) (unbegun : s.Unbegun) {a : Action}
    (taken : s.step k a = some s') : s'.Unbegun := by
  cases step_cases taken with
  | refused e worker m found unrouted _ => cases correct.routesPinned.symm.trans unrouted
  | called e worker m found _ _ _ free _ =>
    have bound : (s.world.attempt k e).machines.length = s.machines.length :=
      (World.only_attempt (k := k) s.world e).length
    -- an event for another machine is still pending, and what is in flight stays so
    have still : ∀ g, e ≠ .resume g →
        (.resume g ∈ s.pending ∨ ∃ x out, s.inFlight.lookup x = some out ∧
          g ∈ spawnedIn out.effects) →
        .resume g ∈ (s.called k e worker m).pending ∨
          ∃ x out, (s.called k e worker m).inFlight.lookup x = some out ∧
            g ∈ spawnedIn out.effects := by
      rintro g other (pending | ⟨x, out, flying, named⟩)
      · exact .inl (Finset.mem_erase.mpr ⟨Ne.symm other, pending⟩)
      · exact .inr ⟨x, out, (called_flying k worker m free flying).2, named⟩
    intro g m' there status
    have there : (s.world.owned k e worker m).machines[g]? = some m' := there
    obtain rfl | ⟨away, before, there', bare⟩ | ⟨ended, i, child, rfl, listed, _⟩ :=
      of_called (k := k) (s := s) there
    · -- the machine called has begun by now
      by_cases begins : m.status ≠ .notStarted ∨ ∃ h, e = .resume h
      · obtain ⟨a, ran, unstarted⟩ := World.begun_attempt (k := k) (w := s.world) found begins
        obtain ⟨n, at_h, _, ⟨_, _, gone, _⟩ | ⟨_, _, _, _, same⟩⟩ :=
          World.owned_self (k := k) worker m ran
        · obtain rfl := Option.some.inj (there.symm.trans at_h)
          cases status.symm.trans gone
        · obtain rfl := Option.some.inj (there.symm.trans at_h)
          have same := congrArg Machine.status same
          exact absurd (same.symm.trans status) unstarted
      · obtain ⟨status, reply⟩ := not_or.mp begins
        exact still _ (fun resume => reply ⟨_, resume⟩) (unbegun _ m found (not_not.mp status))
    · refine still g ?_ (unbegun g before there' ?_)
      · rintro rfl
        exact away rfl
      · have same := congrArg Machine.status bare
        exact same.symm.trans status
    · refine .inr ⟨e.target, _, Finmap.lookup_insert _, ?_⟩
      have named := World.mem_spawnedIn_owned (k := k) (w := s.world) (e := e)
        (World.Listed.attempt ⟨by simp [world], by simp [world]⟩ e) worker m ended
        (List.getElem?_eq_some_iff.mp listed).1
      rw [output_effects, if_neg ended, ← bound]
      exact named
  | returned h out found =>
    intro g m' there status
    obtain before | ⟨_, gone, _⟩ := of_retire there
    · rcases unbegun g m' before status with pending | ⟨x, out', flying, named⟩
      · refine .inl (returned_keeps ?_)
        simp only [Finset.mem_union]
        exact .inl (.inl (.inl (.inl pending)))
      · by_cases here : x = h
        · subst here
          obtain rfl := Option.some.inj (found.symm.trans flying)
          refine .inl (returned_keeps ?_)
          simp only [Finset.mem_union]
          exact .inl (.inr (Finset.mem_image_of_mem _ named))
        · exact .inr ⟨x, out', (Finmap.lookup_erase_ne here).trans flying, named⟩
    · cases status.symm.trans gone
  | woken _ pending inFlight _ =>
    intro g m' there status
    obtain resume | ⟨x, out, flying, _⟩ := unbegun g m' there status
    · rw [pending] at resume
      simp at resume
    · cases (lookup_none_of_empty inFlight x).symm.trans flying
  | judged => exact unbegun
  | spurred h m _ _ _ _ _ =>
    intro g m' there status
    exact (unbegun g m' there status).imp_left (Finset.mem_union_left _)
  | killed h m _ _ _ _ =>
    intro g m' there status
    obtain ⟨_, gone, _⟩ | ⟨away, before, there', bare⟩ := of_killed there
    · cases status.symm.trans gone
    · have same := congrArg Machine.status bare
      exact (unbegun g before there' (same.symm.trans status)).imp_left fun pending =>
        Finset.mem_filter.mpr ⟨pending, away⟩
  | done _ => exact unbegun

/-! ### Runs -/

/-- What the host and the library know of each other's waits. -/
structure Awake (races : Prop) (k : Instance) (s : Host) : Prop where
  sound : s.Sound k
  backed : s.world.Backed k
  alert : s.world.Alert races s.Told
  unbegun : s.Unbegun

theorem awake_init (races : Prop) (k : Instance) : (init k).Awake races k := by
  obtain ⟨tidy, balanced⟩ := init_left (k := k)
  have one : ∀ (g : Nat) (m : Machine), (init k).machines[g]? = some m →
      m = fresh k k.root false ∧ g = 0 := by
    intro g m there
    obtain ⟨low, same⟩ := List.getElem?_eq_some_iff.mp there
    have low : g < 1 := low
    obtain rfl : g = 0 := by omega
    exact ⟨same.symm, rfl⟩
  refine ⟨sound_init k, ⟨tidy, fun c => ?_⟩, ⟨fun g m there waits _ => ?_, fun g m there heeds _ => ?_,
    fun g m there waits _ => ?_⟩, fun g m there _ => ?_⟩
  · rw [← left_eq_surplus, balanced]
  · obtain ⟨rfl, _⟩ := one g m there
    simp [Machine.waits, fresh] at waits
  · obtain ⟨rfl, _⟩ := one g m there
    simp [Machine.heedsClosing, Machine.waits, fresh] at heeds
  · obtain ⟨rfl, _⟩ := one g m there
    simp [Machine.waits, fresh] at waits
  · obtain ⟨_, rfl⟩ := one g m there
    exact .inl (Finset.mem_singleton_self _)

theorem Awake.step (correct : k.Correct) (awake : s.Awake races k) {a : Action}
    (opened : races → s.RaceOpen a) (taken : s.step k a = some s') : s'.Awake races k := by
  obtain ⟨tidy, grew, _⟩ := step_left awake.backed.tidy taken
  refine ⟨awake.sound.step taken, ⟨tidy, fun c => ?_⟩,
    step_alert correct awake.alert awake.sound.world awake.backed opened taken,
    step_unbegun correct awake.unbegun taken⟩
  have enough := awake.backed.enough c
  rw [← left_eq_surplus] at enough ⊢
  exact enough.trans (grew c)

/-- Whoever waits and could go on, or has not begun, is on the way to a resume. -/
theorem Awake.noLostWake (awake : s.Awake True k) : s.noLostWake := by
  intro g m there runs
  have told : s.Told g → .resume g ∈ s.pending ∨ g ∈ s.wakes ∨ g ∈ s.inFlight.keys ∨
      ∃ x out, s.inFlight.lookup x = some out ∧ (g ∈ out.woke ∨ g ∈ spawnedIn out.effects) := by
    rintro (pending | wakes | ⟨x, out, flying, woke⟩)
    · exact .inl pending
    · exact .inr (.inl wakes)
    · exact .inr (.inr (.inr ⟨x, out, flying, .inl woke⟩))
  -- a machine that waits on a channel that is ready has been woken
  have waiting : m.waits → s.world.ready m.waiting → s.Told g := by
    rintro waits (message | closed)
    · have woken := awake.alert.fed g m there waits message
      exact (awake.alert.reported g m there waits woken).resolve_left (Finset.notMem_empty g)
    · have woken := awake.alert.shut g m there (.inr ⟨trivial, waits⟩) closed
      exact (awake.alert.reported g m there waits woken).resolve_left (Finset.notMem_empty g)
  unfold runnable at runs
  split at runs
  · next status =>
    rcases awake.unbegun g m there status with pending | ⟨x, out, flying, named⟩
    · exact .inl pending
    · exact .inr (.inr (.inr ⟨x, out, flying, .inr named⟩))
  · next status => exact told (waiting (.inl status) runs)
  · next status => exact told (waiting (.inr ⟨status, runs.1⟩) runs.2)
  · exact absurd runs id

end Host

/-- In every run that never resumes a machine in a race on a closed and empty channel, no wake is
lost. -/
theorem no_wake_is_lost (k : Instance) (correct : k.Correct) (actions : List Host.Action) (s : Host)
    (ran : Transition.run (Host.step k) (Host.init k) actions = some s)
    (opened : Transition.Along (Host.step k) Host.RaceOpen (Host.init k) actions) :
    s.noLostWake := by
  have awake := Transition.run_invariant_along Host.RaceOpen (Host.Awake True k)
    (fun _ _ _ awake opened taken => awake.step correct (fun _ => opened) taken)
    (Host.awake_init True k) opened ran
  exact awake.noLostWake

/-- A race against a worker that ends without an answer, which closes the channel. -/
def deadline : Instance where
  names := {"parent", "quick"}
  programs p := if p = "parent" then [.spawn "quick", .race "answer"] else []
  holds p := if p = "quick" then ["answer"] else []
  root := "parent"
  workers := 1
  heedsWoke := true
  dropsClosed := true
  routesPinned := true
  checksAllDone := true
  waitsForWoke := true
  spurious := 0
  kills := 0
  holds_distinct p := by
    split <;> simp
  root_named := by decide
  spawns_named p _ q spawned := by
    by_cases parent : p = "parent"
    · obtain rfl : q = "quick" := by simpa [parent] using spawned
      decide
    · simp [parent] at spawned

theorem deadline_short : deadline.Short := by
  intro p _
  show (if p = "parent" then _ else _ : List Instr).length ≤ 7
  split <;> simp

theorem no_wake_is_lost_deadline :
    ∃ s, Transition.run (Host.step deadline) (Host.init deadline)
        [.call (.resume 0) 0, .ret 0] = some s ∧ s.noLostWake := by
  refine ⟨_, rfl, no_wake_is_lost deadline ⟨rfl, rfl, rfl, rfl, rfl⟩
    [.call (.resume 0) 0, .ret 0] _ rfl ⟨fun h m same found status => ?_, fun next _ =>
      ⟨trivial, fun _ _ => trivial⟩⟩⟩
  obtain rfl : 0 = h := Event.resume.inj same
  obtain rfl : fresh deadline "parent" false = m := Option.some.inj found
  cases status

/-- The race is resumed once its channel has closed, and waits on for a reply that need not come. -/
theorem wake_of_a_race_is_lost :
    ¬ ∀ (k : Instance), k.Correct → k.Short → 1 ≤ k.workers → ∀ (actions : List Host.Action)
      (s : Host), Transition.run (Host.step k) (Host.init k) actions = some s → s.noLostWake := by
  intro kept
  have told := kept deadline ⟨rfl, rfl, rfl, rfl, rfl⟩ deadline_short (le_refl _)
    [.call (.resume 0) 0, .ret 0, .call (.resume 1) 0, .ret 1, .call (.resume 0) 0, .ret 0] _ rfl
    0 _ rfl ⟨by decide, .inr (by decide)⟩
  rcases told with pending | wakes | flying | ⟨x, out, flying, _⟩
  · revert pending
    decide
  · revert wakes
    decide
  · revert flying
    decide
  · cases (Host.lookup_none_of_empty (by decide) x).symm.trans flying

end SansEffort.Protocol
